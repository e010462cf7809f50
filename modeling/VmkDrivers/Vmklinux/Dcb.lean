/-
  VmkDrivers.Vmklinux.Dcb

  Priority groups of a NIC (`linux_dcb.c`).

  The vmkernel has a group for each user priority; a driver wants, for each traffic
  class, a bitmap of priorities.  `vmkpg_to_linpg` and `linpg_to_vmkpg` translate, by
  maps of eight entries.  The loops that push and pull run over as many classes as the
  driver reports, up to 255 (`dcb_right_iff`).

  A driver is what its callbacks do to a state of its own.
-/

import VmkDrivers.Lib.ExceptLoop

namespace VmkDrivers.Vmklinux

open VmkDrivers.Lib

/-! ## Maps -/

inductive DcbFault where
  | outOfRange
deriving DecidableEq, Repr

/-- `VMK_DCB_MAX_TC_COUNT`, `VMK_DCB_MAX_PG_COUNT` and `VMK_DCB_MAX_PRIORITY_COUNT` -/
abbrev dcbMaxCount : Nat := 8

abbrev DcbMap := Fin dcbMaxCount → BitVec 8

def DcbMap.get (m : DcbMap) (i : Nat) : Except DcbFault (BitVec 8) :=
  if h : i < dcbMaxCount then .ok (m ⟨i, h⟩) else .error .outOfRange

def DcbMap.set (m : DcbMap) (i : Nat) (v : BitVec 8) : Except DcbFault DcbMap :=
  if h : i < dcbMaxCount then .ok (Function.update m ⟨i, h⟩ v) else .error .outOfRange

/-- `vmk_DCBPriorityGroup` -/
structure DcbPriorityGroup where
  pgBwPercent : DcbMap
  upToPgIDMap : DcbMap

/-- `vmklnx_dcb_pg` -/
structure DcbPg where
  numTcs : BitVec 8
  pgBwPercent : DcbMap := fun _ => 0
  tcToUpMap : DcbMap := fun _ => 0
  tcToPgidMap : DcbMap := fun _ => 0
  tcSubPgBwPercent : DcbMap := fun _ => 0
  tcToLinkPrioType : DcbMap := fun _ => 0

/-! ## Translations -/

/-- `linpg->tc_to_up_map[tc] |= 1 << up` -/
def DcbPg.addPriority (linpg : DcbPg) (tc : Nat) (up : Fin dcbMaxCount) :
    Except DcbFault DcbPg := do
  let m ← linpg.tcToUpMap.get tc
  let map ← linpg.tcToUpMap.set tc (m ||| 1#8 <<< up.val)
  return { linpg with tcToUpMap := map }

/-- The body of the loop over the priorities in `vmkpg_to_linpg`. -/
def mapPriority (vmkpg : DcbPriorityGroup) (linpg : DcbPg) (up : Fin dcbMaxCount) :
    Except DcbFault DcbPg :=
  -- "More PGs configured than the number of TCs driver reported"
  if linpg.numTcs ≤ vmkpg.upToPgIDMap up then linpg.addPriority 0 up
  else linpg.addPriority (vmkpg.upToPgIDMap up).toNat up

def vmkpgToLinpg (vmkpg : DcbPriorityGroup) (linpg : DcbPg) : Except DcbFault DcbPg := do
  let linpg ← (List.finRange dcbMaxCount).foldlM (mapPriority vmkpg)
    { linpg with
      pgBwPercent := vmkpg.pgBwPercent
      tcToPgidMap := fun tc => BitVec.ofNat 8 tc.val }
  -- `DCB_ATTR_VALUE_UNDEFINED`
  return { linpg with tcToLinkPrioType := fun _ => 0xff, tcSubPgBwPercent := fun _ => 100 }

/-- The priorities of one class, in `linpg_to_vmkpg`. -/
def pgPriorities (linpg : DcbPg) (up : DcbMap) (i : Fin dcbMaxCount) : DcbMap :=
  if linpg.tcToUpMap i ≠ 0 then
    (List.finRange dcbMaxCount).foldl
      (fun up j =>
        if linpg.tcToUpMap i &&& 1#8 <<< j.val ≠ 0 then Function.update up j (linpg.tcToPgidMap i)
        else up)
      up
  else up

def linpgToVmkpg (linpg : DcbPg) (vmkpg : DcbPriorityGroup) : DcbPriorityGroup where
  pgBwPercent := linpg.pgBwPercent
  upToPgIDMap := (List.finRange dcbMaxCount).foldl (pgPriorities linpg) vmkpg.upToPgIDMap

/-! ## Drivers -/

structure DcbTcCfg where
  prioType : BitVec 8
  pgid : BitVec 8
  bwPct : BitVec 8
  upMap : BitVec 8
deriving DecidableEq, Repr

inductive DcbDir where
  | tx
  | rx
deriving DecidableEq, Repr

/-- `dcbnl_ops` of a driver.  The getters write to what they are given. -/
structure DcbDriver (σ : Type) where
  setOps : Bool := true
  getOps : Bool := true
  /-- The number of classes for groups; `none` is a failure of `NICDCBGetNumTCs`. -/
  getnumtcs : σ → Option (BitVec 8)
  setpgtccfg : DcbDir → σ → Nat → DcbTcCfg → σ
  setpgbwgcfg : DcbDir → σ → Nat → BitVec 8 → σ
  getpgtccfg : DcbDir → σ → Nat → DcbTcCfg → DcbTcCfg
  getpgbwgcfg : DcbDir → σ → Nat → BitVec 8 → BitVec 8

inductive DcbReturn where
  | ok
  | notSupported
  | failure
deriving DecidableEq, Repr

namespace DcbDriver

variable {σ : Type} (drv : DcbDriver σ)

/-- `tc_to_link_prio_type[tc]`, ... -/
def readTc (pg : DcbPg) (tc : Nat) : Except DcbFault DcbTcCfg := do
  let prioType ← pg.tcToLinkPrioType.get tc
  let pgid ← pg.tcToPgidMap.get tc
  let bwPct ← pg.tcSubPgBwPercent.get tc
  let upMap ← pg.tcToUpMap.get tc
  return ⟨prioType, pgid, bwPct, upMap⟩

def writeTc (pg : DcbPg) (tc : Nat) (cfg : DcbTcCfg) : Except DcbFault DcbPg := do
  let prioType ← pg.tcToLinkPrioType.set tc cfg.prioType
  let pgid ← pg.tcToPgidMap.set tc cfg.pgid
  let bwPct ← pg.tcSubPgBwPercent.set tc cfg.bwPct
  let upMap ← pg.tcToUpMap.set tc cfg.upMap
  return { pg with
    tcToLinkPrioType := prioType, tcToPgidMap := pgid, tcSubPgBwPercent := bwPct,
    tcToUpMap := upMap }

def pushTc (pg : DcbPg) (s : σ) (tc : Nat) : Except DcbFault σ := do
  let cfg ← readTc pg tc
  return drv.setpgtccfg .rx (drv.setpgtccfg .tx s tc cfg) tc cfg

def pushBw (pg : DcbPg) (s : σ) (tc : Nat) : Except DcbFault σ := do
  let bw ← pg.pgBwPercent.get tc
  return drv.setpgbwgcfg .rx (drv.setpgbwgcfg .tx s tc bw) tc bw

/-- `NICDCBSetPriorityGroup` -/
def setPriorityGroup (s : σ) (vmkpg : DcbPriorityGroup) : Except DcbFault (DcbReturn × σ) :=
  if drv.setOps = false then .ok (.notSupported, s)
  else
    match drv.getnumtcs s with
    | none => .ok (.failure, s)
    | some numTcs => do
      let pg ← vmkpgToLinpg vmkpg { numTcs }
      let t ← (List.range numTcs.toNat).foldlM (drv.pushTc pg) s
      let u ← (List.range numTcs.toNat).foldlM (drv.pushBw pg) t
      return (.ok, u)

def pullTc (s : σ) (pg : DcbPg) (tc : Nat) : Except DcbFault DcbPg := do
  let cfg ← readTc pg tc
  writeTc pg tc (drv.getpgtccfg .rx s tc (drv.getpgtccfg .tx s tc cfg))

def pullBw (s : σ) (pg : DcbPg) (tc : Nat) : Except DcbFault DcbPg := do
  let bw ← pg.pgBwPercent.get tc
  let map ← pg.pgBwPercent.set tc (drv.getpgbwgcfg .rx s tc (drv.getpgbwgcfg .tx s tc bw))
  return { pg with pgBwPercent := map }

/-- `NICDCBGetPriorityGroup` -/
def getPriorityGroup (s : σ) (vmkpg : DcbPriorityGroup) :
    Except DcbFault (DcbReturn × DcbPriorityGroup) :=
  if drv.getOps = false then .ok (.notSupported, vmkpg)
  else
    match drv.getnumtcs s with
    | none => .ok (.failure, vmkpg)
    | some numTcs => do
      let pg ← (List.range numTcs.toNat).foldlM (drv.pullTc s) { numTcs }
      let pg ← (List.range numTcs.toNat).foldlM (drv.pullBw s) pg
      return (.ok, linpgToVmkpg pg vmkpg)

/-- A driver stores what it is told: its getters for the last direction give it back. -/
structure Stores : Prop where
  numtcs_tc : ∀ dir s tc cfg, drv.getnumtcs (drv.setpgtccfg dir s tc cfg) = drv.getnumtcs s
  numtcs_bw : ∀ dir s pg bw, drv.getnumtcs (drv.setpgbwgcfg dir s pg bw) = drv.getnumtcs s
  tc_same : ∀ s tc cfg old, drv.getpgtccfg .rx (drv.setpgtccfg .rx s tc cfg) tc old = cfg
  tc_other : ∀ dir s tc tc' cfg old, tc ≠ tc' →
    drv.getpgtccfg .rx (drv.setpgtccfg dir s tc cfg) tc' old = drv.getpgtccfg .rx s tc' old
  tc_bw : ∀ dir s pg bw tc old,
    drv.getpgtccfg .rx (drv.setpgbwgcfg dir s pg bw) tc old = drv.getpgtccfg .rx s tc old
  bw_same : ∀ s pg bw old, drv.getpgbwgcfg .rx (drv.setpgbwgcfg .rx s pg bw) pg old = bw
  bw_other : ∀ dir s pg pg' bw old, pg ≠ pg' →
    drv.getpgbwgcfg .rx (drv.setpgbwgcfg dir s pg bw) pg' old = drv.getpgbwgcfg .rx s pg' old

/-- For a driver that reports `n` classes: no map is indexed outside, each priority is in one class
    below `n`, or in the first, and what is set is got again. -/
structure Right (s : σ) (n : BitVec 8) (cfg : DcbPriorityGroup) : Prop where
  set_inside : ∃ r, drv.setPriorityGroup s cfg = .ok r
  get_inside : ∀ buf, ∃ r, drv.getPriorityGroup s buf = .ok r
  one_class : ∃ linpg, vmkpgToLinpg cfg { numTcs := n } = .ok linpg ∧
    ∀ up : Fin dcbMaxCount, ∃ tc : Fin dcbMaxCount, tc.val < max n.toNat 1 ∧
      ∀ i, (linpg.tcToUpMap i).getLsbD up = true ↔ i = tc
  round_trip : drv.Stores → (∀ up, (cfg.upToPgIDMap up).toNat < n.toNat) →
    (∀ pg : Fin dcbMaxCount, n.toNat ≤ pg → cfg.pgBwPercent pg = 0) → ∀ buf, ∃ t,
      drv.setPriorityGroup s cfg = .ok (.ok, t) ∧ drv.getPriorityGroup t buf = .ok (.ok, cfg)

end DcbDriver

/-! ## A driver with tables -/

structure DcbTables where
  numTcs : BitVec 8
  tcs : DcbDir → Nat → DcbTcCfg := fun _ _ => ⟨0, 0, 0, 0⟩
  bws : DcbDir → Nat → BitVec 8 := fun _ _ => 0

def tableDriver : DcbDriver DcbTables where
  getnumtcs s := some s.numTcs
  setpgtccfg dir s tc cfg :=
    { s with tcs := fun d i => if d = dir ∧ i = tc then cfg else s.tcs d i }
  setpgbwgcfg dir s pg bw :=
    { s with bws := fun d i => if d = dir ∧ i = pg then bw else s.bws d i }
  getpgtccfg dir s tc _ := s.tcs dir tc
  getpgbwgcfg dir s pg _ := s.bws dir pg

theorem tableDriver_stores : tableDriver.Stores where
  numtcs_tc _ _ _ _ := rfl
  numtcs_bw _ _ _ _ := rfl
  tc_same _ _ _ _ := if_pos ⟨rfl, rfl⟩
  tc_other _ _ _ _ _ _ hne := if_neg fun h => hne h.2.symm
  tc_bw _ _ _ _ _ _ := rfl
  bw_same _ _ _ _ := if_pos ⟨rfl, rfl⟩
  bw_other _ _ _ _ _ _ hne := if_neg fun h => hne h.2.symm

/-! ## Entries -/

variable {m : DcbMap} {linpg pg : DcbPg} {vmkpg cfg : DcbPriorityGroup} {n : BitVec 8} {i : Nat}

theorem DcbMap.get_of_lt (m : DcbMap) (hi : i < dcbMaxCount) : m.get i = .ok (m ⟨i, hi⟩) :=
  dif_pos hi

theorem DcbMap.set_of_lt (m : DcbMap) (hi : i < dcbMaxCount) (v : BitVec 8) :
    m.set i v = .ok (Function.update m ⟨i, hi⟩ v) :=
  dif_pos hi

theorem DcbMap.get_outside (m : DcbMap) (hi : ¬i < dcbMaxCount) : m.get i = .error .outOfRange :=
  dif_neg hi

theorem getLsbD_or_bit (v : BitVec 8) (up j : Fin dcbMaxCount) :
    (v ||| 1#8 <<< up.val).getLsbD j = (v.getLsbD j || decide (j = up)) := by
  have hbit : ∀ up j : Fin dcbMaxCount, (1#8 <<< up.val).getLsbD j = decide (j = up) := by decide
  rw [BitVec.getLsbD_or, hbit]

theorem and_bit_ne_zero_iff (v : BitVec 8) (j : Fin dcbMaxCount) :
    v &&& 1#8 <<< j.val ≠ 0 ↔ v.getLsbD j = true := by
  have hbit : ∀ up j : Fin dcbMaxCount, (1#8 <<< up.val).getLsbD j = decide (j = up) := by decide
  constructor
  -- with the bit clear there is nothing in common
  · intro hne
    by_contra hclear
    refine hne (BitVec.eq_of_getLsbD_eq fun i hi => ?_)
    rw [BitVec.getLsbD_and, hbit j ⟨i, hi⟩]
    by_cases hij : (⟨i, hi⟩ : Fin dcbMaxCount) = j
    · rw [← hij] at hclear
      simpa using fun h => absurd h hclear
    · simp [hij]
  · intro hset hzero
    have hand := congrArg (fun w : BitVec 8 => w.getLsbD j) hzero
    simp only [BitVec.getLsbD_and, hset, hbit, decide_true, Bool.and_true] at hand
    simp at hand

/-! ## Priorities to classes -/

def DcbPriorityGroup.target (cfg : DcbPriorityGroup) (n : BitVec 8) (up : Fin dcbMaxCount) : Nat :=
  if n ≤ cfg.upToPgIDMap up then 0 else (cfg.upToPgIDMap up).toNat

theorem target_lt_max (cfg : DcbPriorityGroup) (n : BitVec 8) (up : Fin dcbMaxCount) :
    cfg.target n up < max n.toNat 1 := by
  unfold DcbPriorityGroup.target
  split
  · omega
  · next hless =>
    have hlt := BitVec.lt_def.mp (BitVec.not_le.mp hless)
    omega

theorem target_lt (hn : n.toNat ≤ dcbMaxCount) (up : Fin dcbMaxCount) :
    cfg.target n up < dcbMaxCount := by
  have hlt := target_lt_max cfg n up
  have hcount : dcbMaxCount = 8 := rfl
  omega

open DcbMap

theorem mapPriority_eq (up : Fin dcbMaxCount) (hlt : cfg.target linpg.numTcs up < dcbMaxCount) :
    mapPriority cfg linpg up = .ok { linpg with
      tcToUpMap := Function.update linpg.tcToUpMap ⟨_, hlt⟩
        (linpg.tcToUpMap ⟨_, hlt⟩ ||| 1#8 <<< up.val) } := by
  -- both branches add the priority, to the class that it gets
  have hadd : mapPriority cfg linpg up = linpg.addPriority (cfg.target linpg.numTcs up) up := by
    unfold mapPriority DcbPriorityGroup.target
    split <;> rfl
  rw [hadd, DcbPg.addPriority, get_of_lt _ hlt, ok_bind, set_of_lt _ hlt]
  rfl

/-- After the priorities up to those in `l`: what the loop leaves alone, and the bits so far. -/
structure Mapped (cfg : DcbPriorityGroup) (n : BitVec 8) (l : List (Fin dcbMaxCount))
    (linpg : DcbPg) : Prop where
  numTcs : linpg.numTcs = n
  pgBwPercent : linpg.pgBwPercent = cfg.pgBwPercent
  tcToPgidMap : linpg.tcToPgidMap = fun tc => BitVec.ofNat 8 tc.val
  sound : ∀ tc up : Fin dcbMaxCount, (linpg.tcToUpMap tc).getLsbD up = true →
    cfg.target n up = tc.val
  complete : ∀ tc up : Fin dcbMaxCount, up ∉ l → cfg.target n up = tc.val →
    (linpg.tcToUpMap tc).getLsbD up = true

theorem Mapped.step (hn : n.toNat ≤ dcbMaxCount) {up : Fin dcbMaxCount}
    {l : List (Fin dcbMaxCount)} (h : Mapped cfg n (up :: l) linpg) :
    ∃ t, mapPriority cfg linpg up = .ok t ∧ Mapped cfg n l t := by
  have hlt : cfg.target linpg.numTcs up < dcbMaxCount := by
    rw [h.numTcs]
    exact target_lt hn up
  refine ⟨_, mapPriority_eq up hlt, h.numTcs, h.pgBwPercent, h.tcToPgidMap, ?_, ?_⟩
  · intro tc j hbit
    dsimp only at hbit
    -- a bit of the class that is changed is an old one, or the new one
    by_cases htc : tc = ⟨_, hlt⟩
    · rw [htc, Function.update_self, getLsbD_or_bit, Bool.or_eq_true, decide_eq_true_eq] at hbit
      rcases hbit with hold | rfl
      · rw [htc]
        exact h.sound _ j hold
      · rw [htc]
        exact congrArg (fun n => cfg.target n j) h.numTcs.symm
    · rw [Function.update_of_ne htc] at hbit
      exact h.sound tc j hbit
  · intro tc j hj htarget
    dsimp only
    by_cases htc : tc = ⟨_, hlt⟩
    · rw [htc, Function.update_self, getLsbD_or_bit, Bool.or_eq_true, decide_eq_true_eq]
      by_cases hup : j = up
      · exact .inr hup
      · refine .inl (h.complete _ j (fun hmem => ?_) (htc ▸ htarget))
        exact (List.mem_cons.mp hmem).elim hup hj
    · -- the bit of `up` went elsewhere
      rw [Function.update_of_ne htc]
      refine h.complete tc j (fun hmem => (List.mem_cons.mp hmem).elim ?_ hj) htarget
      rintro rfl
      refine htc (Fin.ext ?_)
      rw [← htarget]
      exact congrArg (fun n => cfg.target n j) h.numTcs.symm

theorem vmkpgToLinpg_spec (cfg : DcbPriorityGroup) (hn : n.toNat ≤ dcbMaxCount) :
    ∃ linpg, vmkpgToLinpg cfg { numTcs := n } = .ok linpg ∧ Mapped cfg n [] linpg := by
  have hstart : Mapped cfg n (List.finRange dcbMaxCount)
      { numTcs := n, pgBwPercent := cfg.pgBwPercent,
        tcToPgidMap := fun tc => BitVec.ofNat 8 tc.val } := by
    refine ⟨rfl, rfl, rfl, ?_, fun _ up hup => absurd (List.mem_finRange up) hup⟩
    intro tc up hbit
    simp at hbit
  obtain ⟨t, ht, hmapped⟩ := foldlM_total (I := Mapped cfg n) (fun _ _ _ h => h.step hn) hstart
  refine ⟨{ t with tcToLinkPrioType := fun _ => 0xff, tcSubPgBwPercent := fun _ => 100 }, ?_,
    ⟨hmapped.numTcs, hmapped.pgBwPercent, hmapped.tcToPgidMap, hmapped.sound, hmapped.complete⟩⟩
  rw [vmkpgToLinpg]
  rw [ht]
  rfl

theorem Mapped.getLsbD_iff (h : Mapped cfg n [] linpg) (hn : n.toNat ≤ dcbMaxCount)
    (i up : Fin dcbMaxCount) :
    (linpg.tcToUpMap i).getLsbD up = true ↔ i = ⟨cfg.target n up, target_lt hn up⟩ := by
  constructor
  · intro hbit
    exact Fin.ext (h.sound i up hbit).symm
  · intro hi
    exact h.complete i up List.not_mem_nil (congrArg Fin.val hi).symm

/-! ## Classes to priorities -/

theorem pgPriorities_apply (linpg : DcbPg) (m : DcbMap) (i up : Fin dcbMaxCount) :
    pgPriorities linpg m i up =
      if (linpg.tcToUpMap i).getLsbD up = true then linpg.tcToPgidMap i else m up := by
  have hloop (l : List (Fin dcbMaxCount)) (m : DcbMap) :
      l.foldl (fun up j =>
        if linpg.tcToUpMap i &&& 1#8 <<< j.val ≠ 0 then Function.update up j (linpg.tcToPgidMap i)
        else up) m up =
      if (linpg.tcToUpMap i).getLsbD up = true ∧ up ∈ l then linpg.tcToPgidMap i else m up := by
    -- the bits from `j` on, over what the others have set
    induction l generalizing m with
    | nil => simp
    | cons j l ih =>
      rw [List.foldl_cons, ih]
      by_cases hj : up = j
      · subst hj
        rw [if_congr (and_bit_ne_zero_iff (linpg.tcToUpMap i) up) rfl rfl]
        by_cases hbit : (linpg.tcToUpMap i).getLsbD up = true
        · simp [hbit]
        · rw [if_neg fun h => hbit h.1, if_neg hbit, if_neg fun h => hbit h.1]
      · have hupdate : (if linpg.tcToUpMap i &&& 1#8 <<< j.val ≠ 0 then
            Function.update m j (linpg.tcToPgidMap i) else m) up = m up := by
          split
          · exact Function.update_of_ne hj ..
          · rfl
        rw [hupdate]
        simp [List.mem_cons, hj]
  unfold pgPriorities
  by_cases hzero : linpg.tcToUpMap i = 0
  · rw [if_neg (not_not_intro hzero), hzero]
    simp
  · rw [if_pos hzero, hloop]
    simp

theorem linpgToVmkpg_up (buf : DcbPriorityGroup) {up c : Fin dcbMaxCount}
    (hone : ∀ i, (linpg.tcToUpMap i).getLsbD up = true ↔ i = c) :
    (linpgToVmkpg linpg buf).upToPgIDMap up = linpg.tcToPgidMap c := by
  have hloop (l : List (Fin dcbMaxCount)) (m : DcbMap) :
      l.foldl (pgPriorities linpg) m up = if c ∈ l then linpg.tcToPgidMap c else m up := by
    -- no other class touches the priority
    induction l generalizing m with
    | nil => simp
    | cons i l ih =>
      rw [List.foldl_cons, ih, pgPriorities_apply, if_congr (hone i) rfl rfl]
      by_cases hi : i = c
      · subst hi
        simp
      · rw [if_neg hi]
        simp [List.mem_cons, Ne.symm hi]
  show (List.finRange dcbMaxCount).foldl (pgPriorities linpg) buf.upToPgIDMap up = _
  rw [hloop, if_pos (List.mem_finRange c)]

/-! ## Pushing and pulling -/

namespace DcbDriver

variable {σ : Type} {drv : DcbDriver σ} {s t : σ} {tc : Nat} {u : σ}

def tcAt (pg : DcbPg) (tc : Fin dcbMaxCount) : DcbTcCfg :=
  ⟨pg.tcToLinkPrioType tc, pg.tcToPgidMap tc, pg.tcSubPgBwPercent tc, pg.tcToUpMap tc⟩

theorem readTc_of_lt (pg : DcbPg) (h : tc < dcbMaxCount) :
    readTc pg tc = .ok (tcAt pg ⟨tc, h⟩) := by
  rw [readTc, get_of_lt _ h, get_of_lt _ h, get_of_lt _ h, get_of_lt _ h]
  rfl

theorem readTc_outside (pg : DcbPg) (h : ¬tc < dcbMaxCount) :
    readTc pg tc = .error .outOfRange := by
  rw [readTc, get_outside _ h]
  rfl

def withTc (pg : DcbPg) (tc : Fin dcbMaxCount) (c : DcbTcCfg) : DcbPg :=
  { pg with
    tcToLinkPrioType := Function.update pg.tcToLinkPrioType tc c.prioType
    tcToPgidMap := Function.update pg.tcToPgidMap tc c.pgid
    tcSubPgBwPercent := Function.update pg.tcSubPgBwPercent tc c.bwPct
    tcToUpMap := Function.update pg.tcToUpMap tc c.upMap }

theorem tcAt_withTc (pg : DcbPg) (tc i : Fin dcbMaxCount) (c : DcbTcCfg) :
    tcAt (withTc pg i c) tc = if tc = i then c else tcAt pg tc := by
  simp only [tcAt, withTc, Function.update_apply]
  split <;> rfl

theorem writeTc_of_lt (pg : DcbPg) (h : tc < dcbMaxCount) (c : DcbTcCfg) :
    writeTc pg tc c = .ok (withTc pg ⟨tc, h⟩ c) := by
  rw [writeTc, set_of_lt _ h, set_of_lt _ h, set_of_lt _ h, set_of_lt _ h]
  rfl

theorem pushTc_of_lt (linpg : DcbPg) (s : σ) (h : tc < dcbMaxCount) :
    drv.pushTc linpg s tc = .ok (drv.setpgtccfg .rx
      (drv.setpgtccfg .tx s tc (tcAt linpg ⟨tc, h⟩)) tc (tcAt linpg ⟨tc, h⟩)) := by
  rw [pushTc, readTc_of_lt _ h]
  rfl

theorem pushBw_of_lt (linpg : DcbPg) (s : σ) (h : tc < dcbMaxCount) :
    drv.pushBw linpg s tc = .ok (drv.setpgbwgcfg .rx
      (drv.setpgbwgcfg .tx s tc (linpg.pgBwPercent ⟨tc, h⟩)) tc (linpg.pgBwPercent ⟨tc, h⟩)) := by
  rw [pushBw, get_of_lt _ h]
  rfl

theorem setPriorityGroup_ok (hset : drv.setOps = true) (hs : drv.getnumtcs s = some n)
    (hn : n.toNat ≤ dcbMaxCount) (cfg : DcbPriorityGroup) :
    ∃ linpg t u, vmkpgToLinpg cfg { numTcs := n } = .ok linpg ∧ Mapped cfg n [] linpg ∧
      (List.range n.toNat).foldlM (drv.pushTc linpg) s = .ok t ∧
      (List.range n.toNat).foldlM (drv.pushBw linpg) t = .ok u ∧
      drv.setPriorityGroup s cfg = .ok (.ok, u) := by
  obtain ⟨linpg, hlinpg, hmapped⟩ := vmkpgToLinpg_spec cfg hn
  obtain ⟨t, ht, -⟩ := foldlM_range (f := drv.pushTc linpg) (P := fun _ _ => True) (s := s) trivial
    fun i hi s _ => ⟨_, pushTc_of_lt linpg s (hi.trans_le hn), trivial⟩
  obtain ⟨u, hu, -⟩ := foldlM_range (f := drv.pushBw linpg) (P := fun _ _ => True) (s := t) trivial
    fun i hi s _ => ⟨_, pushBw_of_lt linpg s (hi.trans_le hn), trivial⟩
  refine ⟨linpg, t, u, hlinpg, hmapped, ht, hu, ?_⟩
  rw [setPriorityGroup, if_neg (by rw [hset]; exact Bool.false_ne_true.symm), hs]
  dsimp only
  rw [hlinpg, ok_bind, ht, ok_bind, hu]
  rfl

theorem pushTc_loop (hstores : drv.Stores) (hs : drv.getnumtcs s = some n)
    (hn : n.toNat ≤ dcbMaxCount) (linpg : DcbPg)
    (ht : (List.range n.toNat).foldlM (drv.pushTc linpg) s = .ok t) :
    drv.getnumtcs t = some n ∧ ∀ tc (h : tc < dcbMaxCount), tc < n.toNat → ∀ old,
      drv.getpgtccfg .rx t tc old = tcAt linpg ⟨tc, h⟩ := by
  refine foldlM_range_of_ok (P := fun k u => drv.getnumtcs u = some n ∧
    ∀ tc (h : tc < dcbMaxCount), tc < k → ∀ old,
      drv.getpgtccfg .rx u tc old = tcAt linpg ⟨tc, h⟩) ht
    ⟨hs, fun _ _ h => absurd h (Nat.not_lt_zero _)⟩ ?_
  rintro i hi u u' ⟨hnum, htc⟩ hpush
  rw [pushTc_of_lt linpg u (hi.trans_le hn)] at hpush
  cases hpush
  constructor
  · rw [hstores.numtcs_tc, hstores.numtcs_tc, hnum]
  · intro tc h hle old
    -- the two calls for a class change nothing of the classes before it
    rcases Nat.lt_succ_iff_lt_or_eq.mp hle with hless | rfl
    · rw [hstores.tc_other _ _ _ _ _ _ (Nat.ne_of_gt hless),
        hstores.tc_other _ _ _ _ _ _ (Nat.ne_of_gt hless)]
      exact htc tc h hless old
    · exact hstores.tc_same ..

theorem pushBw_loop (hstores : drv.Stores) (hn : n.toNat ≤ dcbMaxCount) (linpg : DcbPg)
    (hu : (List.range n.toNat).foldlM (drv.pushBw linpg) t = .ok u) :
    drv.getnumtcs u = drv.getnumtcs t ∧
      (∀ tc old, drv.getpgtccfg .rx u tc old = drv.getpgtccfg .rx t tc old) ∧
      ∀ pg (h : pg < dcbMaxCount), pg < n.toNat → ∀ old,
        drv.getpgbwgcfg .rx u pg old = linpg.pgBwPercent ⟨pg, h⟩ := by
  refine foldlM_range_of_ok (P := fun k v => drv.getnumtcs v = drv.getnumtcs t ∧
    (∀ tc old, drv.getpgtccfg .rx v tc old = drv.getpgtccfg .rx t tc old) ∧
    ∀ pg (h : pg < dcbMaxCount), pg < k → ∀ old,
      drv.getpgbwgcfg .rx v pg old = linpg.pgBwPercent ⟨pg, h⟩) hu
    ⟨rfl, fun _ _ => rfl, fun _ _ h => absurd h (Nat.not_lt_zero _)⟩ ?_
  rintro i hi v v' ⟨hnum, htc, hbw⟩ hpush
  rw [pushBw_of_lt linpg v (hi.trans_le hn)] at hpush
  cases hpush
  refine ⟨?_, fun tc old => ?_, fun pg h hle old => ?_⟩
  · rw [hstores.numtcs_bw, hstores.numtcs_bw, hnum]
  · -- bandwidths change nothing of the classes
    rw [hstores.tc_bw, hstores.tc_bw, htc]
  · rcases Nat.lt_succ_iff_lt_or_eq.mp hle with hless | rfl
    · rw [hstores.bw_other _ _ _ _ _ _ (Nat.ne_of_gt hless),
        hstores.bw_other _ _ _ _ _ _ (Nat.ne_of_gt hless)]
      exact hbw pg h hless old
    · exact hstores.bw_same ..

theorem pullTc_of_lt (s : σ) (pg : DcbPg) (h : tc < dcbMaxCount) :
    drv.pullTc s pg tc = .ok (withTc pg ⟨tc, h⟩
      (drv.getpgtccfg .rx s tc (drv.getpgtccfg .tx s tc (tcAt pg ⟨tc, h⟩)))) := by
  rw [pullTc, readTc_of_lt _ h, ok_bind, writeTc_of_lt _ h]

theorem pullBw_of_lt (s : σ) (pg : DcbPg) (h : tc < dcbMaxCount) :
    drv.pullBw s pg tc = .ok { pg with
      pgBwPercent := Function.update pg.pgBwPercent ⟨tc, h⟩
        (drv.getpgbwgcfg .rx s tc (drv.getpgbwgcfg .tx s tc (pg.pgBwPercent ⟨tc, h⟩))) } := by
  rw [pullBw, get_of_lt _ h, ok_bind, set_of_lt _ h]
  rfl

theorem pullTc_loop (hn : n.toNat ≤ dcbMaxCount) (src : DcbPg)
    (hsrc : ∀ tc (h : tc < dcbMaxCount), tc < n.toNat → ∀ old,
      drv.getpgtccfg .rx u tc old = tcAt src ⟨tc, h⟩) :
    ∃ pg, (List.range n.toNat).foldlM (drv.pullTc u) { numTcs := n } = .ok pg ∧
      pg.pgBwPercent = (fun _ => 0) ∧ ∀ tc : Fin dcbMaxCount, tcAt pg tc =
        if tc.val < n.toNat then tcAt src tc else ⟨0, 0, 0, 0⟩ := by
  have hstart : ∀ tc : Fin dcbMaxCount, tcAt { numTcs := n } tc =
      if tc.val < 0 then tcAt src tc else ⟨0, 0, 0, 0⟩ := by
    intro tc
    rw [if_neg (Nat.not_lt_zero _)]
    rfl
  refine foldlM_range (P := fun k pg => pg.pgBwPercent = (fun _ => 0) ∧
    ∀ tc : Fin dcbMaxCount, tcAt pg tc = if tc.val < k then tcAt src tc else ⟨0, 0, 0, 0⟩)
    ⟨rfl, hstart⟩ ?_
  rintro i hi pg ⟨hbw, htc⟩
  have hlt := hi.trans_le hn
  refine ⟨withTc pg ⟨i, hlt⟩ (tcAt src ⟨i, hlt⟩), ?_, hbw, fun tc => ?_⟩
  · rw [pullTc_of_lt u pg hlt, hsrc i hlt hi]
  · rw [tcAt_withTc, htc]
    -- the class itself is read back, the others are as before
    by_cases hself : tc = ⟨i, hlt⟩
    · subst hself
      rw [if_pos rfl, if_pos (Nat.lt_succ_self i)]
    · rw [if_neg hself]
      have hne : tc.val ≠ i := fun h => hself (Fin.ext h)
      exact if_congr (by omega) rfl rfl

theorem pullBw_loop (hn : n.toNat ≤ dcbMaxCount) (src : DcbMap)
    (hsrc : ∀ g (h : g < dcbMaxCount), g < n.toNat → ∀ old,
      drv.getpgbwgcfg .rx u g old = src ⟨g, h⟩) (hpg : pg.pgBwPercent = fun _ => 0) :
    ∃ map, (List.range n.toNat).foldlM (drv.pullBw u) pg = .ok { pg with pgBwPercent := map } ∧
      ∀ g : Fin dcbMaxCount, map g = if g.val < n.toNat then src g else 0 := by
  obtain ⟨t, ht, ⟨map, rfl⟩, hmap⟩ := foldlM_range (f := drv.pullBw u) (s := pg) (n := n.toNat)
    (P := fun k t => (∃ map, t = { pg with pgBwPercent := map }) ∧
      ∀ g : Fin dcbMaxCount, t.pgBwPercent g = if g.val < k then src g else 0)
    ⟨⟨_, rfl⟩, fun g => by rw [hpg, if_neg (Nat.not_lt_zero _)]⟩ (by
      rintro i hi t ⟨⟨map, rfl⟩, hmap⟩
      have hlt := hi.trans_le hn
      refine ⟨{ pg with pgBwPercent := Function.update map ⟨i, hlt⟩ (src ⟨i, hlt⟩) }, ?_,
        ⟨_, rfl⟩, fun g => ?_⟩
      · rw [pullBw_of_lt u _ hlt, hsrc i hlt hi]
      · dsimp only
        by_cases hself : g = ⟨i, hlt⟩
        · subst hself
          rw [Function.update_self, if_pos (Nat.lt_succ_self i)]
        · rw [Function.update_of_ne hself]
          have hne : g.val ≠ i := fun h => hself (Fin.ext h)
          exact (hmap g).trans (if_congr (by omega) rfl rfl))
  exact ⟨map, ht, hmap⟩

theorem getPriorityGroup_eq (hget : drv.getOps = true) (hs : drv.getnumtcs s = some n) {pg' : DcbPg}
    (htc : (List.range n.toNat).foldlM (drv.pullTc s) { numTcs := n } = .ok pg) 
    (hbw : (List.range n.toNat).foldlM (drv.pullBw s) pg = .ok pg') (buf : DcbPriorityGroup) :
    drv.getPriorityGroup s buf = .ok (.ok, linpgToVmkpg pg' buf) := by
  rw [getPriorityGroup, if_neg (by rw [hget]; exact Bool.false_ne_true.symm), hs]
  dsimp only
  rw [htc, ok_bind, hbw]
  rfl

theorem getPriorityGroup_ok (hget : drv.getOps = true) (hs : drv.getnumtcs s = some n)
    (hn : n.toNat ≤ dcbMaxCount) (buf : DcbPriorityGroup) :
    ∃ r, drv.getPriorityGroup s buf = .ok r := by
  obtain ⟨pg, hpg, -⟩ := foldlM_range (f := drv.pullTc s) (P := fun _ _ => True)
    (s := { numTcs := n }) (n := n.toNat) trivial
    fun i hi pg _ => ⟨_, pullTc_of_lt s pg (hi.trans_le hn), trivial⟩
  obtain ⟨pg', hpg', -⟩ := foldlM_range (f := drv.pullBw s) (P := fun _ _ => True)
    (s := pg) (n := n.toNat) trivial
    fun i hi pg _ => ⟨_, pullBw_of_lt s pg (hi.trans_le hn), trivial⟩
  exact ⟨_, getPriorityGroup_eq hget hs hpg hpg' buf⟩

theorem getPriorityGroup_outside (hget : drv.getOps = true) (hs : drv.getnumtcs s = some n)
    (hn : dcbMaxCount < n.toNat) (buf : DcbPriorityGroup)
    (r : DcbReturn × DcbPriorityGroup) : drv.getPriorityGroup s buf ≠ .ok r := by
  rw [getPriorityGroup, if_neg (by rw [hget]; exact Bool.false_ne_true.symm), hs]
  intro hok
  obtain ⟨pg, hpg, -⟩ := bind_eq_ok.mp hok
  -- the turn for class 8 fails at its first map
  refine foldlM_range_ne_ok hn (fun t u hu => ?_) _ _ hpg
  rw [pullTc, readTc_outside _ (lt_irrefl _), error_bind] at hu
  cases hu

theorem linpgToVmkpg_pulled (hmapped : Mapped cfg n [] linpg) (hn : n.toNat ≤ dcbMaxCount)
    (hgroups : ∀ up, (cfg.upToPgIDMap up).toNat < n.toNat)
    (htc : ∀ tc : Fin dcbMaxCount, tcAt pg tc =
      if tc.val < n.toNat then tcAt linpg tc else ⟨0, 0, 0, 0⟩) (buf : DcbPriorityGroup) :
    (linpgToVmkpg pg buf).upToPgIDMap = cfg.upToPgIDMap := by
  funext up
  have htarget : cfg.target n up = (cfg.upToPgIDMap up).toNat := by
    rw [DcbPriorityGroup.target, if_neg]
    exact BitVec.not_le.mpr (BitVec.lt_def.mpr (hgroups up))
  have hbelow : cfg.target n up < n.toNat := htarget.trans_lt (hgroups up)
  -- a class from `n` on has no priority
  have hone : ∀ i, (pg.tcToUpMap i).getLsbD up = true ↔
      i = ⟨cfg.target n up, target_lt hn up⟩ := by
    intro i
    have hmaps : pg.tcToUpMap i = if i.val < n.toNat then linpg.tcToUpMap i else 0 := by
      refine (congrArg DcbTcCfg.upMap (htc i)).trans ?_
      split <;> rfl
    rw [hmaps]
    split
    · exact hmapped.getLsbD_iff hn i up
    · next hout =>
      refine iff_of_false (by simp) ?_
      rintro rfl
      exact hout hbelow
  have hpgid : pg.tcToPgidMap ⟨cfg.target n up, target_lt hn up⟩ =
      linpg.tcToPgidMap ⟨cfg.target n up, target_lt hn up⟩ := by
    refine (congrArg DcbTcCfg.pgid (htc _)).trans ?_
    rw [if_pos hbelow]
    rfl
  rw [linpgToVmkpg_up buf hone, hpgid, hmapped.tcToPgidMap]
  dsimp only
  rw [htarget, BitVec.ofNat_toNat, BitVec.setWidth_eq]

theorem round_trip (hset : drv.setOps = true) (hget : drv.getOps = true)
    (hs : drv.getnumtcs s = some n) (hn : n.toNat ≤ dcbMaxCount) (hstores : drv.Stores)
    (hgroups : ∀ up, (cfg.upToPgIDMap up).toNat < n.toNat)
    (hbw : ∀ pg : Fin dcbMaxCount, n.toNat ≤ pg → cfg.pgBwPercent pg = 0)
    (buf : DcbPriorityGroup) :
    ∃ t, drv.setPriorityGroup s cfg = .ok (.ok, t) ∧
      drv.getPriorityGroup t buf = .ok (.ok, cfg) := by
  obtain ⟨linpg, t, u, -, hmapped, ht, hu, hok⟩ := setPriorityGroup_ok hset hs hn cfg
  obtain ⟨hnum, htcs⟩ := pushTc_loop hstores hs hn linpg ht
  obtain ⟨hnumBw, htcsBw, hbws⟩ := pushBw_loop hstores hn linpg hu
  obtain ⟨pg, hpg, hzero, htc⟩ := pullTc_loop hn linpg
    fun tc h hlt old => (htcsBw tc old).trans (htcs tc h hlt old)
  obtain ⟨map, hpg', hmap⟩ := pullBw_loop hn linpg.pgBwPercent hbws hzero
  refine ⟨u, hok, ?_⟩
  rw [getPriorityGroup_eq hget (hnumBw.trans hnum) hpg hpg' buf]
  -- the groups that nobody asks for have no bandwidth on either side
  have hbwEq : map = cfg.pgBwPercent := by
    funext g
    rw [hmap, hmapped.pgBwPercent]
    split
    · rfl
    · next hout => exact (hbw g (Nat.le_of_not_lt hout)).symm
  have hupEq : (linpgToVmkpg { pg with pgBwPercent := map } buf).upToPgIDMap = cfg.upToPgIDMap :=
    linpgToVmkpg_pulled hmapped hn hgroups htc buf
  rw [show linpgToVmkpg { pg with pgBwPercent := map } buf = cfg from
    congrArg₂ DcbPriorityGroup.mk hbwEq hupEq]

/-- **Priority groups survive exactly for a driver that reports at most eight classes.** -/
theorem dcb_right_iff (hset : drv.setOps = true) (hget : drv.getOps = true)
    (hs : drv.getnumtcs s = some n) (cfg : DcbPriorityGroup) :
    drv.Right s n cfg ↔ n.toNat ≤ dcbMaxCount := by
  constructor
  · intro hright
    -- with more classes there is no result, and so no way to be inside
    by_contra hmany
    obtain ⟨r, hr⟩ := hright.get_inside cfg
    exact getPriorityGroup_outside hget hs (Nat.lt_of_not_le hmany) cfg r hr
  · intro hn
    obtain ⟨linpg, -, u, hlinpg, hmapped, -, -, hok⟩ := setPriorityGroup_ok hset hs hn cfg
    exact {
      set_inside := ⟨_, hok⟩
      get_inside := getPriorityGroup_ok hget hs hn
      one_class := ⟨linpg, hlinpg, fun up =>
        ⟨⟨_, target_lt hn up⟩, target_lt_max cfg n up, fun i => hmapped.getLsbD_iff hn i up⟩⟩
      round_trip := round_trip hset hget hs hn }

/-- Eight classes, and a group for each priority. -/
theorem dcb_right_eight : tableDriver.Stores ∧
    tableDriver.Right { numTcs := 8 } 8
      { pgBwPercent := fun pg => if pg = 0 then 100 else 0
        upToPgIDMap := fun up => BitVec.ofNat 8 up } :=
  ⟨tableDriver_stores, (dcb_right_iff rfl rfl rfl _).mpr (by decide)⟩

/-- Nine classes: the ninth entry is asked for, and a priority of group 8 has no bitmap. -/
theorem dcb_wrong_nine :
    tableDriver.getPriorityGroup { numTcs := 9 } ⟨fun _ => 0, fun _ => 0⟩ = .error .outOfRange ∧
      tableDriver.setPriorityGroup { numTcs := 9 } ⟨fun _ => 0, fun _ => 0⟩ = .error .outOfRange ∧
      vmkpgToLinpg ⟨fun _ => 0, fun _ => 8⟩ { numTcs := 9 } = .error .outOfRange ∧
      ¬tableDriver.Right { numTcs := 9 } 9 ⟨fun _ => 0, fun _ => 0⟩ := by
  have hget : tableDriver.getPriorityGroup { numTcs := 9 } ⟨fun _ => 0, fun _ => 0⟩ =
      .error .outOfRange := rfl
  refine ⟨hget, rfl, rfl, fun hright => ?_⟩
  obtain ⟨r, hr⟩ := hright.get_inside ⟨fun _ => 0, fun _ => 0⟩
  rw [hget] at hr
  cases hr

end DcbDriver

end VmkDrivers.Vmklinux
