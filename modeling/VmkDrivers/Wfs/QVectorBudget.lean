/-
  VmkDrivers.Wfs.QVectorBudget

  The interrupt vectors a port asks for, and the rings they are made for.

  `ixgbe_set_num_queues` keeps the queues within the arrays
  (`countsFit_ixgbeSetNumQueues`), and `ixgbe_set_interrupt_capability` the
  vectors (`vectorsFit_ixgbeSetInterruptCapability`).  So what is left to ask of
  `ixgbe_alloc_q_vectors` is memory, and vectors for the queues that are not
  FCoE's (`q_vectors_iff`).
-/

import VmkDrivers.Wfs.QVectorDeal

namespace VmkDrivers.Wfs

open VmkDrivers.Lib

namespace QueueAdapter

variable {a : QueueAdapter}

/-! ## Queue counts -/

/-- What the module parameters leave in an adapter, and the CPUs and traffic classes there are. -/
structure ParamsFit (cpus numTc : Nat) (a : QueueAdapter) : Prop where
  cpus : 0 < cpus ∧ cpus < 2 ^ 16
  classes : numTc ≤ 8
  rss : 0 < a.rssLimit ∧ a.rssLimit ≤ 16
  fdir : a.atrSampleRate ≠ 0 → 0 < a.fdirLimit ∧ a.fdirLimit ≤ 64
  vmdq : a.vmdqEnabled = true → 0 < a.vmdqLimit
  pools : a.vmdqLimit ≤ 16
  vfs : a.vmdqOffset ≤ 63
  /-- With virtual functions there are no traffic classes. -/
  sriov : 1 < numTc → a.vmdqOffset = 0
  fcoe : a.fcoeLimit ≤ 8
  cna : a.cnaEnabled = true → a.fcoeEnabled = true
  /-- There is no FCoE beside RSS. -/
  fcoeRss : a.fcoeEnabled = true → a.rssLimit = 1

variable {cpus numTc : Nat} {mtu : Int32}

theorem jumboPools_fit {limit : Nat} (mtu : Int32) (hpos : 0 < limit) (hle : limit ≤ 16) :
    0 < jumboPools mtu limit ∧ jumboPools mtu limit ≤ 16 := by
  unfold jumboPools
  split <;> omega

theorem countsFit_of_eq {n : Nat} (hpos : 0 < n) (hle : n ≤ maxTxQueues)
    (hfcoe : a.cnaEnabled = true → a.fcoeIndices ≤ n) (htx : a.numTxQueues = n)
    (hrx : a.numRxQueues = n) : a.CountsFit := by
  have hboth (kind : RingKind) : a.numQueues kind = n := by
    cases kind with
    | tx => exact htx
    | rx => exact hrx
  constructor
  · intro kind
    rw [hboth]
    exact hpos
  · intro kind
    rw [hboth]
    exact hle
  · intro hcna kind
    rw [hboth]
    exact hfcoe hcna

theorem countsFit_of_lt {tx rx f : Nat} (htx : 0 < tx ∧ tx ≤ 16) (hrx : 0 < rx ∧ rx ≤ 20)
    (hf : f ≤ 8) (hfcoe : a.cnaEnabled = true → a.fcoeIndices ≤ f + 1)
    (htx' : a.numTxQueues = tx + f) (hrx' : a.numRxQueues = rx + f) : a.CountsFit := by
  constructor
  · intro kind
    cases kind with
    | tx =>
      change 0 < a.numTxQueues
      omega
    | rx =>
      change 0 < a.numRxQueues
      omega
  · intro kind
    cases kind with
    | tx =>
      change a.numTxQueues ≤ 71
      omega
    | rx =>
      change a.numRxQueues ≤ 71
      omega
  · intro hcna kind
    have hle := hfcoe hcna
    cases kind with
    | tx =>
      change _ ≤ a.numTxQueues
      omega
    | rx =>
      change _ ≤ a.numRxQueues
      omega

theorem countsFit_dcbVmdq {b : QueueAdapter} (h : a.ParamsFit cpus numTc)
    (hb : a.ixgbeSetDcbVmdqQueues mtu numTc = some b) : b.CountsFit := by
  unfold ixgbeSetDcbVmdqQueues at hb
  split at hb
  · cases hb
  next hon =>
  rw [not_or, Nat.not_le, Bool.not_eq_true'] at hon
  rw [Bool.not_eq_false] at hon
  obtain ⟨hpos, hle⟩ := jumboPools_fit mtu (h.vmdq hon.2) h.pools
  obtain ⟨pools, fcoe, hpools, hpos', hle'⟩ : ∃ pools fcoe, dcbVmdqPools mtu a = (pools, fcoe) ∧
      0 < pools ∧ pools ≤ 32 := by
    unfold dcbVmdqPools minU16 subU16 u16
    rw [h.sriov hon.1]
    cases a.macType <;> exact ⟨_, _, rfl, by omega, by omega⟩
  rw [hpools] at hb
  dsimp only at hb
  have hfcoe : minU16 fcoe a.fcoeLimit ≤ 8 := by
    have hlimit := h.fcoe
    unfold minU16 u16
    omega
  split at hb
  · next hnone =>
    cases hb
    refine countsFit_of_eq hpos' (hle'.trans (by decide)) ?_ rfl rfl
    intro hcna
    rw [h.cna hcna] at hnone
    cases hnone
  · split at hb
    · cases hb
      refine countsFit_of_eq (n := pools + minU16 fcoe a.fcoeLimit) (by omega) ?_
        (fun _ => Nat.le_add_left ..) rfl rfl
      unfold maxTxQueues
      omega
    · cases hb
      exact countsFit_of_eq hpos' (hle'.trans (by decide)) (fun _ => Nat.zero_le _) rfl rfl

theorem countsFit_classes {rss : Nat} {b : QueueAdapter} (h : a.ParamsFit cpus numTc)
    (hmany : 1 < numTc)
    (hb : { if a.fcoeEnabled then { a with fcoeIndices := minU16 rss a.fcoeLimit } else a with
      numTxQueues := rss * numTc, numRxQueues := rss * numTc } = b)
    (hbound : 0 < rss ∧ (rss ≤ 8 ∨ rss ≤ 16 ∧ numTc ≤ 4)) : b.CountsFit := by
  have hclasses := h.classes
  have hle : rss * numTc ≤ maxTxQueues := by
    rcases hbound.2 with hfew | ⟨hmore, hfour⟩
    · exact (Nat.mul_le_mul hfew hclasses).trans (by decide)
    · exact (Nat.mul_le_mul hmore hfour).trans (by decide)
  subst hb
  refine countsFit_of_eq (Nat.mul_pos hbound.1 (by omega)) hle ?_ rfl rfl
  intro hcna
  by_cases hfcoe : a.fcoeEnabled = true
  · have hone : rss ≤ rss * numTc := Nat.le_mul_of_pos_right _ (by omega)
    have hmin : minU16 rss a.fcoeLimit ≤ rss := (Nat.min_le_left ..).trans (Nat.mod_le ..)
    rw [if_pos hfcoe]
    exact hmin.trans hone
  · rw [if_neg hfcoe] at hcna
    exact absurd (h.cna hcna) hfcoe

theorem countsFit_dcb {b : QueueAdapter} (h : a.ParamsFit cpus numTc)
    (hb : a.ixgbeSetDcbQueues numTc = some b) : b.CountsFit := by
  unfold ixgbeSetDcbQueues at hb
  split at hb
  · cases hb
  next hmany =>
  refine countsFit_classes h (Nat.not_le.mp hmany) (Option.some.inj hb) ?_
  have hclasses := h.classes
  have hlimit := h.rss
  unfold minU16 u16 ixgbeMaxVmdqIndices
  cases a.macType with
  | mac82598EB =>
    dsimp only
    omega
  | mac82599EB =>
    dsimp only
    split <;> omega
  | macX540 =>
    dsimp only
    split <;> omega

theorem vmdqQueues_fit (h : a.ParamsFit cpus numTc) (hon : a.vmdqEnabled = true) :
    ∃ tx rx pools rss, vmdqQueues mtu a = (tx, rx, pools, rss) ∧ (0 < tx ∧ tx ≤ 16) ∧
      (0 < rx ∧ rx ≤ 20) ∧ (a.rssLimit = 1 → rss = 1) := by
  obtain ⟨hpos, hle⟩ := jumboPools_fit mtu (h.vmdq hon) h.pools
  have hvfs := h.vfs
  have hlimit := h.rss
  obtain ⟨pools, rss, fcoe, hpools, hpools', hrss⟩ : ∃ pools rss fcoe,
      vmdqPools mtu a = (pools, rss, fcoe) ∧ (0 < pools ∧ pools ≤ 16) ∧
        (a.rssLimit = 1 → rss = 1) := by
    unfold vmdqPools minU16 u16 ixgbeMaxVmdqIndices
    cases a.macType with
    | mac82598EB =>
      dsimp only
      split <;> exact ⟨_, _, _, rfl, by omega, by omega⟩
    | mac82599EB =>
      dsimp only
      split <;> exact ⟨_, _, _, rfl, by omega, by omega⟩
    | macX540 =>
      dsimp only
      split <;> exact ⟨_, _, _, rfl, by omega, by omega⟩
  unfold vmdqQueues
  rw [hpools]
  dsimp only
  split
  · refine ⟨_, _, _, _, rfl, ?_, ?_, by omega⟩
    · unfold maxTxQueues
      omega
    · unfold maxTxQueues ixgbeEsxRssQueues
      omega
  · have hone : a.rssLimit = 1 := by omega
    rw [hrss hone, Nat.mul_one]
    exact ⟨_, _, _, _, rfl, hpools', by omega, fun _ => rfl⟩

theorem countsFit_vmdq {b : QueueAdapter} (h : a.ParamsFit cpus numTc)
    (hb : a.ixgbeSetVmdqQueues cpus mtu = some b) : b.CountsFit := by
  unfold ixgbeSetVmdqQueues at hb
  split at hb
  · cases hb
  next hon =>
  rw [Bool.not_eq_true', Bool.not_eq_false] at hon
  obtain ⟨tx, rx, pools, rss, hqueues, htx, hrx, hrss⟩ := vmdqQueues_fit h hon
  rw [hqueues] at hb
  dsimp only at hb
  have hlimit := h.fcoe
  split at hb
  · -- no FCoE, and so no CNA
    next hnone =>
    cases hb
    refine countsFit_of_lt (f := 0) htx hrx (by decide) (fun hcna => ?_) rfl rfl
    rw [h.cna hcna] at hnone
    cases hnone
  next hfcoe =>
  rw [Bool.not_eq_true', Bool.not_eq_false] at hfcoe
  obtain ⟨fcoe, hmin⟩ : ∃ fcoe, fcoe = minU16 (vmdqPools mtu a).2.2 a.fcoeLimit := ⟨_, rfl⟩
  rw [← hmin] at hb
  have hle : fcoe ≤ 8 := by
    rw [hmin]
    unfold minU16 u16
    omega
  split at hb
  · -- pools are left over for FCoE
    cases hb
    exact countsFit_of_lt htx hrx (by omega) (fun _ => by dsimp only; omega) rfl rfl
  · -- its queues are merged with those of RSS, of which there is one
    rw [hrss (h.fcoeRss hfcoe)] at hb
    obtain ⟨more, hmore⟩ : ∃ more, more = if a.msixEnabled then minU16 (fcoe + 1) cpus else 1 :=
      ⟨_, rfl⟩
    rw [← hmore] at hb
    have hmore' : 0 < more ∧ more ≤ 9 := by
      have hcpus := h.cpus
      rw [hmore]
      unfold minU16 u16
      split <;> omega
    cases hb
    apply countsFit_of_lt (f := subU16 more 1) htx hrx
    · unfold subU16 u16
      omega
    · intro _
      dsimp only
      unfold minU16 subU16 u16
      omega
    · rfl
    · rfl

theorem countsFit_merged {rss fcoe limit : Nat} (hrss : 0 < rss ∧ rss ≤ 64) (hfcoe : fcoe ≤ 64) :
    CountsFit { a with
      fcoeIndices := minU16 fcoe limit
      numTxQueues := max (u16 fcoe) (u16 rss), numRxQueues := max (u16 fcoe) (u16 rss) } := by
  apply countsFit_of_eq (n := max (u16 fcoe) (u16 rss))
  · unfold u16
    omega
  · unfold maxTxQueues u16
    omega
  · intro _
    change minU16 fcoe limit ≤ _
    unfold minU16
    omega
  · rfl
  · rfl

theorem countsFit_rss (hlimit : 0 < a.rssLimit ∧ a.rssLimit ≤ 16)
    (hfdir : 1 < a.rssLimit → a.atrSampleRate ≠ 0 → 0 < a.fdirLimit ∧ a.fdirLimit ≤ 64)
    (hfcoe : a.cnaEnabled = true → a.fcoeEnabled = true) :
    (a.ixgbeSetRssQueues cpus).CountsFit := by
  have hbound {rss : Nat}
      (hrss : rss = if a.rssLimit > 1 ∧ a.atrSampleRate ≠ 0 then a.fdirLimit else a.rssLimit) :
      0 < rss ∧ rss ≤ 64 := by
    rw [hrss]
    split
    · next hatr => exact hfdir hatr.1 hatr.2
    · omega
  unfold ixgbeSetRssQueues
  dsimp only
  split
  · apply countsFit_merged (hbound rfl)
    split
    · exact (Nat.min_le_right ..).trans (by decide)
    · exact (hbound rfl).2
  · next hnone =>
    obtain ⟨hpos, hle⟩ := hbound rfl
    refine countsFit_of_eq hpos (hle.trans (by decide)) ?_ rfl rfl
    intro hcna
    exact absurd (hfcoe hcna) hnone

/-- **`ixgbe_set_num_queues`** keeps to the arrays. -/
theorem countsFit_ixgbeSetNumQueues (h : a.ParamsFit cpus numTc) :
    (a.ixgbeSetNumQueues cpus mtu numTc).CountsFit := by
  unfold ixgbeSetNumQueues
  cases hdcbVmdq : a.ixgbeSetDcbVmdqQueues mtu numTc with
  | some b => exact countsFit_dcbVmdq h hdcbVmdq
  | none =>
    cases hdcb : a.ixgbeSetDcbQueues numTc with
    | some b => exact countsFit_dcb h hdcb
    | none =>
      cases hvmdq : a.ixgbeSetVmdqQueues cpus mtu with
      | some b => exact countsFit_vmdq h hvmdq
      | none => exact countsFit_rss h.rss (fun _ => h.fdir) h.cna

/-! ## Vectors -/

theorem vectorsFit_tryMsix {granted : Bool} (hfit : a.CountsFit)
    (hmax : minMsixQFcoeVectors < a.maxQVectors ∧ a.maxQVectors ≤ maxMsixQVectors)
    (hon : ((a.tryMsix granted).msixCapable && (a.tryMsix granted).msixEnabled) = true) :
    (a.tryMsix granted).VectorsFit := by
  rw [Bool.and_eq_true] at hon
  unfold tryMsix ixgbeAcquireMsixVectors at hon ⊢
  by_cases hcapable : a.msixCapable = true
  · rw [if_pos hcapable] at hon ⊢
    by_cases hgranted : (if a.cnaEnabled then minMsixCount else
        minMsixCount - minMsixQFcoeVectors) ≤ a.vectorBudget ∧ granted = true
    · rw [if_pos hgranted]
      obtain ⟨hthreshold, -⟩ := hgranted
      unfold minMsixQFcoeVectors at hmax
      unfold minMsixCount minMsixQFcoeVectors nonQVectors at hthreshold
      refine ⟨⟨hfit.pos, hfit.le, hfit.fcoe⟩, ⟨?_, ?_⟩, fun hcna => ?_⟩
      · dsimp only
        unfold nonQVectors
        split at hthreshold <;> omega
      · exact (Nat.min_le_right ..).trans hmax.2
      · rw [if_pos hcna] at hthreshold
        dsimp only
        unfold minMsixQFcoeVectors nonQVectors
        omega
    · rw [if_neg hgranted] at hon
      cases hon.2
  · rw [if_neg hcapable] at hon
    exact absurd hon.1 hcapable

theorem vectorsFit_one (hvmdq : a.vmdqEnabled = false) (hrss : a.rssLimit = 1)
    (hcna : a.cnaEnabled = false) :
    VectorsFit { a.ixgbeSetNumQueues cpus mtu 0 with numQVectors := 1 } := by
  have hcounts : a.ixgbeSetNumQueues cpus mtu 0 = a.ixgbeSetRssQueues cpus := by
    unfold ixgbeSetNumQueues ixgbeSetDcbVmdqQueues ixgbeSetDcbQueues ixgbeSetVmdqQueues
    rw [hvmdq]
    rfl
  have hoff : (a.ixgbeSetRssQueues cpus).cnaEnabled = false := by
    unfold ixgbeSetRssQueues
    dsimp only
    split <;> exact hcna
  have hfit : (a.ixgbeSetRssQueues cpus).CountsFit := by
    apply countsFit_rss
    · omega
    · omega
    · rw [hcna]
      nofun
  rw [hcounts]
  have hone : 1 ≤ maxMsixQVectors := by decide
  refine ⟨⟨hfit.pos, hfit.le, hfit.fcoe⟩, ⟨Nat.one_pos, hone⟩, fun hon => ?_⟩
  rw [hoff] at hon
  cases hon

theorem vectorsFit_cnaDisable (hvmdq : a.vmdqEnabled = false) (hrss : a.rssLimit = 1) :
    VectorsFit { (if a.cnaEnabled then
        { a with cnaEnabled := false, fcoeEnabled := false, fcoeIndices := 0 }
      else a).ixgbeSetNumQueues cpus mtu 0 with numQVectors := 1 } := by
  by_cases hcna : a.cnaEnabled = true
  · rw [if_pos hcna]
    exact vectorsFit_one hvmdq hrss rfl
  · rw [if_neg hcna]
    exact vectorsFit_one hvmdq hrss (Bool.eq_false_of_not_eq_true hcna)

theorem vectorsFit_tryMsi : (a.tryMsi cpus mtu numTc).VectorsFit := by
  exact vectorsFit_cnaDisable rfl rfl

end QueueAdapter

namespace QueueCard

open QueueAdapter

variable {c : QueueCard} {p : Port} {inp : SchemeInputs}

/-- **`ixgbe_set_interrupt_capability`** keeps to the arrays. -/
theorem vectorsFit_ixgbeSetInterruptCapability (hfit : (c.adapter p).CountsFit)
    (hmax : minMsixQFcoeVectors < (c.adapter p).maxQVectors ∧
      (c.adapter p).maxQVectors ≤ maxMsixQVectors) :
    ((c.ixgbeSetInterruptCapability inp p).adapter p).VectorsFit := by
  unfold ixgbeSetInterruptCapability
  dsimp only
  split
  · next hon =>
    rw [setAdapter_self]
    exact vectorsFit_tryMsix hfit hmax hon
  · rw [setAdapter_self]
    exact vectorsFit_tryMsi

/-- **Every ring belongs to one vector**, and none is left behind without memory, if and only if,
    where FCoE gets vectors of its own, there is no memory for the first of them, or memory for all
    vectors and more of them than FCoE takes. -/
theorem q_vectors_iff (inp : SchemeInputs) (p : Port) (c : QueueCard)
    (hfit : (c.adapter p).CountsFit)
    (hmax : minMsixQFcoeVectors < (c.adapter p).maxQVectors ∧
      (c.adapter p).maxQVectors ≤ maxMsixQVectors) :
    VectorsRight inp.kzalloc ((c.ixgbeSetInterruptCapability inp p).adapter p) ↔
      SplitSound inp.kzalloc ((c.ixgbeSetInterruptCapability inp p).adapter p) :=
  vectorsRight_iff_splitSound (vectorsFit_ixgbeSetInterruptCapability hfit hmax)

def cnaPort : QueueAdapter :=
  { dcbEnabled := true, vmdqEnabled := true, fcoeEnabled := true, cnaEnabled := true
    msixCapable := true, dcbTc := 4, vmdqLimit := 8, rssLimit := 1, fcoeLimit := 1
    maxQVectors := 64, maxMsixVectors := 64 }

def cnaCard : QueueCard :=
  { cpus := 8, adapter := fun _ => cnaPort.ixgbeSetNumQueues 8 wfsDefaultMtu 4 }

theorem countsFit_cnaCard (p : Port) : (cnaCard.adapter p).CountsFit := by
  change (cnaPort.ixgbeSetNumQueues 8 wfsDefaultMtu 4).CountsFit
  apply countsFit_ixgbeSetNumQueues
  constructor <;> decide

/-- With memory for all of the six vectors. -/
theorem q_vectors_cnaCard : VectorsRight (fun _ => true)
    ((cnaCard.ixgbeSetInterruptCapability {} .primary).adapter .primary) :=
  (q_vectors_iff {} .primary cnaCard (countsFit_cnaCard .primary) (by decide)).mpr
    fun _ _ => .inr ⟨fun _ _ => rfl, by decide⟩

/-- Without memory for vector 0, the two FCoE vectors stay. -/
theorem q_vectors_left : (cnaCard.adapter .primary).CountsFit ∧
    ¬VectorsRight (fun v => v != 0) ((cnaCard.ixgbeSetInterruptCapability
      { kzalloc := fun v => v != 0 } .primary).adapter .primary) := by
  have hfit := countsFit_cnaCard .primary
  refine ⟨hfit, fun hright => ?_⟩
  rw [vectorsRight_iff_splitSound
    (vectorsFit_ixgbeSetInterruptCapability hfit (by decide))] at hright
  rcases hright (by decide) (by decide) with hfirst | ⟨hall, -⟩
  · revert hfirst
    decide
  · have hzero := hall 0 (by decide)
    cases hzero

end QueueCard

end VmkDrivers.Wfs
