/-
  VmkDrivers.Vmkplexer.ChardevUnregister

  Registrations, unregistrations and cleanups of character devices beside each
  other.

  Any number of calls are under way; a step of one is a section under
  `chardevRegSem`, a call of the vmkernel, or the read of `minorInfoPerMajor` in
  front of the section of an unregistration.  What that section examines and
  what is passed to `vmk_CharDevUnregister` is written down.

  An unregistration may examine a `minorInfo` that a cleanup has freed since, or
  pass on the handle of a device that has none yet (`unregistered_beside`).
  Where it does neither, it acts on live devices only (`unregistered_live`).
-/

import VmkDrivers.Lib.Activities
import VmkDrivers.Vmkplexer.ChardevTables

namespace VmkDrivers.Vmkplexer

open VmkDrivers.Lib

structure DeviceHandle where
  device : Nat
  major : Nat
  minor : Nat
  vmkHandle : Nat
deriving DecidableEq, Repr

/-- What an unregistration examined: the `minorInfo` it had read, and whether that was allocated, and
    the one that was installed. -/
structure Examined where
  read : Nat
  allocated : Bool
  installed : Option Nat
deriving DecidableEq, Repr

structure ChardevWorld where
  tables : Chardevs
  /-- The devices of the vmkernel, by their handles. -/
  registered : Nat → Option Nat := fun _ => none
  /-- How many devices were published, and the number of the one at an address. -/
  published : Nat := 0
  number : Nat → Nat := fun _ => 0
  stored : List DeviceHandle := []
  examined : List Examined := []
  passed : List DeviceHandle := []

/-- What a call has still to do: all of `vmkplxr_RegisterChardev`, `vmk_CharDevRegister`, the section
    at `out_vmkapi_fail`, the section of `vmkplxr_UnregisterChardev`, `vmk_CharDevUnregister`, or
    `VmkplxrCharUnregCleanup`. -/
inductive ChardevActivity where
  | register (major minor : Nat)
  | charDevRegister (c a reqMajor reqMinor : Nat)
  | vmkapiFail (c a reqMajor reqMinor : Nat)
  | examine (major minor a : Nat)
  | charDevUnregister (c : Nat) (handle : DeviceHandle)
  | cleanup (c : Nat)
deriving DecidableEq, Repr

inductive ChardevEvent where
  | register (major minor : Nat)
  | unregister (major minor : Nat)
deriving DecidableEq, Repr

/-- What `vmk_HeapAlloc` and `vmk_CharDevRegister` return. -/
structure Returned where
  newDev : Option (Nat × VmkplxrCharDev) := none
  minorInfo : Option (Nat × VmkplxrMinorInfo) := none
  vmkHandle : Option Nat := none

namespace ChardevWorld

variable (w : ChardevWorld)

/-- A call begins; an unregistration has met its assertions, and reads `minorInfoPerMajor`. -/
def begin (w : ChardevWorld) : ChardevEvent → Option (ChardevWorld × List ChardevActivity)
  | .register major minor =>
    if major < 256 ∧ minor < 256 then some (w, [.register major minor]) else none
  | .unregister major minor =>
    if major ≠ dynamicMajor ∧ minor ≠ dynamicMinor then
      some (w, (w.tables.minorInfoPerMajor major).toList.map (.examine major minor))
    else none

/-- The first section of `vmkplxr_RegisterChardev`. -/
def register (major minor : Nat) (r : Returned) :
    Except Fault (ChardevWorld × List ChardevActivity) :=
  match r.newDev with
  | none => .ok (w, [])
  | some (c, cdev) => do
    match ← w.tables.publish major minor c cdev r.minorInfo with
    | (none, d) => return ({ w with tables := d }, [])
    | (some (a, reqMajor, reqMinor), d) =>
      return ({ w with
          tables := d
          published := w.published + 1
          number := Function.update w.number c w.published },
        [.charDevRegister c a reqMajor reqMinor])

/-- `vmk_CharDevRegister` stores the handle of the device, or fails. -/
def charDevRegister (c a reqMajor reqMinor : Nat) (r : Returned) :
    Except Fault (ChardevWorld × List ChardevActivity) :=
  match r.vmkHandle with
  | none => .ok (w, [.vmkapiFail c a reqMajor reqMinor])
  | some handle => do
    let cdev ← follow w.tables.chardevs (some c)
    return ({ w with
        tables := w.tables.setChardev c (some { cdev with vmkHandle := handle })
        registered := Function.update w.registered handle (some c)
        stored := w.stored ++ [⟨w.number c, reqMajor, reqMinor, handle⟩] }, [])

/-- The device that the section of `vmkplxr_UnregisterChardev` finds. -/
def found (minor a : Nat) : Option Nat :=
  (w.tables.minorInfos a).bind fun info => info.chardevMinors minor

/-- The section of `vmkplxr_UnregisterChardev`. -/
def examine (major minor a : Nat) : Except Fault (ChardevWorld × List ChardevActivity) := do
  let (r, d) ← w.tables.examine major minor a
  let w' : ChardevWorld := { w with
    tables := d
    examined := if w.tables.majorFree major then w.examined
      else w.examined ++
        [⟨a, (w.tables.minorInfos a).isSome, w.tables.minorInfoPerMajor major⟩] }
  match r, w.found minor a with
  | .ok handle, some c => return (w', [.charDevUnregister c ⟨w.number c, major, minor, handle⟩])
  | _, _ => return (w', [])

/-- `vmk_CharDevUnregister`: the device of the handle is to be cleaned up. -/
def charDevUnregister (handle : DeviceHandle) : ChardevWorld × List ChardevActivity :=
  ({ w with
      registered := Function.update w.registered handle.vmkHandle none
      passed := w.passed ++ [handle] },
    (w.registered handle.vmkHandle).toList.map .cleanup)

def Unused (r : Returned) : Prop :=
  (∀ x ∈ r.newDev, w.tables.chardevs x.1 = none) ∧
    (∀ x ∈ r.minorInfo, w.tables.minorInfos x.1 = none) ∧
    ∀ handle ∈ r.vmkHandle, w.registered handle = none

instance (r : Returned) : Decidable (w.Unused r) := by
  unfold Unused
  infer_instance

def move (w : ChardevWorld) (p : ChardevActivity) (r : Returned) :
    Option (Except Fault (ChardevWorld × List ChardevActivity)) :=
  if w.Unused r then
    match p with
    | .register major minor => some (w.register major minor r)
    | .charDevRegister c a reqMajor reqMinor => some (w.charDevRegister c a reqMajor reqMinor r)
    | .vmkapiFail c a reqMajor reqMinor =>
      some ((w.tables.unpublish a reqMajor reqMinor c).map fun d => ({ w with tables := d }, []))
    | .examine major minor a => some (w.examine major minor a)
    | .charDevUnregister _ handle => some (.ok (w.charDevUnregister handle))
    | .cleanup c => some ((w.tables.unregCleanup c).map fun d => ({ w with tables := d }, []))
  else none

end ChardevWorld

def chardevProgram : Program ChardevWorld ChardevActivity ChardevEvent Returned Fault where
  begin := ChardevWorld.begin
  move := ChardevWorld.move

abbrev ChardevState := Except Fault (Pool ChardevWorld ChardevActivity)

abbrev ChardevLabel := PoolEvent ChardevActivity ChardevEvent Returned

abbrev ChardevPoolStep : ChardevState → ChardevLabel → ChardevState → Prop := chardevProgram.Step

def ChardevState.init (start : Nat × VmkplxrMinorInfo) : ChardevState :=
  .ok ⟨{ tables := .init start.1 start.2 }, 0⟩

/-! ## What is promised -/

/-- An unregistration acts on what is there. -/
structure ActsOnLive (w : ChardevWorld) : Prop where
  examined : ∀ x ∈ w.examined, x.installed = some x.read ∧ x.allocated = true
  stored : ∀ handle ∈ w.passed, handle ∈ w.stored
  once : (w.passed.map DeviceHandle.device).Nodup

/-- The call is a registration of the device whose handle is not stored yet. -/
def ChardevActivity.Registers (c : Nat) : ChardevActivity → Prop
  | .charDevRegister c' .. | .vmkapiFail c' .. => c' = c
  | _ => False

instance (c : Nat) : DecidablePred (ChardevActivity.Registers c) := fun p => by
  unfold ChardevActivity.Registers
  split <;> infer_instance

/-- An unregistration examines a major that is allocated only if the `minorInfo` that it has read is
    still installed there, and finds no device that is still being registered. -/
def ExaminesLive (s : ChardevState) (e : ChardevLabel) : Prop :=
  match s, e with
  | .ok w, .move (.examine major minor a) _ =>
    w.shared.tables.majorFree major = false →
      w.shared.tables.minorInfoPerMajor major = some a ∧
        ∀ c ∈ w.shared.found minor a, ∀ p ∈ w.active, ¬p.Registers c
  | _, _ => True

instance (s : ChardevState) (e : ChardevLabel) : Decidable (ExaminesLive s e) := by
  unfold ExaminesLive
  split <;> infer_instance

/-! ## The invariant -/

def ChardevActivity.owned : ChardevActivity → Multiset Nat
  | .charDevRegister c .. | .vmkapiFail c .. | .charDevUnregister c _ | .cleanup c => {c}
  | _ => 0

def ChardevActivity.Right (w : ChardevWorld) : ChardevActivity → Prop
  | .register major minor => major < 256 ∧ minor < 256
  | .charDevRegister c a reqMajor reqMinor | .vmkapiFail c a reqMajor reqMinor =>
    ∃ cdev, w.tables.chardevs c = some cdev ∧ cdev.major = reqMajor ∧ cdev.minor = reqMinor ∧
      cdev.unregPending = false ∧ w.tables.minorInfoPerMajor reqMajor = some a
  | .examine _ minor _ => minor ≠ dynamicMinor
  | .charDevUnregister c handle =>
    ∃ cdev, w.tables.chardevs c = some cdev ∧ cdev.unregPending = true ∧
      w.registered handle.vmkHandle = some c ∧ handle ∈ w.stored ∧ handle.device = w.number c
  | .cleanup c => ∃ cdev, w.tables.chardevs c = some cdev ∧ cdev.unregPending = true

/-- A device that no call is concerned with has its handle. -/
def ChardevWorld.Settled (w : ChardevWorld) (c : Nat) (cdev : VmkplxrCharDev) : Prop :=
  cdev.unregPending = false ∧ w.registered cdev.vmkHandle = some c ∧
    ⟨w.number c, cdev.major, cdev.minor, cdev.vmkHandle⟩ ∈ w.stored

structure WrittenDown (w : ChardevWorld) (ps : Multiset ChardevActivity) : Prop where
  acts : ActsOnLive w
  lt : ∀ {c cdev}, w.tables.chardevs c = some cdev → w.number c < w.published
  inj : ∀ {c c' cdev cdev'}, w.tables.chardevs c = some cdev → w.tables.chardevs c' = some cdev' →
    w.number c = w.number c' → c = c'
  passed_lt : ∀ handle ∈ w.passed, handle.device < w.published
  closing : ∀ {c cdev}, w.tables.chardevs c = some cdev →
    w.number c ∈ w.passed.map DeviceHandle.device → .cleanup c ∈ ps

structure UnregInv (start : Nat × VmkplxrMinorInfo) (w : ChardevWorld)
    (ps : Multiset ChardevActivity) : Prop where
  tables : Tables start w.tables
  nodup : (total ChardevActivity.owned ps).Nodup
  right : ∀ p ∈ ps, p.Right w
  settled : ∀ {c cdev}, w.tables.chardevs c = some cdev →
    c ∉ total ChardevActivity.owned ps → w.Settled c cdev
  written : WrittenDown w ps

section Calls

variable {start : Nat × VmkplxrMinorInfo} {w w' : ChardevWorld} {c a major minor : Nat}
  {p : ChardevActivity} {ps rest : Multiset ChardevActivity} {r : Returned} {cdev : VmkplxrCharDev}
  {qs : Multiset ChardevActivity}

theorem ChardevActivity.Right.live (h : p.Right w) (hc : c ∈ p.owned) :
    ∃ cdev, w.tables.chardevs c = some cdev := by
  cases p with
  | register _ _ | examine _ _ _ => exact absurd hc (Multiset.notMem_zero c)
  | charDevRegister c' _ _ _ | vmkapiFail c' _ _ _ | charDevUnregister c' _ | cleanup c' =>
    obtain rfl := Multiset.mem_singleton.mp hc
    obtain ⟨cdev, hdev, -⟩ := h
    exact ⟨cdev, hdev⟩

theorem ChardevActivity.Right.frame (h : p.Right w)
    (hdev : ∀ c ∈ p.owned, w'.tables.chardevs c = w.tables.chardevs c ∧ w'.number c = w.number c)
    (hptr : ∀ {m b c cdev}, w.tables.minorInfoPerMajor m = some b →
      w'.tables.chardevs c = some cdev → cdev.major = m → w'.tables.minorInfoPerMajor m = some b)
    (hreg : ∀ {handle c}, c ∈ p.owned → w.registered handle = some c → w'.registered handle = some c)
    (hstored : ∀ {handle}, handle ∈ w.stored → handle ∈ w'.stored) : p.Right w' := by
  cases p with
  | register _ _ | examine _ _ _ => exact h
  | charDevRegister c a M m | vmkapiFail c a M m =>
    obtain ⟨cdev, hc, hM, hm, hpending, ha⟩ := h
    have hc' := (hdev c (Multiset.mem_singleton_self c)).1.trans hc
    exact ⟨cdev, hc', hM, hm, hpending, hptr ha hc' hM⟩
  | charDevUnregister c handle =>
    obtain ⟨cdev, hc, hpending, hr, hs, hn⟩ := h
    obtain ⟨hc', hn'⟩ := hdev c (Multiset.mem_singleton_self c)
    exact ⟨cdev, hc'.trans hc, hpending, hreg (Multiset.mem_singleton_self c) hr, hstored hs,
      hn.trans hn'.symm⟩
  | cleanup c =>
    obtain ⟨cdev, hc, hpending⟩ := h
    exact ⟨cdev, (hdev c (Multiset.mem_singleton_self c)).1.trans hc, hpending⟩

theorem UnregInv.sole (h : UnregInv start w (p ::ₘ rest)) (hc : c ∈ p.owned) :
    c ∉ total ChardevActivity.owned rest := fun hrest => by
  have hnodup := h.nodup
  rw [total_cons] at hnodup
  exact Multiset.disjoint_left.mp (Multiset.nodup_add.mp hnodup).2.2 hc hrest

theorem mem_total_cons : c ∈ total ChardevActivity.owned (p ::ₘ rest) ↔
    c ∈ p.owned ∨ c ∈ total ChardevActivity.owned rest := by
  rw [total_cons, Multiset.mem_add]

theorem UnregInv.congr (h : UnregInv start w ps)
    (htotal : total ChardevActivity.owned qs = total ChardevActivity.owned ps)
    (hright : ∀ p ∈ qs, p.Right w) (hcleanup : ∀ c, .cleanup c ∈ ps → .cleanup c ∈ qs) :
    UnregInv start w qs := by
  refine ⟨h.tables, htotal ▸ h.nodup, hright, fun hc hno => h.settled hc (htotal ▸ hno), ?_⟩
  exact ⟨h.written.acts, h.written.lt, h.written.inj, h.written.passed_lt,
    fun hc hp => hcleanup _ (h.written.closing hc hp)⟩

theorem begin_inv {ev : ChardevEvent} {qs : List ChardevActivity} (h : UnregInv start w ps)
    (hbegin : w.begin ev = some (w', qs)) : UnregInv start w' (qs + ps) := by
  have hkeep : ∀ qs : List ChardevActivity, (∀ p ∈ qs, p.Right w ∧ p.owned = 0) →
      UnregInv start w (qs + ps) := fun qs hqs => by
    refine h.congr ?_ (fun p hp => ?_) fun c hc => Multiset.mem_add.mpr (.inr hc)
    · rw [total_add, total_eq_zero fun p hp => (hqs p hp).2, zero_add]
    · exact (Multiset.mem_add.mp hp).elim (fun hp => (hqs p hp).1) (h.right p)
  cases ev with
  | register major minor =>
    obtain ⟨hrange, heq⟩ := Option.ite_none_right_eq_some.mp hbegin
    cases heq
    refine hkeep _ fun p hp => ?_
    obtain rfl := List.mem_singleton.mp hp
    exact ⟨hrange, rfl⟩
  | unregister major minor =>
    obtain ⟨⟨-, hminor⟩, heq⟩ := Option.ite_none_right_eq_some.mp hbegin
    cases heq
    refine hkeep _ fun p hp => ?_
    obtain ⟨a, -, rfl⟩ := List.mem_map.mp hp
    exact ⟨hminor, rfl⟩

theorem Tables.ptr_kept {d d' : Chardevs} (h : Tables start d')
    (hold : ∀ m b, d'.minorInfoPerMajor m = some b → d.minorInfoPerMajor m = some b) {m b : Nat}
    (hb : d.minorInfoPerMajor m = some b) (hc : d'.chardevs c = some cdev) (hm : cdev.major = m) :
    d'.minorInfoPerMajor m = some b := by
  obtain ⟨-, -, b', i, hin, -⟩ := h.recorded hc
  rw [hm] at hin
  rw [hin.1, ← hold m b' hin.1, hb]

theorem UnregInv.remove (h : UnregInv start w (p ::ₘ rest)) (hp : p.owned = {c}) {d : Chardevs}
    (htables : Tables start d) (hdevs : d.chardevs = Function.update w.tables.chardevs c none)
    (hold : ∀ m b, d.minorInfoPerMajor m = some b → w.tables.minorInfoPerMajor m = some b) :
    UnregInv start { w with tables := d } rest := by
  have hdev : ∀ {b e}, d.chardevs b = some e ↔ b ≠ c ∧ w.tables.chardevs b = some e := by
    rw [hdevs]
    exact update_none_iff
  have hsole : c ∉ total ChardevActivity.owned rest := h.sole (hp ▸ Multiset.mem_singleton_self c)
  have hnodup := h.nodup
  rw [total_cons] at hnodup
  refine ⟨htables, (Multiset.nodup_add.mp hnodup).2.1, fun q hq => ?_, fun {b e} hb hno => ?_, ?_⟩
  · refine (h.right q (Multiset.mem_cons_of_mem hq)).frame (fun b hb => ⟨?_, rfl⟩)
      (fun hb hc hm => htables.ptr_kept hold hb hc hm) (fun _ hr => hr) (fun hs => hs)
    have hne : b ≠ c := fun heq => hsole (mem_total.mpr ⟨q, hq, heq ▸ hb⟩)
    exact (congrFun hdevs b).trans (Function.update_of_ne hne ..)
  · obtain ⟨hne, hb⟩ := hdev.mp hb
    refine h.settled hb fun hmem => ?_
    rcases mem_total_cons.mp hmem with hown | hrest
    · exact hne (Multiset.mem_singleton.mp (hp ▸ hown))
    · exact hno hrest
  · refine ⟨⟨h.written.acts.examined, h.written.acts.stored, h.written.acts.once⟩,
      fun hb => h.written.lt (hdev.mp hb).2,
      fun hb hb' => h.written.inj (hdev.mp hb).2 (hdev.mp hb').2, h.written.passed_lt,
      fun {b e} hb hpassed => ?_⟩
    obtain ⟨hne, hb⟩ := hdev.mp hb
    rcases Multiset.mem_cons.mp (h.written.closing hb hpassed) with heq | hmem
    · refine absurd ?_ hne
      rw [← heq] at hp
      exact Multiset.singleton_inj.mp hp
    · exact hmem

theorem register_inv (h : UnregInv start w (.register major minor ::ₘ rest)) (hr : w.Unused r) :
    ∃ w' qs, w.register major minor r = .ok (w', qs) ∧ UnregInv start w' (qs + rest) := by
  have hgone : UnregInv start w rest := h.congr (by rw [total_cons]; exact (zero_add _).symm)
    (fun p hp => h.right p (Multiset.mem_cons_of_mem hp))
    fun c hc => (Multiset.mem_cons.mp hc).resolve_left nofun
  obtain ⟨hnewDev, hminorInfo, -⟩ := hr
  have hrange : major < 256 ∧ minor < 256 := h.right _ (Multiset.mem_cons_self ..)
  unfold ChardevWorld.register
  cases hnew : r.newDev with
  | none => exact ⟨w, [], rfl, by rwa [Multiset.coe_nil, zero_add]⟩
  | some x =>
    obtain ⟨c, cdev⟩ := x
    have hfree : w.tables.chardevs c = none := hnewDev (c, cdev) hnew
    dsimp only
    rcases publish_spec h.tables hrange hfree (fun a i heq => hminorInfo (a, i) heq) cdev with
      ⟨hpublish, -⟩ | ⟨a, M, m, d, hpublish, htables, ha, hdevs, hptr, -⟩
    · rw [hpublish]
      exact ⟨w, [], rfl, by rwa [Multiset.coe_nil, zero_add]⟩
    · rw [hpublish]
      generalize hcdev' : ({ cdev with major := M, minor := m, unregPending := false } :
        VmkplxrCharDev) = cdev' at hdevs
      refine ⟨_, _, rfl, ?_⟩
      rw [Multiset.coe_singleton, Multiset.singleton_add]
      have hdev : ∀ {b e}, d.chardevs b = some e ↔
          (b = c ∧ cdev' = e) ∨ (b ≠ c ∧ w.tables.chardevs b = some e) := by
        rw [hdevs]
        exact update_some_iff
      have hself : d.chardevs c = some cdev' := hdev.mpr (.inl ⟨rfl, rfl⟩)
      -- no call is concerned with the new device yet
      have hno : c ∉ total ChardevActivity.owned rest := fun hmem => by
        obtain ⟨q, hq, hown⟩ := mem_total.mp hmem
        obtain ⟨e, he⟩ := (hgone.right q hq).live hown
        rw [hfree] at he
        cases he
      have hnum : ∀ {b}, b ≠ c → Function.update w.number c w.published b = w.number b :=
        fun hb => Function.update_of_ne hb ..
      have hnumself : Function.update w.number c w.published c = w.published :=
        Function.update_self ..
      generalize Function.update w.number c w.published = number at hnum hnumself ⊢
      refine ⟨htables, ?_, fun q hq => ?_, fun {b e} hb hfar => ?_, ?_⟩
      · rw [total_cons]
        exact Multiset.nodup_cons.mpr ⟨hno, hgone.nodup⟩
      · rcases Multiset.mem_cons.mp hq with rfl | hq
        · exact ⟨cdev', hself, hcdev' ▸ rfl, hcdev' ▸ rfl, hcdev' ▸ rfl, ha⟩
        · refine (hgone.right q hq).frame (fun b hb => ?_) (fun hb _ _ => hptr _ _ hb)
            (fun _ hr => hr) (fun hs => hs)
          have hne : b ≠ c := fun heq => hno (mem_total.mpr ⟨q, hq, heq ▸ hb⟩)
          exact ⟨(congrFun hdevs b).trans (Function.update_of_ne hne ..), hnum hne⟩
      · rcases hdev.mp hb with ⟨rfl, -⟩ | ⟨hne, hb⟩
        · exact absurd (mem_total_cons.mpr (.inl (Multiset.mem_singleton_self b))) hfar
        · obtain ⟨hp, hreg, hs⟩ := hgone.settled hb fun hmem =>
            hfar (mem_total_cons.mpr (.inr hmem))
          refine ⟨hp, hreg, ?_⟩
          show ⟨number b, e.major, e.minor, e.vmkHandle⟩ ∈ w.stored
          rw [hnum hne]
          exact hs
      · have hw := hgone.written
        have hlt : ∀ {b e}, b ≠ c → d.chardevs b = some e → w.number b < w.published :=
          fun hne hb => hw.lt ((hdev.mp hb).resolve_left fun heq => hne heq.1).2
        refine ⟨⟨hw.acts.examined, hw.acts.stored, hw.acts.once⟩, fun {b e} hb => ?_,
          fun {b b' e e'} hb hb' heq => ?_,
          fun x hx => Nat.lt_succ_of_lt (hw.passed_lt x hx), fun {b e} hb hpassed => ?_⟩
        · show number b < w.published + 1
          by_cases hbc : b = c
          · rw [hbc, hnumself]
            exact Nat.lt_succ_self _
          · rw [hnum hbc]
            exact Nat.lt_succ_of_lt (hlt hbc hb)
        · have heq : number b = number b' := heq
          by_cases hbc : b = c
          · by_cases hbc' : b' = c
            · exact hbc.trans hbc'.symm
            · rw [hbc, hnumself, hnum hbc'] at heq
              exact absurd heq (Nat.ne_of_gt (hlt hbc' hb'))
          · by_cases hbc' : b' = c
            · rw [hbc', hnumself, hnum hbc] at heq
              exact absurd heq (Nat.ne_of_lt (hlt hbc hb))
            · rw [hnum hbc, hnum hbc'] at heq
              exact hw.inj ((hdev.mp hb).resolve_left fun hand => hbc hand.1).2
                ((hdev.mp hb').resolve_left fun hand => hbc' hand.1).2 heq
        · have hpassed : number b ∈ w.passed.map DeviceHandle.device := hpassed
          by_cases hbc : b = c
          · rw [hbc, hnumself] at hpassed
            obtain ⟨x, hx, heq⟩ := List.mem_map.mp hpassed
            exact absurd heq (Nat.ne_of_lt (hw.passed_lt x hx))
          · rw [hnum hbc] at hpassed
            exact Multiset.mem_cons_of_mem
              (hw.closing ((hdev.mp hb).resolve_left fun hand => hbc hand.1).2 hpassed)

theorem UnregInv.change (h : UnregInv start w ps) (hw : w.tables.chardevs c = some cdev)
    (cdev' : VmkplxrCharDev) (hmajor : cdev'.major = cdev.major) (hminor : cdev'.minor = cdev.minor)
    {registered : Nat → Option Nat} {stored : List DeviceHandle} {examined : List Examined}
    (hnodup : (total ChardevActivity.owned qs).Nodup)
    (hreg : ∀ {handle b}, b ≠ c → w.registered handle = some b → registered handle = some b)
    (hstored : ∀ {handle}, handle ∈ w.stored → handle ∈ stored)
    (hexamined : ∀ x ∈ examined, x.installed = some x.read ∧ x.allocated = true)
    (hself : c ∉ total ChardevActivity.owned qs → cdev'.unregPending = false ∧
      registered cdev'.vmkHandle = some c ∧
        ⟨w.number c, cdev'.major, cdev'.minor, cdev'.vmkHandle⟩ ∈ stored)
    (hright : ∀ q ∈ qs, (q ∈ ps ∧ c ∉ q.owned) ∨
      q.Right { w with tables := w.tables.setChardev c (some cdev'), registered, stored, examined })
    (howned : ∀ b, b ≠ c → b ∉ total ChardevActivity.owned qs → b ∉ total ChardevActivity.owned ps)
    (hcleanup : ∀ b, .cleanup b ∈ ps → .cleanup b ∈ qs) :
    UnregInv start
      { w with tables := w.tables.setChardev c (some cdev'), registered, stored, examined } qs := by
  have hdev : ∀ {b e}, (w.tables.setChardev c (some cdev')).chardevs b = some e ↔
      (b = c ∧ cdev' = e) ∨ (b ≠ c ∧ w.tables.chardevs b = some e) := update_some_iff
  have hbefore : ∀ {b e}, (w.tables.setChardev c (some cdev')).chardevs b = some e →
      ∃ e', w.tables.chardevs b = some e' := fun hb =>
    (hdev.mp hb).elim (fun hand => ⟨cdev, hand.1 ▸ hw⟩) fun hand => ⟨_, hand.2⟩
  refine ⟨h.tables.setChardev hw hmajor hminor, hnodup, fun q hq => ?_, fun {b e} hb hno => ?_, ?_⟩
  · rcases hright q hq with ⟨hmem, hnot⟩ | hq
    · have hne : ∀ {b}, b ∈ q.owned → b ≠ c := fun hb heq => hnot (heq ▸ hb)
      exact (h.right q hmem).frame (fun b hb => ⟨Function.update_of_ne (hne hb) .., rfl⟩)
        (fun hb _ _ => hb) (fun hb hr => hreg (hne hb) hr) hstored
    · exact hq
  · rcases hdev.mp hb with ⟨rfl, rfl⟩ | ⟨hne, hb⟩
    · exact hself hno
    · obtain ⟨hp, hr, hs⟩ := h.settled hb (howned b hne hno)
      exact ⟨hp, hreg hne hr, hstored hs⟩
  · refine ⟨⟨hexamined, fun x hx => hstored (h.written.acts.stored x hx), h.written.acts.once⟩,
      fun hb => (hbefore hb).elim fun _ => h.written.lt, fun hb hb' heq => ?_, h.written.passed_lt,
      fun hb hpassed => (hbefore hb).elim fun _ hb => hcleanup _ (h.written.closing hb hpassed)⟩
    obtain ⟨e, he⟩ := hbefore hb
    obtain ⟨e', he'⟩ := hbefore hb'
    exact h.written.inj he he' heq

theorem charDevRegister_inv (h : UnregInv start w (.charDevRegister c a major minor ::ₘ rest))
    (hr : w.Unused r) : ∃ w' qs, w.charDevRegister c a major minor r = .ok (w', qs) ∧
      UnregInv start w' (qs + rest) := by
  obtain ⟨cdev, hc, hM, hm, hpending, ha⟩ := h.right _ (Multiset.mem_cons_self ..)
  have hsole : c ∉ total ChardevActivity.owned rest := h.sole (Multiset.mem_singleton_self c)
  unfold ChardevWorld.charDevRegister
  cases hnew : r.vmkHandle with
  | none =>
    -- the call goes on with the same device
    refine ⟨w, _, rfl, h.congr (by simp [ChardevActivity.owned]) (fun p hp => ?_) fun b hb => ?_⟩
    · rw [Multiset.coe_singleton, Multiset.singleton_add] at hp
      rcases Multiset.mem_cons.mp hp with rfl | hp
      · exact ⟨cdev, hc, hM, hm, hpending, ha⟩
      · exact h.right p (Multiset.mem_cons_of_mem hp)
    · exact Multiset.mem_add.mpr (.inr ((Multiset.mem_cons.mp hb).resolve_left nofun))
  | some handle =>
    have hfree : w.registered handle = none := hr.2.2 handle hnew
    have hnodup := h.nodup
    rw [total_cons] at hnodup
    refine ⟨_, [], by dsimp only; rw [follow_some hc]; rfl, ?_⟩
    rw [Multiset.coe_nil, zero_add]
    refine h.change hc { cdev with vmkHandle := handle } rfl rfl
      (Multiset.nodup_add.mp hnodup).2.1 (fun _ hreg => ?_) (fun hs => List.mem_append_left _ hs)
      h.written.acts.examined (fun _ => ⟨hpending, Function.update_self .., ?_⟩)
      (fun q hq => .inl ⟨Multiset.mem_cons_of_mem hq, fun hown =>
        hsole (mem_total.mpr ⟨q, hq, hown⟩)⟩)
      (fun b hne hno hmem => ?_) fun b hb => (Multiset.mem_cons.mp hb).resolve_left nofun
    · refine update_some_iff.mpr (.inr ⟨fun heq => ?_, hreg⟩)
      rw [heq, hfree] at hreg
      cases hreg
    · refine List.mem_append_right _ (List.mem_singleton.mpr ?_)
      rw [← hM, ← hm]
    · rcases mem_total_cons.mp hmem with hown | hrest
      · exact hne (Multiset.mem_singleton.mp hown)
      · exact hno hrest

theorem vmkapiFail_inv (h : UnregInv start w (.vmkapiFail c a major minor ::ₘ rest)) :
    ∃ d, w.tables.unpublish a major minor c = .ok d ∧
      UnregInv start { w with tables := d } rest := by
  obtain ⟨cdev, hc, rfl, rfl, -, ha⟩ := h.right _ (Multiset.mem_cons_self ..)
  obtain ⟨d, hunpublish, htables, hdevs, hold⟩ := unpublish_spec h.tables hc ha
  exact ⟨d, hunpublish, h.remove rfl htables hdevs hold⟩

theorem cleanup_inv (h : UnregInv start w (.cleanup c ::ₘ rest)) :
    ∃ d, w.tables.unregCleanup c = .ok d ∧ UnregInv start { w with tables := d } rest := by
  obtain ⟨cdev, hc, hpending⟩ := h.right _ (Multiset.mem_cons_self ..)
  obtain ⟨d, hcleanup, htables, hdevs, hold⟩ := unregCleanup_spec h.tables hc hpending
  exact ⟨d, hcleanup, h.remove rfl htables hdevs hold⟩

theorem charDevUnregister_inv {handle : DeviceHandle}
    (h : UnregInv start w (.charDevUnregister c handle ::ₘ rest)) :
    UnregInv start (w.charDevUnregister handle).1 ((w.charDevUnregister handle).2 + rest) := by
  obtain ⟨cdev, hc, hpending, hreg, hstored, hdevice⟩ := h.right _ (Multiset.mem_cons_self ..)
  have hsole : c ∉ total ChardevActivity.owned rest := h.sole (Multiset.mem_singleton_self c)
  have hcalls : (w.charDevUnregister handle).2 = [.cleanup c] := by
    rw [ChardevWorld.charDevUnregister, hreg]
    rfl
  rw [hcalls, Multiset.coe_singleton, Multiset.singleton_add]
  have hother : ∀ {x b}, b ≠ c → w.registered x = some b →
      (w.charDevUnregister handle).1.registered x = some b := fun hne hx =>
    update_none_iff.mpr ⟨fun heq => hne (by
      rw [heq, hreg] at hx
      exact (Option.some.inj hx).symm), hx⟩
  -- it was not passed before, as there is no cleanup of the device yet
  have hnot : handle.device ∉ w.passed.map DeviceHandle.device := fun hmem => by
    rw [hdevice] at hmem
    have hclosing := (Multiset.mem_cons.mp (h.written.closing hc hmem)).resolve_left nofun
    exact hsole (mem_total.mpr ⟨_, hclosing, Multiset.mem_singleton_self c⟩)
  refine ⟨h.tables, ?_, fun q hq => ?_, fun {b e} hb hno => ?_, ?_⟩
  · have hnodup := h.nodup
    rw [total_cons] at hnodup ⊢
    exact hnodup
  · rcases Multiset.mem_cons.mp hq with rfl | hq
    · exact ⟨cdev, hc, hpending⟩
    · have hne : ∀ {b}, b ∈ q.owned → b ≠ c := fun hb heq => hsole (mem_total.mpr ⟨q, hq, heq ▸ hb⟩)
      exact (h.right q (Multiset.mem_cons_of_mem hq)).frame (fun b _ => ⟨rfl, rfl⟩)
        (fun hb _ _ => hb) (fun hb hx => hother (hne hb) hx) fun hs => hs
  · have hne : b ≠ c := fun heq => hno (mem_total_cons.mpr (.inl (heq ▸ Multiset.mem_singleton_self c)))
    obtain ⟨hp, hx, hs⟩ := h.settled hb fun hmem => by
      rcases mem_total_cons.mp hmem with hown | hrest
      · exact hne (Multiset.mem_singleton.mp hown)
      · exact hno (mem_total_cons.mpr (.inr hrest))
    exact ⟨hp, hother hne hx, hs⟩
  · refine ⟨⟨h.written.acts.examined, fun x hx => ?_, ?_⟩, h.written.lt, h.written.inj,
      fun x hx => ?_, fun {b e} hb hpassed => ?_⟩
    · rcases List.mem_append.mp hx with hx | hx
      · exact h.written.acts.stored x hx
      · exact List.mem_singleton.mp hx ▸ hstored
    · refine (List.map_append ▸ List.nodup_append.mpr ⟨h.written.acts.once, by simp, ?_⟩ :
        ((w.passed ++ [handle]).map DeviceHandle.device).Nodup)
      rintro x hx y hy rfl
      exact hnot (List.mem_singleton.mp hy ▸ hx)
    · rcases List.mem_append.mp hx with hx | hx
      · exact h.written.passed_lt x hx
      · obtain rfl := List.mem_singleton.mp hx
        exact hdevice ▸ h.written.lt hc
    · have hpassed : w.number b ∈ (w.passed ++ [handle]).map DeviceHandle.device := hpassed
      rw [List.map_append, List.mem_append] at hpassed
      rcases hpassed with hold | hnew
      · exact Multiset.mem_cons_of_mem
          ((Multiset.mem_cons.mp (h.written.closing hb hold)).resolve_left nofun)
      · have heq : w.number b = w.number c := (List.mem_singleton.mp hnew).trans hdevice
        rw [h.written.inj hb hc heq]
        exact Multiset.mem_cons_self ..

theorem examine_inv (h : UnregInv start w (.examine major minor a ::ₘ rest))
    (hguard : w.tables.majorFree major = false → w.tables.minorInfoPerMajor major = some a ∧
      ∀ c ∈ w.found minor a, ∀ p ∈ ChardevActivity.examine major minor a ::ₘ rest, ¬p.Registers c) :
    ∃ w' qs, w.examine major minor a = .ok (w', qs) ∧ UnregInv start w' (qs + rest) := by
  have hminor : minor ≠ dynamicMinor := h.right _ (Multiset.mem_cons_self ..)
  have hgone : UnregInv start w rest := h.congr (by rw [total_cons]; exact (zero_add _).symm)
    (fun p hp => h.right p (Multiset.mem_cons_of_mem hp))
    fun c hc => (Multiset.mem_cons.mp hc).resolve_left nofun
  unfold ChardevWorld.examine
  cases hfree : w.tables.majorFree major with
  | true =>
    refine ⟨w, [], ?_, by rwa [Multiset.coe_nil, zero_add]⟩
    rw [examine_free hfree]
    rfl
  | false =>
    obtain ⟨ha, hfound⟩ := hguard hfree
    obtain ⟨info, hinfo⟩ := h.tables.installed ha
    have hexamined : ∀ x ∈ w.examined ++ [⟨a, (w.tables.minorInfos a).isSome,
        w.tables.minorInfoPerMajor major⟩], x.installed = some x.read ∧ x.allocated = true := by
      intro x hx
      rcases List.mem_append.mp hx with hx | hx
      · exact h.written.acts.examined x hx
      · obtain rfl := List.mem_singleton.mp hx
        exact ⟨ha, by rw [hinfo]; rfl⟩
    rcases examine_spec h.tables ha hminor with ⟨status, hexamine⟩ |
      ⟨c, cdev, hc, hM, hm, hpending, hexamine⟩
    · rw [hexamine]
      refine ⟨_, [], rfl, ?_⟩
      rw [Multiset.coe_nil, zero_add]
      refine ⟨hgone.tables, hgone.nodup, fun p hp => (hgone.right p hp).frame
        (fun _ _ => ⟨rfl, rfl⟩) (fun hb _ _ => hb) (fun _ hr => hr) (fun hs => hs),
        hgone.settled, ?_⟩
      exact ⟨⟨hexamined, hgone.written.acts.stored, hgone.written.acts.once⟩, hgone.written.lt,
        hgone.written.inj, hgone.written.passed_lt, hgone.written.closing⟩
    · rw [hexamine]
      -- it is the one recorded, which no call is concerned with
      have hrec : w.found minor a = some c := by
        obtain ⟨-, -, b, i, hin, hrec⟩ := h.tables.recorded hc
        rw [hM] at hin
        obtain rfl : a = b := Option.some.inj (ha.symm.trans hin.1)
        rw [ChardevWorld.found, hin.2]
        exact hm ▸ hrec
      have hno : c ∉ total ChardevActivity.owned rest := fun hmem => by
        obtain ⟨q, hq, hown⟩ := mem_total.mp hmem
        have hright := hgone.right q hq
        have hnot := hfound c hrec q (Multiset.mem_cons_of_mem hq)
        have hwaits : ∀ {e}, w.tables.chardevs c = some e → e.unregPending = true → False :=
          fun he hp => by
            rw [hc] at he
            rw [← Option.some.inj he, hpending] at hp
            cases hp
        cases q with
        | register _ _ | examine _ _ _ => exact Multiset.notMem_zero c hown
        | charDevRegister c' _ _ _ | vmkapiFail c' _ _ _ =>
          exact hnot (Multiset.mem_singleton.mp hown).symm
        | charDevUnregister c' _ =>
          obtain rfl := Multiset.mem_singleton.mp hown
          obtain ⟨e, he, hp, -⟩ := hright
          exact hwaits he hp
        | cleanup c' =>
          obtain rfl := Multiset.mem_singleton.mp hown
          obtain ⟨e, he, hp⟩ := hright
          exact hwaits he hp
      obtain ⟨-, hreg, hstored⟩ := hgone.settled hc hno
      rw [hrec]
      refine ⟨_, _, rfl, ?_⟩
      rw [Multiset.coe_singleton, Multiset.singleton_add]
      refine hgone.change hc { cdev with unregPending := true } rfl rfl ?_
        (fun _ hr => hr) (fun hs => hs) hexamined
        (fun hfar => absurd (mem_total_cons.mpr (.inl (Multiset.mem_singleton_self c))) hfar)
        (fun q hq => ?_) (fun b _ hfar hmem => hfar (mem_total_cons.mpr (.inr hmem)))
        fun b hb => Multiset.mem_cons_of_mem hb
      · rw [total_cons]
        exact Multiset.nodup_cons.mpr ⟨hno, hgone.nodup⟩
      · rcases Multiset.mem_cons.mp hq with rfl | hq
        · refine .inr
            ⟨{ cdev with unregPending := true }, Function.update_self .., rfl, hreg, ?_, rfl⟩
          rw [← hM, ← hm]
          exact hstored
        · exact .inl ⟨hq, fun hown => hno (mem_total.mpr ⟨q, hq, hown⟩)⟩

theorem move_inv {o : Except Fault (ChardevWorld × List ChardevActivity)}
    (h : UnregInv start w (p ::ₘ rest)) (hguard : ExaminesLive (.ok ⟨w, p ::ₘ rest⟩) (.move p r))
    (hmove : w.move p r = some o) :
    ∃ w' qs, o = .ok (w', qs) ∧ UnregInv start w' (qs + rest) := by
  obtain ⟨hr, hgo⟩ := Option.ite_none_right_eq_some.mp hmove
  cases p with
  | register major minor =>
    cases hgo
    exact register_inv h hr
  | charDevRegister c a M m =>
    cases hgo
    exact charDevRegister_inv h hr
  | vmkapiFail c a M m =>
    cases hgo
    obtain ⟨d, hd, hinv⟩ := vmkapiFail_inv h
    exact ⟨_, [], by rw [hd]; rfl, by rwa [Multiset.coe_nil, zero_add]⟩
  | examine M m a =>
    cases hgo
    exact examine_inv h hguard
  | charDevUnregister c handle =>
    cases hgo
    exact ⟨_, _, rfl, charDevUnregister_inv h⟩
  | cleanup c =>
    cases hgo
    obtain ⟨d, hd, hinv⟩ := cleanup_inv h
    exact ⟨_, [], by rw [hd]; rfl, by rwa [Multiset.coe_nil, zero_add]⟩

theorem UnregInv.init (start : Nat × VmkplxrMinorInfo) :
    UnregInv start { tables := .init start.1 start.2 } 0 where
  tables := tables_init start.1 start.2
  nodup := Multiset.nodup_zero
  right := nofun
  settled := nofun
  written := ⟨⟨nofun, nofun, List.nodup_nil⟩, nofun, nofun, nofun, nofun⟩

/-- **Unregistration**: where it examines what is still installed, and no device that is still being
    registered, nothing fails, and it acts on live devices only, each of them once. -/
theorem unregistered_live {s : ChardevState} {es : List ChardevLabel}
    (hrun : Run (Guarded ChardevPoolStep ExaminesLive) (.init start) es s) :
    ∃ w, s = .ok w ∧ ActsOnLive w.shared := by
  have hinv : ∃ w, s = .ok w ∧ UnregInv start w.shared w.active := by
    refine hrun.invariant (I := fun s => ∃ w, s = .ok w ∧ UnregInv start w.shared w.active) ?_
      ⟨_, rfl, .init start⟩
    rintro _ e t ⟨w, rfl, h⟩ ⟨hguard, hstep⟩
    rcases Program.step_cases hstep with ⟨v, ev, u, ps, hv, rfl, hbegin, rfl⟩ |
      ⟨v, p, b, rest, o, hv, rfl, hmove, rfl⟩
    · cases hv
      exact ⟨_, rfl, begin_inv h hbegin⟩
    · cases hv
      obtain ⟨w', qs, rfl, h'⟩ := move_inv h hguard hmove
      exact ⟨_, rfl, h'⟩
  obtain ⟨w, rfl, h⟩ := hinv
  exact ⟨w, rfl, h.written.acts⟩

end Calls

/-! ## Two windows -/

def zeros (a : Nat) : Nat × VmkplxrMinorInfo := (a, ⟨fun _ => 0#32, fun _ => none⟩)

def newMemory (c a : Nat) : Returned where
  newDev := some (c, ⟨0, 0, 77, false⟩)
  minorInfo := some (zeros a)

def liveRun : List ChardevLabel :=
  [.begin (.register 0 0), .move (.register 0 0) (newMemory 1 1),
    .move (.charDevRegister 1 1 255 0) { vmkHandle := some 5 },
    .begin (.unregister 255 0), .begin (.unregister 255 0),
    .move (.examine 255 0 1) {}, .move (.charDevUnregister 1 ⟨0, 255, 0, 5⟩) {},
    .move (.examine 255 0 1) {}, .move (.cleanup 1) {}]

theorem unregistered_live_liveRun : ∃ w,
    Run (Guarded ChardevPoolStep ExaminesLive) (.init (zeros 0)) liveRun (.ok w) ∧
      w.shared.passed = [⟨0, 255, 0, 5⟩] ∧ ActsOnLive w.shared := by
  have hexec : ∃ w, Run.exec
      (fun s e => if ExaminesLive s e then chardevProgram.next? s e else none)
      (ChardevState.init (zeros 0)) liveRun = some (.ok w) ∧
      w.shared.passed = [⟨0, 255, 0, 5⟩] := ⟨_, rfl, rfl⟩
  obtain ⟨w, hw, hpassed⟩ := hexec
  have hsound : ∀ s e t, (if ExaminesLive s e then chardevProgram.next? s e else none) = some t →
      Guarded ChardevPoolStep ExaminesLive s e t := fun s e t h =>
    (guarded_eq_some_iff (T := ChardevPoolStep) (fun _ _ _ => Iff.rfl) s e t).mp h
  have hrun := Run.of_exec hsound hw
  obtain ⟨w', hw', hacts⟩ := unregistered_live hrun
  cases hw'
  exact ⟨w, hrun, hpassed, hacts⟩

/-- Between the read of `minorInfoPerMajor` and the section of the second unregistration the device is
    cleaned up, and its major registered again. -/
def freedRun : List ChardevLabel :=
  [.begin (.register 0 0), .move (.register 0 0) (newMemory 1 1),
    .move (.charDevRegister 1 1 255 0) { vmkHandle := some 5 },
    .begin (.unregister 255 0), .begin (.unregister 255 0),
    .move (.examine 255 0 1) {}, .move (.charDevUnregister 1 ⟨0, 255, 0, 5⟩) {},
    .move (.cleanup 1) {},
    .begin (.register 255 0), .move (.register 255 0) (newMemory 2 2),
    .move (.examine 255 0 1) {}]

/-- The device is unregistered before `vmk_CharDevRegister` has returned its handle. -/
def earlyRun : List ChardevLabel :=
  [.begin (.register 0 0), .move (.register 0 0) (newMemory 1 1), .begin (.unregister 255 0),
    .move (.examine 255 0 1) {}, .move (.charDevUnregister 1 ⟨0, 255, 0, 77⟩) {}]

theorem unregistered_beside :
    Run ChardevPoolStep (.init (zeros 0)) freedRun (.error .pointer) ∧
      ∃ w, Run ChardevPoolStep (.init (zeros 0)) earlyRun (.ok w) ∧
        w.shared.passed = [⟨0, 255, 0, 77⟩] ∧ w.shared.stored = [] ∧ ¬ActsOnLive w.shared := by
  have hfreed : Run.exec chardevProgram.next? (ChardevState.init (zeros 0)) freedRun =
      some (.error .pointer) := rfl
  have hearly : ∃ w, Run.exec chardevProgram.next? (ChardevState.init (zeros 0)) earlyRun =
      some (.ok w) ∧ w.shared.passed = [⟨0, 255, 0, 77⟩] ∧ w.shared.stored = [] := ⟨_, rfl, rfl, rfl⟩
  obtain ⟨w, hw, hpassed, hstored⟩ := hearly
  refine ⟨Run.of_exec (fun _ _ _ h => h) hfreed, w, Run.of_exec (fun _ _ _ h => h) hw, hpassed,
    hstored, fun hacts => ?_⟩
  have hmem := hacts.stored ⟨0, 255, 0, 77⟩ (hpassed ▸ List.mem_singleton_self _)
  rw [hstored] at hmem
  cases hmem

end VmkDrivers.Vmkplexer
