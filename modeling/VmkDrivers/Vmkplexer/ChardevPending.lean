/-
  VmkDrivers.Vmkplexer.ChardevPending

  Unregistrations that fail.

  An unregistration marks its device under `chardevRegSem`, and calls
  `vmk_CharDevUnregister` behind that section; other calls may come in between.
  Nobody takes the mark back where the vmkernel refuses, and a call that meets
  the mark reports success, whatever becomes of the one that has set it
  (`unregister_twice`).  Where no call is refused and none meets the mark of one
  that is still under way, a failure leaves the device as it was, and a success
  is that of the vmkernel (`unregister_reports_iff`).

  Apart from the marks of the calls under way, such a state is one of the
  vmkplexer (`settled`), whose lemmas are those of whole calls.
-/

import VmkDrivers.Lib.ExceptLoop
import VmkDrivers.Vmkplexer.ChardevNumbers

namespace VmkDrivers.Vmkplexer

open VmkDrivers.Lib

/-- The vmkplexer, with the handles that are on their way to `vmk_CharDevUnregister`. -/
structure Unregistering where
  plexer : Plexer
  passed : List Nat := []

/-- A registration, an unregistration up to the end of its section, what `vmk_CharDevUnregister` does
    with a handle, or a cleanup. -/
inductive UnregEvent where
  | register (call : RegisterCall)
  | unregister (major minor : Nat)
  | charDevUnregister (handle : Nat) (refused : Bool)
  | cleanup (c : Nat)

namespace Unregistering

variable (s : Unregistering)

/-- `vmkplxr_UnregisterChardev` up to the end of its section: what it returns, if it does not go on. -/
def unregister (major minor : Nat) : Except Fault (Option VmkStatus × Unregistering) := do
  vmkAssert (major ≠ dynamicMajor) .argument
  vmkAssert (minor ≠ dynamicMinor) .argument
  match s.plexer.tables.minorInfoPerMajor major with
  | none => return (some .badParam, s)
  | some a =>
    match ← s.plexer.tables.examine major minor a with
    | (.error status, d) =>
      return (some status, { s with plexer := { s.plexer with tables := d } })
    | (.ok handle, d) =>
      return (none, { plexer := { s.plexer with tables := d }, passed := handle :: s.passed })

/-- `vmk_CharDevUnregister`, which is what the call returns. -/
def charDevUnregister (handle : Nat) (refused : Bool) : VmkStatus × Unregistering :=
  let s := { s with passed := s.passed.erase handle }
  if refused then (.failure, s)
  else
    let (status, p) := s.plexer.charDevUnregister handle
    (status, { s with plexer := p })

def next? (s : Except Fault Unregistering) (e : UnregEvent) : Option (Except Fault Unregistering) :=
  match s, e with
  | .error _, _ => none
  | .ok s, .register call =>
    if call.Possible s.plexer then
      some ((s.plexer.registerChardev call).map fun r => { s with plexer := r.2 })
    else none
  | .ok s, .unregister major minor => some ((s.unregister major minor).map Prod.snd)
  | .ok s, .charDevUnregister handle refused =>
    if handle ∈ s.passed then some (.ok (s.charDevUnregister handle refused).2) else none
  | .ok s, .cleanup c =>
    if c ∈ s.plexer.closing then
      some ((s.plexer.cleanup c).map fun p => { s with plexer := p })
    else none

end Unregistering

def UnregStep (s : Except Fault Unregistering) (e : UnregEvent) (t : Except Fault Unregistering) :
    Prop := Unregistering.next? s e = some t

def Unregistering.init (start : Nat × VmkplxrMinorInfo) : Unregistering where
  plexer := .init start

/-! ## What is promised -/

/-- What a call returns is right: where it fails, nothing has changed, or the device is not marked,
    as it was when the call began; where it succeeds, the vmkernel is closing the device. -/
def ReportsRight (s : Except Fault Unregistering) (e : UnregEvent) : Prop :=
  match s, e with
  | .ok s, .unregister major minor => ∀ status s', s.unregister major minor = .ok (some status, s') →
      (status ≠ .ok → s'.plexer.tables = s.plexer.tables) ∧
        (status = .ok → ∃ c cdev, s'.plexer.tables.chardevs c = some cdev ∧ cdev.major = major ∧
          cdev.minor = minor ∧ c ∈ s'.plexer.closing)
  | .ok s, .charDevUnregister handle refused => ∀ c, s.plexer.registered handle = some c →
      ∀ status s', s.charDevUnregister handle refused = (status, s') →
      (status ≠ .ok → ∀ cdev, s'.plexer.tables.chardevs c = some cdev → cdev.unregPending = false) ∧
        (status = .ok → c ∈ s'.plexer.closing)
  | _, _ => True

/-- The vmkernel does not refuse, and no call finds a device whose unregistration is still under
    way. -/
def Unrefused (s : Except Fault Unregistering) (e : UnregEvent) : Prop :=
  match s, e with
  | .ok s, .unregister major minor => ∀ handle ∈ s.passed, ∀ c, s.plexer.registered handle = some c →
      ∀ cdev, s.plexer.tables.chardevs c = some cdev → ¬(cdev.major = major ∧ cdev.minor = minor)
  | .ok _, .charDevUnregister _ refused => refused = false
  | _, _ => True

/-! ## The calls under way -/

namespace Unregistering

def settled (s : Unregistering) : Plexer where
  tables := s.plexer.tables
  registered := fun handle => if handle ∈ s.passed then none else s.plexer.registered handle
  closing := s.passed.filterMap s.plexer.registered ++ s.plexer.closing

end Unregistering

structure UnregisteringInv (start : Nat × VmkplxrMinorInfo) (s : Unregistering) : Prop where
  settled : PlexerInv start s.settled
  passed : ∀ handle ∈ s.passed, ∃ c, s.plexer.registered handle = some c
  nodup : s.passed.Nodup

section Steps

variable {start : Nat × VmkplxrMinorInfo} {s s' : Unregistering} {p : Plexer}
  {major minor c handle : Nat} {cdev : VmkplxrCharDev} {call : RegisterCall}

theorem PlexerInv.perm (h : PlexerInv start p) {closing : List Nat}
    (hperm : closing.Perm p.closing) : PlexerInv start { p with closing := closing } := by
  refine ⟨h.tables, fun hc => ?_, h.registered, fun hc => h.closing (hperm.mem_iff.mp hc),
    hperm.nodup_iff.mpr h.nodup⟩
  have hlive := h.live hc
  split
  · next hpending =>
    rw [if_pos hpending] at hlive
    exact hperm.mem_iff.mpr hlive
  · next hpending => rwa [if_neg hpending] at hlive

theorem UnregisteringInv.notMem_closing (h : UnregisteringInv start s) (hmem : handle ∈ s.passed)
    (hc : s.plexer.registered handle = some c) : c ∉ s.plexer.closing := by
  have hnodup : (s.passed.filterMap s.plexer.registered ++ s.plexer.closing).Nodup := h.settled.nodup
  exact fun hclosing => (List.nodup_append.mp hnodup).2.2 c
    (List.mem_filterMap.mpr ⟨handle, hmem, hc⟩) c hclosing rfl

theorem UnregisteringInv.marked (h : UnregisteringInv start s) (hmem : handle ∈ s.passed)
    (hc : s.plexer.registered handle = some c) :
    ∃ cdev, s.plexer.tables.chardevs c = some cdev ∧ cdev.unregPending = true :=
  h.settled.closing (List.mem_append_left _ (List.mem_filterMap.mpr ⟨handle, hmem, hc⟩))

theorem settled_register (h : UnregisteringInv start s) (hcall : call.Possible s.plexer) :
    (s.plexer.registerChardev call).map (fun r => { s with plexer := r.2 : Unregistering }.settled) =
      (s.settled.registerChardev call).map Prod.snd := by
  have hfresh : ∀ handle ∈ call.vmkHandle, handle ∉ s.passed := fun handle hhandle hmem => by
    obtain ⟨c, hc⟩ := h.passed handle hmem
    rw [hcall.2.2.2 handle hhandle] at hc
    cases hc
  unfold Plexer.registerChardev
  cases call.newDev with
  | none => rfl
  | some x =>
    obtain ⟨c, cdev⟩ := x
    dsimp only
    split
    · rfl
    · have htables : s.settled.tables = s.plexer.tables := rfl
      rw [htables]
      cases s.plexer.tables.publish call.major call.minor c cdev call.minorInfo with
      | error fault => rfl
      | ok r =>
        obtain ⟨published, d⟩ := r
        cases published with
        | none => rfl
        | some numbers =>
          obtain ⟨a, reqMajor, reqMinor⟩ := numbers
          cases hhandle : call.vmkHandle with
          | some handle =>
            have hnot := hfresh handle hhandle
            refine congrArg Except.ok ?_
            simp only [Unregistering.settled, Plexer.mk.injEq, true_and]
            -- the new handle is none of those under way
            refine ⟨funext fun b => ?_, congrArg (· ++ _) ?_⟩
            · by_cases hb : b = handle
              · rw [hb, if_neg hnot, Function.update_self, Function.update_self]
              · rw [Function.update_of_ne hb, Function.update_of_ne hb]
            · refine List.filterMap_congr fun b hb => ?_
              exact Function.update_of_ne (fun heq : b = handle => hnot (heq ▸ hb)) _ _
          -- the vmkernel refuses, and the device is taken back out
          | none =>
            simp only [bind, Except.bind]
            cases d.unpublish a reqMajor reqMinor c <;> rfl

theorem Unregistering.unregister_eq (s : Unregistering) (hmajor : major ≠ dynamicMajor)
    (hminor : minor ≠ dynamicMinor) : s.unregister major minor =
      match s.plexer.tables.minorInfoPerMajor major with
      | none => .ok (some .badParam, s)
      | some a => do
        match ← s.plexer.tables.examine major minor a with
        | (.error status, d) =>
          return (some status, { s with plexer := { s.plexer with tables := d } })
        | (.ok handle, d) =>
          return (none,
            { plexer := { s.plexer with tables := d }, passed := handle :: s.passed }) := by
  rw [Unregistering.unregister]
  simp only [vmkAssert, ne_eq, hmajor, hminor, not_false_eq_true, if_true, bind, Except.bind]
  rfl

theorem settled_registered : s.settled.registered handle = some c ↔
    handle ∉ s.passed ∧ s.plexer.registered handle = some c := by
  simp only [Unregistering.settled]
  split <;> simp_all

theorem Unregistering.unregister_asserted (s : Unregistering)
    (h : ¬(major ≠ dynamicMajor ∧ minor ≠ dynamicMinor)) :
    s.unregister major minor = .error .argument := by
  rw [Unregistering.unregister]
  by_cases hmajor : major = dynamicMajor
  · simp [vmkAssert, hmajor, bind, Except.bind]
  · have hminor : minor = dynamicMinor := by_contra fun hminor => h ⟨hmajor, hminor⟩
    simp [vmkAssert, hmajor, hminor, bind, Except.bind]

theorem settled_pass (hreg : s.settled.registered handle = some c) (d : Chardevs) :
    ({ plexer := { s.plexer with tables := d }, passed := handle :: s.passed } :
        Unregistering).settled = ({ s.settled with tables := d }.charDevUnregister handle).2 := by
  obtain ⟨hnot, hc⟩ := settled_registered.mp hreg
  simp only [Plexer.charDevUnregister, hreg]
  simp only [Unregistering.settled, Plexer.mk.injEq, true_and]
  refine ⟨funext fun b => ?_, ?_⟩
  · by_cases hb : b = handle
    · rw [hb, if_pos List.mem_cons_self, Function.update_self]
    · rw [Function.update_of_ne hb]
      simp only [List.mem_cons, hb, false_or]
  · rw [List.filterMap_cons_some hc, List.cons_append]

theorem unregister_cases (h : UnregisteringInv start s) (hmajor : major ≠ dynamicMajor)
    (hminor : minor ≠ dynamicMinor) :
    ((∀ c cdev, s.plexer.tables.chardevs c = some cdev → cdev.major = major →
        cdev.minor ≠ minor) ∧ s.unregister major minor = .ok (some .badParam, s)) ∨
      ∃ c cdev, s.plexer.tables.chardevs c = some cdev ∧ cdev.major = major ∧ cdev.minor = minor ∧
        ((cdev.unregPending = true ∧ s.unregister major minor = .ok (some .ok, s)) ∨
          (cdev.unregPending = false ∧ ∃ s', s.unregister major minor = .ok (none, s') ∧
            UnregisteringInv start s')) := by
  have htables : Tables start s.plexer.tables := h.settled.tables
  rw [s.unregister_eq hmajor hminor]
  cases ha : s.plexer.tables.minorInfoPerMajor major with
  | none =>
    refine .inl ⟨fun c cdev hc hM _ => ?_, rfl⟩
    obtain ⟨-, -, a, info, hin, -⟩ := htables.recorded hc
    rw [hM] at hin
    rw [hin.1] at ha
    cases ha
  | some a =>
    rcases examine_cases htables ha hminor with ⟨hno, hexamine⟩ |
      ⟨c, cdev, hc, hM, hm, ⟨hpending, hexamine⟩ | ⟨hpending, hexamine⟩⟩
    · exact .inl ⟨hno, by simp only [hexamine]; rfl⟩
    · exact .inr ⟨c, cdev, hc, hM, hm, .inl ⟨hpending, by simp only [hexamine]; rfl⟩⟩
    · have hreg : s.settled.registered cdev.vmkHandle = some c := by
        have hlive := h.settled.live hc
        rwa [hpending] at hlive
      generalize s.plexer.tables.setChardev c (some { cdev with unregPending := true }) = d at hexamine
      -- the call that comes to its end at once
      have hwhole : s.settled.unregisterChardev major minor =
          .ok ({ s.settled with tables := d }.charDevUnregister cdev.vmkHandle) := by
        have hminorInfo : s.settled.tables.minorInfoPerMajor major = some a := ha
        have hsame : s.settled.tables.examine major minor a = .ok (.ok cdev.vmkHandle, d) := hexamine
        unfold Plexer.unregisterChardev
        simp only [vmkAssert, ne_eq, hmajor, hminor, not_false_eq_true, if_true, hminorInfo, hsame,
          bind, Except.bind]
        rfl
      obtain ⟨hnot, hdev⟩ := settled_registered.mp hreg
      refine .inr ⟨c, cdev, hc, hM, hm, .inr ⟨hpending, _, by simp only [hexamine]; rfl, ?_⟩⟩
      refine ⟨?_, fun handle hmem => ?_, List.nodup_cons.mpr ⟨hnot, h.nodup⟩⟩
      · rcases unregisterChardev_spec h.settled major minor with hfault | ⟨status, p', hok, hinv⟩
        · rw [hwhole] at hfault
          cases hfault
        · rw [hwhole] at hok
          rw [settled_pass hreg, Except.ok.inj hok]
          exact hinv
      · rcases List.mem_cons.mp hmem with rfl | hmem
        · exact ⟨c, hdev⟩
        · exact h.passed handle hmem

theorem charDevUnregister_eq (hc : s.plexer.registered handle = some c) :
    ∃ t, s.charDevUnregister handle false = (.ok, t) ∧ t.plexer.tables = s.plexer.tables ∧
      t.plexer.registered = Function.update s.plexer.registered handle none ∧
      t.plexer.closing = c :: s.plexer.closing ∧ t.passed = s.passed.erase handle := by
  simp only [Unregistering.charDevUnregister, Plexer.charDevUnregister, hc, Bool.false_eq_true,
    if_false]
  exact ⟨_, rfl, rfl, rfl, rfl, rfl⟩

theorem charDevUnregister_closing (h : UnregisteringInv start s) (hmem : handle ∈ s.passed)
    (hc : s.plexer.registered handle = some c) :
    ∃ t, s.charDevUnregister handle false = (.ok, t) ∧ c ∈ t.plexer.closing ∧
      UnregisteringInv start t := by
  obtain ⟨t, ht, htables, hregistered, hclosing, hpassed⟩ := charDevUnregister_eq hc
  have hnot : handle ∉ s.passed.erase handle := h.nodup.not_mem_erase
  have hrest : (s.passed.erase handle).filterMap (Function.update s.plexer.registered handle none) =
      (s.passed.erase handle).filterMap s.plexer.registered :=
    List.filterMap_congr fun b hb =>
      Function.update_of_ne (fun heq : b = handle => hnot (heq ▸ hb)) _ _
  refine ⟨t, ht, hclosing ▸ List.mem_cons_self, ?_, fun b hb => ?_, hpassed ▸ h.nodup.erase handle⟩
  · -- the device is closed now, as it was among those under way
    have hperm : t.settled.closing.Perm s.settled.closing := by
      simp only [Unregistering.settled, hpassed, hregistered, hclosing, hrest]
      refine List.perm_middle.trans ?_
      rw [← List.cons_append, ← List.filterMap_cons_some hc]
      exact ((List.perm_cons_erase hmem).symm.filterMap _).append_right _
    -- the handle is gone from both, and the rest is as it was
    have hsame : t.settled = { s.settled with closing := t.settled.closing } := by
      simp only [Unregistering.settled, htables, hpassed, hregistered, Plexer.mk.injEq, true_and,
        and_true]
      refine funext fun b => ?_
      by_cases hb : b = handle
      · rw [hb, if_neg hnot, if_pos hmem, Function.update_self]
      · rw [Function.update_of_ne hb]
        simp only [List.mem_erase_of_ne hb]
    rw [hsame]
    exact h.settled.perm hperm
  · rw [hpassed] at hb
    have hne : b ≠ handle := fun heq => hnot (heq ▸ hb)
    obtain ⟨c', hc'⟩ := h.passed b (List.mem_of_mem_erase hb)
    exact ⟨c', by rw [hregistered, Function.update_of_ne hne, hc']⟩

theorem UnregisteringInv.cleanup (h : UnregisteringInv start s) (hc : c ∈ s.plexer.closing) :
    ∃ p, s.plexer.cleanup c = .ok p ∧ UnregisteringInv start { s with plexer := p } := by
  obtain ⟨p', hcleanup, hinv⟩ := cleanup_spec h.settled (List.mem_append_right _ hc)
  obtain ⟨d, hd, hp'⟩ := bind_eq_ok.mp hcleanup
  have hd : s.plexer.tables.unregCleanup c = .ok d := hd
  have hnot : c ∉ s.passed.filterMap s.plexer.registered := fun hmem => by
    obtain ⟨handle, hmem, hreg⟩ := List.mem_filterMap.mp hmem
    exact h.notMem_closing hmem hreg hc
  have hp : s.plexer.cleanup c =
      .ok ⟨d, s.plexer.registered, s.plexer.closing.erase c⟩ := by
    rw [Plexer.cleanup, hd]
    rfl
  refine ⟨_, hp, ?_, h.passed, h.nodup⟩
  have hsettled : ({ s with plexer := ⟨d, s.plexer.registered, s.plexer.closing.erase c⟩ } :
      Unregistering).settled = p' := by
    rw [← Except.ok.inj hp']
    simp only [Unregistering.settled, List.erase_append_right _ hnot]
  rw [hsettled]
  exact hinv

theorem registered_kept {r : VmkStatus × Plexer} (hcall : call.Possible p)
    (hreg : p.registerChardev call = .ok r) (hc : p.registered handle = some c) :
    r.2.registered handle = some c := by
  unfold Plexer.registerChardev at hreg
  split at hreg
  · cases hreg
    exact hc
  · split at hreg
    · cases hreg
      exact hc
    · obtain ⟨⟨published, d⟩, -, hreg⟩ := bind_eq_ok.mp hreg
      cases published with
      | none =>
        cases hreg
        exact hc
      | some numbers =>
        cases hhandle : call.vmkHandle with
        | some handle' =>
          rw [hhandle] at hreg
          cases hreg
          -- a handle that is given is none of those there are
          refine (Function.update_of_ne (fun heq : handle = handle' => ?_) _ _).trans hc
          rw [heq, hcall.2.2.2 handle' hhandle] at hc
          cases hc
        | none =>
          rw [hhandle] at hreg
          obtain ⟨d', -, hreg⟩ := bind_eq_ok.mp hreg
          cases hreg
          exact hc

theorem UnregisteringInv.register (h : UnregisteringInv start s) (hcall : call.Possible s.plexer) :
    ∃ r, s.plexer.registerChardev call = .ok r ∧
      UnregisteringInv start { s with plexer := r.2 } := by
  have hcall' : call.Possible s.settled := by
    refine ⟨hcall.1, hcall.2.1, hcall.2.2.1, fun handle hhandle => ?_⟩
    simp only [Unregistering.settled, hcall.2.2.2 handle hhandle, ite_self]
  obtain ⟨status, p', hreg, hinv, -⟩ := registerChardev_spec h.settled hcall'
  have hsame := settled_register h hcall
  rw [hreg] at hsame
  cases hr : s.plexer.registerChardev call with
  | error fault =>
    rw [hr] at hsame
    cases hsame
  | ok r =>
    rw [hr] at hsame
    have hsettled : ({ s with plexer := r.2 } : Unregistering).settled = p' := Except.ok.inj hsame
    refine ⟨r, rfl, ?_, fun handle hmem => ?_, h.nodup⟩
    · rw [hsettled]
      exact hinv
    · exact (h.passed handle hmem).imp fun c hc => registered_kept hcall hr hc

theorem unregister_right (h : UnregisteringInv start s) (hmajor : major ≠ dynamicMajor)
    (hminor : minor ≠ dynamicMinor) :
    (ReportsRight (.ok s) (.unregister major minor) ↔ Unrefused (.ok s) (.unregister major minor)) ∧
      (Unrefused (.ok s) (.unregister major minor) →
        ∀ u, (s.unregister major minor).map Prod.snd = .ok u → UnregisteringInv start u) := by
  rcases unregister_cases h hmajor hminor with ⟨hno, hunreg⟩ |
    ⟨c, cdev, hc, hM, hm, ⟨hpending, hunreg⟩ | ⟨hpending, s', hunreg, hinv⟩⟩
  -- no device has the numbers
  · refine ⟨iff_of_true (fun status s' hs' => ?_) fun handle _ c _ cdev hc hand => ?_, ?_⟩
    · rw [hunreg] at hs'
      cases hs'
      exact ⟨fun _ => rfl, nofun⟩
    · exact hno c cdev hc hand.1 hand.2
    · rw [hunreg]
      exact fun _ u hu => Except.ok.inj hu ▸ h
  · -- a device with a mark is under way or closed
    have hmem : c ∈ s.settled.closing := by
      have hlive := h.settled.live hc
      rwa [if_pos hpending] at hlive
    -- the numbers are those of one device only
    have hsole : ∀ {c' cdev'}, s.plexer.tables.chardevs c' = some cdev' → cdev'.major = major →
        cdev'.minor = minor → c' = c := fun {c' cdev'} hc' hM' hm' =>
      h.settled.numberSpace.distinct c' c cdev' cdev hc' hc (hM'.trans hM.symm) (hm'.trans hm.symm)
    refine ⟨⟨fun hright handle hpassed c' hc' cdev' hcdev' hand => ?_, fun hcareful status s' hs' =>
      ?_⟩, ?_⟩
    · obtain ⟨-, hok⟩ := hright _ _ hunreg
      obtain ⟨b, e, hb, hM', hm', hclosing⟩ := hok rfl
      obtain rfl := hsole hb hM' hm'
      obtain rfl := hsole hcdev' hand.1 hand.2
      exact h.notMem_closing hpassed hc' hclosing
    · rw [hunreg] at hs'
      cases hs'
      refine ⟨fun hne => absurd rfl hne, fun _ => ⟨c, cdev, hc, hM, hm, ?_⟩⟩
      refine (List.mem_append.mp hmem).resolve_left fun hunder => ?_
      obtain ⟨handle, hpassed, hreg⟩ := List.mem_filterMap.mp hunder
      exact hcareful handle hpassed c hreg cdev hc ⟨hM, hm⟩
    · rw [hunreg]
      exact fun _ u hu => Except.ok.inj hu ▸ h
  -- the device is not marked, so no call under way has it
  · refine ⟨iff_of_true (fun status s'' hs'' => ?_) fun handle hpassed c' hc' cdev' hcdev' hand => ?_,
      ?_⟩
    · rw [hunreg] at hs''
      cases hs''
    · obtain ⟨e, he, hmarked⟩ := h.marked hpassed hc'
      obtain rfl := h.settled.numberSpace.distinct c' c cdev' cdev hcdev' hc
        (hand.1.trans hM.symm) (hand.2.trans hm.symm)
      obtain rfl := Option.some.inj (he.symm.trans hc)
      rw [hpending] at hmarked
      cases hmarked
    · rw [hunreg]
      exact fun _ u hu => Except.ok.inj hu ▸ hinv

/-- **A step**: it reports what is so exactly if nothing is refused and no call under way is met, and
    then what is known of the calls under way is kept. -/
theorem unregStep_spec {s t : Except Fault Unregistering} {e : UnregEvent}
    (h : ∀ u, s = .ok u → UnregisteringInv start u) (hstep : UnregStep s e t) :
    (ReportsRight s e ↔ Unrefused s e) ∧
      (Unrefused s e → ∀ u, t = .ok u → UnregisteringInv start u) := by
  cases s with
  | error fault => cases hstep
  | ok s =>
    have h := h s rfl
    cases e with
    | register call =>
      refine ⟨Iff.rfl, fun _ u hu => ?_⟩
      obtain ⟨hcall, heq⟩ := Option.ite_none_right_eq_some.mp hstep
      obtain ⟨r, hr, hinv⟩ := h.register hcall
      rw [hr] at heq
      cases heq
      exact Except.ok.inj hu ▸ hinv
    | unregister major minor =>
      cases hstep
      by_cases hassert : major ≠ dynamicMajor ∧ minor ≠ dynamicMinor
      · exact unregister_right h hassert.1 hassert.2
      · -- an assertion on what is passed fails; no device has such a number
        have hfault := s.unregister_asserted hassert
        refine ⟨iff_of_true (fun status s' hs' => ?_) fun handle _ c _ cdev hc hand => ?_, ?_⟩
        · rw [hfault] at hs'
          cases hs'
        · obtain ⟨hM, -, hm⟩ := h.settled.numberSpace.range c cdev hc
          exact hassert ⟨hand.1 ▸ hM, hand.2 ▸ Nat.ne_of_lt hm⟩
        · rw [hfault]
          exact fun _ u hu => nomatch hu
    | charDevUnregister handle refused =>
      obtain ⟨hmem, heq⟩ := Option.ite_none_right_eq_some.mp hstep
      cases heq
      obtain ⟨c, hc⟩ := h.passed handle hmem
      cases refused with
      | false =>
        obtain ⟨t, ht, hclosing, hinv⟩ := charDevUnregister_closing h hmem hc
        refine ⟨iff_of_true (fun c' hc' status s' hs' => ?_) rfl, fun _ u hu => ?_⟩
        · rw [ht] at hs'
          cases hs'
          obtain rfl := Option.some.inj (hc.symm.trans hc')
          exact ⟨fun hne => absurd rfl hne, fun _ => hclosing⟩
        · rw [ht] at hu
          exact Except.ok.inj hu ▸ hinv
      | true =>
        -- the mark is not taken back
        obtain ⟨cdev, hcdev, hmarked⟩ := h.marked hmem hc
        refine ⟨iff_of_false (fun hright => ?_) nofun, nofun⟩
        have hclear := (hright c hc _ _ rfl).1 nofun cdev hcdev
        rw [hmarked] at hclear
        cases hclear
    | cleanup c =>
      refine ⟨Iff.rfl, fun _ u hu => ?_⟩
      obtain ⟨hc, heq⟩ := Option.ite_none_right_eq_some.mp hstep
      obtain ⟨p, hp, hinv⟩ := h.cleanup hc
      rw [hp] at heq
      cases heq
      exact Except.ok.inj hu ▸ hinv

theorem UnregisteringInv.init (start : Nat × VmkplxrMinorInfo) :
    UnregisteringInv start (.init start) :=
  ⟨.init start, nofun, List.nodup_nil⟩

/-- **Reports**: all calls of a run report what is so exactly if the vmkernel refuses none of them, and
    none meets the mark of one that is still under way. -/
theorem unregister_reports_iff (start : Nat × VmkplxrMinorInfo) (es : List UnregEvent)
    (t : Except Fault Unregistering) :
    Run (Guarded UnregStep ReportsRight) (.ok (.init start)) es t ↔
      Run (Guarded UnregStep Unrefused) (.ok (.init start)) es t := by
  refine Run.guarded_iff (I := fun s => ∀ u, s = .ok u → UnregisteringInv start u)
    (fun s e t h hstep => unregStep_spec h hstep) fun u hu => ?_
  exact Except.ok.inj hu ▸ .init start

end Steps

/-- The unregistration of the device 10/0, which the vmkernel refuses, leaves its mark; the next one
    succeeds, and nothing is unregistered. -/
theorem unregister_twice :
    ∃ s t, Run UnregStep (.ok (.init (0, zeroInfo)))
        [.register (.granted 10 0 1 1 1), .unregister 10 0] (.ok s) ∧
      UnregStep (.ok s) (.charDevUnregister 1 true) (.ok t) ∧
      ¬ReportsRight (.ok s) (.charDevUnregister 1 true) ∧
      t.unregister 10 0 = .ok (some .ok, t) ∧ t.plexer.registered 1 = some 1 ∧
      ¬ReportsRight (.ok t) (.unregister 10 0) := by
  have hexec : ∃ s t, Run.exec Unregistering.next? (.ok (.init (0, zeroInfo)))
        [.register (.granted 10 0 1 1 1), .unregister 10 0] = some (.ok s) ∧
      Unregistering.next? (.ok s) (.charDevUnregister 1 true) = some (.ok t) ∧
      s.charDevUnregister 1 true = (.failure, t) ∧ s.plexer.registered 1 = some 1 ∧
      t.plexer.tables.chardevs 1 = some ⟨10, 0, 1, true⟩ ∧
      t.unregister 10 0 = .ok (some .ok, t) ∧ t.plexer.registered 1 = some 1 ∧
      t.plexer.closing = [] := ⟨_, _, rfl, rfl, rfl, rfl, rfl, rfl, rfl, rfl⟩
  obtain ⟨s, t, hs, ht, hrefused, hbefore, hmarked, hagain, hreg, hclosing⟩ := hexec
  refine ⟨s, t, Run.of_exec (fun _ _ _ h => h) hs, ht, fun hright => ?_, hagain, hreg, fun hright => ?_⟩
  · have hclear := (hright 1 hbefore _ _ hrefused).1 nofun _ hmarked
    cases hclear
  · obtain ⟨c, -, -, -, -, hc⟩ := (hright _ _ hagain).2 rfl
    rw [hclosing] at hc
    cases hc

end VmkDrivers.Vmkplexer
