/-
  VmkDrivers.Vmkplexer.ChardevNumbers

  Registrations, unregistrations and cleanups of character devices, one after
  the other.

  Whatever the order, and whichever allocations fail, the tables are in step
  with the devices, no assertion on them fails, a number that is free can be
  had, and without devices the tables are as they were in the beginning
  (`chardev_numbers`).  A dynamic minor is only to be had under a major that is
  named (`dynamic_both_refused`).
-/

import VmkDrivers.Lib.Transition
import VmkDrivers.Vmkplexer.ChardevTables

namespace VmkDrivers.Vmkplexer

open VmkDrivers.Lib

/-- A call of `vmkplxr_RegisterChardev`, with the memory that `vmk_HeapAlloc` returns each time and
    the handle that `vmk_CharDevRegister` does. -/
structure RegisterCall where
  major : Nat
  minor : Nat
  newDev : Option (Nat × VmkplxrCharDev)
  vmkDevicePrivate : Bool
  minorInfo : Option (Nat × VmkplxrMinorInfo)
  vmkHandle : Option Nat

/-- The vmkplexer, and the devices of the vmkernel: those of its handles, and those whose cleanup it
    still has to call. -/
structure Plexer where
  tables : Chardevs
  registered : Nat → Option Nat := fun _ => none
  closing : List Nat := []

/-- `vmk_CharDevRegister` stores the handle. -/
def Chardevs.setHandle (d : Chardevs) (c handle : Nat) : Chardevs :=
  match d.chardevs c with
  | none => d
  | some cdev => d.setChardev c (some { cdev with vmkHandle := handle })

namespace Plexer

variable (p : Plexer)

/-- `vmkplxr_RegisterChardev` -/
def registerChardev (call : RegisterCall) : Except Fault (VmkStatus × Plexer) :=
  match call.newDev with
  | none => .ok (.noMemory, p)
  | some (c, cdev) =>
    if call.vmkDevicePrivate = false then .ok (.noMemory, p)
    else do
      let (r, d) ← p.tables.publish call.major call.minor c cdev call.minorInfo
      match r, call.vmkHandle with
      | none, _ => return (.noMemory, { p with tables := d })
      | some _, some handle =>
        return (.ok, { p with
          tables := d.setHandle c handle
          registered := Function.update p.registered handle (some c) })
      | some (a, reqMajor, reqMinor), none =>
        let d ← d.unpublish a reqMajor reqMinor c
        return (.failure, { p with tables := d })

/-- `vmk_CharDevUnregister` -/
def charDevUnregister (handle : Nat) : VmkStatus × Plexer :=
  match p.registered handle with
  | none => (.failure, p)
  | some c =>
    (.ok, { p with
      registered := Function.update p.registered handle none
      closing := c :: p.closing })

/-- `vmkplxr_UnregisterChardev` -/
def unregisterChardev (major minor : Nat) : Except Fault (VmkStatus × Plexer) := do
  vmkAssert (major ≠ dynamicMajor) .argument
  vmkAssert (minor ≠ dynamicMinor) .argument
  match p.tables.minorInfoPerMajor major with
  | none => return (.badParam, p)
  | some a =>
    match ← p.tables.examine major minor a with
    | (.error status, d) => return (status, { p with tables := d })
    | (.ok handle, d) => return { p with tables := d }.charDevUnregister handle

/-- The vmkernel calls `VmkplxrCharUnregCleanup`. -/
def cleanup (c : Nat) : Except Fault Plexer := do
  let d ← p.tables.unregCleanup c
  return { p with tables := d, closing := p.closing.erase c }

end Plexer

inductive ChardevCall where
  | register (call : RegisterCall)
  | unregister (major minor : Nat)
  | cleanup (c : Nat)

/-- The numbers are in range, and new memory and a new handle are not in use. -/
def RegisterCall.Possible (call : RegisterCall) (p : Plexer) : Prop :=
  (call.major < 256 ∧ call.minor < 256) ∧
    (∀ x ∈ call.newDev, p.tables.chardevs x.1 = none) ∧
    (∀ x ∈ call.minorInfo, p.tables.minorInfos x.1 = none) ∧
    ∀ handle ∈ call.vmkHandle, p.registered handle = none

instance (call : RegisterCall) (p : Plexer) : Decidable (call.Possible p) := by
  unfold RegisterCall.Possible
  infer_instance

def chardevNext? (s : Except Fault Plexer) (e : ChardevCall) : Option (Except Fault Plexer) :=
  match s, e with
  | .error _, _ => none
  | .ok p, .register call =>
    if call.Possible p then some ((p.registerChardev call).map Prod.snd) else none
  | .ok p, .unregister major minor => some ((p.unregisterChardev major minor).map Prod.snd)
  | .ok p, .cleanup c => if c ∈ p.closing then some (p.cleanup c) else none

def ChardevStep (s : Except Fault Plexer) (e : ChardevCall) (t : Except Fault Plexer) : Prop :=
  chardevNext? s e = some t

def Plexer.init (start : Nat × VmkplxrMinorInfo) : Plexer where
  tables := .init start.1 start.2

/-! ## What is promised -/

/-- The tables as `vmkplxr_ChardevsInit` leaves them, but for the devices at the minors of the misc
    major that were in use since: they are NULL. -/
structure AsInitialised (start : Nat × VmkplxrMinorInfo) (d : Chardevs) : Prop where
  majors : d.majorsFreeBitset = (Chardevs.init start.1 start.2).majorsFreeBitset
  minorInfos : d.minorInfoPerMajor = (Chardevs.init start.1 start.2).minorInfoPerMajor ∧
    ∀ a, a ≠ start.1 → d.minorInfos a = none
  misc : ∃ info, d.minorInfos start.1 = some info ∧
    info.minorsFreeBitset = start.2.fresh.minorsFreeBitset ∧ ∀ minor,
      info.chardevMinors minor = start.2.chardevMinors minor ∨ info.chardevMinors minor = none

def Plexer.Denies (p : Plexer) (call : RegisterCall) : Prop :=
  call.Possible p ∧ call.newDev ≠ none ∧ call.vmkDevicePrivate = true ∧ call.minorInfo ≠ none ∧
    call.vmkHandle ≠ none ∧ ∃ status p', p.registerChardev call = .ok (status, p') ∧ status ≠ .ok

/-- The number space of the devices that are registered or await their cleanup. -/
structure NumberSpace (start : Nat × VmkplxrMinorInfo) (p : Plexer) : Prop where
  devices : ∀ c, p.tables.chardevs c ≠ none ↔ (∃ handle, p.registered handle = some c) ∨ c ∈ p.closing
  range : ∀ c cdev, p.tables.chardevs c = some cdev →
    cdev.major ≠ dynamicMajor ∧ cdev.major < 256 ∧ cdev.minor < dynamicMinor
  distinct : ∀ c c' cdev cdev', p.tables.chardevs c = some cdev → p.tables.chardevs c' = some cdev' →
    cdev.major = cdev'.major → cdev.minor = cdev'.minor → c = c'
  minors : ∀ major a info, p.tables.Installed major a info → ∀ minor < 256,
    (info.minorFree minor = false ↔ minor = dynamicMinor ∨ ∃ c cdev,
      info.chardevMinors minor = some c ∧ p.tables.chardevs c = some cdev ∧
        cdev.major = major ∧ cdev.minor = minor)
  majors : ∀ major < 256, major ≠ dynamicMajor → major ≠ miscMajor →
    (p.tables.majorFree major = false ↔ p.tables.minorInfoPerMajor major ≠ none) ∧
      (p.tables.minorInfoPerMajor major ≠ none ↔
        ∃ c cdev, p.tables.chardevs c = some cdev ∧ cdev.major = major)
  dynamicMajors : ∀ call, p.Denies call → call.major = dynamicMajor → call.minor = 0 →
    ∀ major < 256, major ≠ dynamicMajor → major ≠ miscMajor →
      ∃ c cdev, p.tables.chardevs c = some cdev ∧ cdev.major = major
  dynamicMinors : ∀ call, p.Denies call → call.major ≠ dynamicMajor → call.minor = dynamicMinor →
    ∀ minor < dynamicMinor, ∃ c cdev, p.tables.chardevs c = some cdev ∧
      cdev.major = call.major ∧ cdev.minor = minor
  clean : (∀ c, p.tables.chardevs c = none) → AsInitialised start p.tables

/-! ## The invariant -/

structure PlexerInv (start : Nat × VmkplxrMinorInfo) (p : Plexer) : Prop where
  tables : Tables start p.tables
  live : ∀ {c cdev}, p.tables.chardevs c = some cdev →
    if cdev.unregPending then c ∈ p.closing else p.registered cdev.vmkHandle = some c
  registered : ∀ {handle c}, p.registered handle = some c →
    ∃ cdev, p.tables.chardevs c = some cdev ∧ cdev.unregPending = false ∧ cdev.vmkHandle = handle
  closing : ∀ {c}, c ∈ p.closing → ∃ cdev, p.tables.chardevs c = some cdev ∧ cdev.unregPending = true
  nodup : p.closing.Nodup

section Calls

variable {start : Nat × VmkplxrMinorInfo} {p p' : Plexer} {c major minor : Nat} {d : Chardevs}

theorem PlexerInv.init (start : Nat × VmkplxrMinorInfo) : PlexerInv start (.init start) :=
  ⟨tables_init start.1 start.2, nofun, nofun, nofun, List.nodup_nil⟩

theorem PlexerInv.add (h : PlexerInv start p) (cdev : VmkplxrCharDev) (htables : Tables start d)
    (hnew : p.tables.chardevs c = none)
    (hdevs : d.chardevs = Function.update p.tables.chardevs c (some cdev))
    (hpending : cdev.unregPending = false) (hhandle : p.registered cdev.vmkHandle = none) :
    PlexerInv start { p with
      tables := d, registered := Function.update p.registered cdev.vmkHandle (some c) } := by
  have hdev : ∀ {b e}, d.chardevs b = some e ↔
      (b = c ∧ cdev = e) ∨ (b ≠ c ∧ p.tables.chardevs b = some e) := by
    rw [hdevs]
    exact update_some_iff
  have hold : ∀ {b e}, p.tables.chardevs b = some e → d.chardevs b = some e := fun hb =>
    hdev.mpr (.inr ⟨fun heq => (by rw [heq, hnew] at hb; cases hb), hb⟩)
  refine ⟨htables, fun {b e} hb => ?_, fun {handle b} hb => ?_, fun hb => ?_, h.nodup⟩
  · rcases hdev.mp hb with ⟨rfl, rfl⟩ | ⟨-, hb⟩
    · rw [hpending]
      exact Function.update_self ..
    · have hlive := h.live hb
      split
      · next hp => rwa [if_pos hp] at hlive
      · next hp =>
        rw [if_neg hp] at hlive
        refine update_some_iff.mpr (.inr ⟨fun heq => ?_, hlive⟩)
        rw [heq, hhandle] at hlive
        cases hlive
  · rcases update_some_iff.mp hb with ⟨rfl, rfl⟩ | ⟨-, hb⟩
    · exact ⟨cdev, hdev.mpr (.inl ⟨rfl, rfl⟩), hpending, rfl⟩
    · obtain ⟨e, he, hp, hh⟩ := h.registered hb
      exact ⟨e, hold he, hp, hh⟩
  · obtain ⟨e, he, hp⟩ := h.closing hb
    exact ⟨e, hold he, hp⟩

theorem setHandle_tables {cdev : VmkplxrCharDev} (h : Tables start d)
    (hc : d.chardevs c = some cdev) (handle : Nat) :
    Tables start (d.setHandle c handle) ∧ (d.setHandle c handle).chardevs =
      Function.update d.chardevs c (some { cdev with vmkHandle := handle }) := by
  unfold Chardevs.setHandle
  rw [hc]
  exact ⟨h.setChardev hc rfl rfl, rfl⟩

/-- **Registration**: it fails and the devices are as before, or there is one more; where nothing
    else fails, it is not refused without need. -/
theorem registerChardev_spec (h : PlexerInv start p) {call : RegisterCall} (hcall : call.Possible p) :
    ∃ status p', p.registerChardev call = .ok (status, p') ∧ PlexerInv start p' ∧
      (status ≠ .ok → call.newDev = none ∨ call.vmkDevicePrivate = false ∨ call.vmkHandle = none ∨
        p.tables.Refused call.major call.minor call.minorInfo) := by
  obtain ⟨hrange, hnewDev, hminorInfo, hhandle⟩ := hcall
  unfold Plexer.registerChardev
  cases hnew : call.newDev with
  | none => exact ⟨.noMemory, p, rfl, h, fun _ => .inl rfl⟩
  | some x =>
    obtain ⟨c, cdev⟩ := x
    have hfree : p.tables.chardevs c = none := hnewDev (c, cdev) hnew
    dsimp only
    split
    · next hprivate => exact ⟨.noMemory, p, rfl, h, fun _ => .inr (.inl hprivate)⟩
    · rcases publish_spec h.tables hrange hfree
        (fun a i heq => hminorInfo (a, i) heq) cdev with ⟨hpublish, hwhy⟩ |
        ⟨a, M, m, d', hpublish, htables, ha, hdevs, -⟩
      · rw [hpublish]
        exact ⟨.noMemory, p, rfl, h, fun _ => .inr (.inr (.inr hwhy))⟩
      · rw [hpublish]
        have hself : d'.chardevs c =
            some { cdev with major := M, minor := m, unregPending := false } := by
          rw [hdevs]
          exact Function.update_self ..
        cases hreg : call.vmkHandle with
        | some handle =>
          obtain ⟨htables', hdevs'⟩ := setHandle_tables htables hself handle
          refine ⟨.ok, _, rfl, ?_, fun hne => absurd rfl hne⟩
          refine h.add ⟨M, m, handle, false⟩ htables' hfree ?_ rfl (hhandle handle hreg)
          rw [hdevs', hdevs]
          exact Function.update_idem ..
        | none =>
          -- the device is taken out again
          obtain ⟨d₂, hunpublish, htables₂, hdevs₂, -⟩ := unpublish_spec htables hself ha
          have hsame : d₂.chardevs = p.tables.chardevs := by
            rw [hdevs₂, hdevs, Function.update_idem]
            exact hfree ▸ Function.update_eq_self c p.tables.chardevs
          refine ⟨.failure, { p with tables := d₂ }, ?_, ?_, fun _ => .inr (.inr (.inl rfl))⟩
          · simp only [bind, Except.bind, hunpublish]
            rfl
          · refine ⟨htables₂, fun hc => h.live (hsame ▸ hc), fun hb => ?_, fun hb => ?_, h.nodup⟩
            · rw [hsame]
              exact h.registered hb
            · rw [hsame]
              exact h.closing hb

theorem unregisterChardev_spec (h : PlexerInv start p) (major minor : Nat) :
    p.unregisterChardev major minor = .error .argument ∨
      ∃ status p', p.unregisterChardev major minor = .ok (status, p') ∧ PlexerInv start p' := by
  unfold Plexer.unregisterChardev
  by_cases hmajor : major = dynamicMajor
  · exact .inl (by simp [vmkAssert, hmajor, bind, Except.bind])
  by_cases hminor : minor = dynamicMinor
  · exact .inl (by simp [vmkAssert, hmajor, hminor, bind, Except.bind])
  refine .inr ?_
  simp only [vmkAssert, ne_eq, hmajor, hminor, not_false_eq_true, if_true, bind, Except.bind]
  cases ha : p.tables.minorInfoPerMajor major with
  | none => exact ⟨.badParam, p, rfl, h⟩
  | some a =>
    dsimp only
    rcases examine_spec h.tables ha hminor with ⟨status, hexamine⟩ |
      ⟨c, cdev, hc, -, -, hpending, hexamine⟩
    · rw [hexamine]
      exact ⟨status, p, rfl, h⟩
    · rw [hexamine]
      -- the handle is that of the device
      have hreg : p.registered cdev.vmkHandle = some c := by
        have hlive := h.live hc
        rwa [hpending] at hlive
      have hclosing : c ∉ p.closing := fun hmem => by
        obtain ⟨e, he, hp⟩ := h.closing hmem
        rw [hc] at he
        rw [← Option.some.inj he, hpending] at hp
        cases hp
      generalize hd' : p.tables.setChardev c (some { cdev with unregPending := true }) = d'
      have hdev : ∀ {b e}, d'.chardevs b = some e ↔
          (b = c ∧ { cdev with unregPending := true } = e) ∨
            (b ≠ c ∧ p.tables.chardevs b = some e) := by
        rw [← hd']
        exact update_some_iff
      refine ⟨.ok, { p with
        tables := d'
        registered := Function.update p.registered cdev.vmkHandle none
        closing := c :: p.closing }, ?_, ?_⟩
      · simp only [Plexer.charDevUnregister, hreg]
        rfl
      · refine ⟨hd' ▸ h.tables.setChardev hc rfl rfl, fun {b e} hb => ?_, fun {handle b} hb => ?_,
          fun {b} hb => ?_, List.nodup_cons.mpr ⟨hclosing, h.nodup⟩⟩
        · rcases hdev.mp hb with ⟨rfl, rfl⟩ | ⟨hne, hb⟩
          · exact List.mem_cons_self
          · have hlive := h.live hb
            split
            · next hp =>
              rw [if_pos hp] at hlive
              exact List.mem_cons_of_mem c hlive
            · next hp =>
              rw [if_neg hp] at hlive
              refine update_none_iff.mpr ⟨fun heq => hne ?_, hlive⟩
              rw [heq, hreg] at hlive
              exact (Option.some.inj hlive).symm
        · obtain ⟨hne, hb⟩ := update_none_iff.mp hb
          obtain ⟨e, he, hp, hh⟩ := h.registered hb
          refine ⟨e, hdev.mpr (.inr ⟨fun heq => hne ?_, he⟩), hp, hh⟩
          rw [heq, hc] at he
          exact hh.symm.trans (congrArg _ (Option.some.inj he)).symm
        · rcases List.mem_cons.mp hb with rfl | hb
          · exact ⟨_, hdev.mpr (.inl ⟨rfl, rfl⟩), rfl⟩
          · obtain ⟨e, he, hp⟩ := h.closing hb
            exact ⟨e, hdev.mpr (.inr ⟨fun heq => hclosing (heq ▸ hb), he⟩), hp⟩

theorem cleanup_spec (h : PlexerInv start p) (hc : c ∈ p.closing) :
    ∃ p', p.cleanup c = .ok p' ∧ PlexerInv start p' := by
  obtain ⟨cdev, hcdev, hpending⟩ := h.closing hc
  obtain ⟨d', hcleanup, htables, hdevs, -⟩ := unregCleanup_spec h.tables hcdev hpending
  have hdev : ∀ {b e}, d'.chardevs b = some e ↔ b ≠ c ∧ p.tables.chardevs b = some e := by
    rw [hdevs]
    exact update_none_iff
  refine ⟨{ p with tables := d', closing := p.closing.erase c }, ?_, htables, fun {b e} hb => ?_,
    fun {handle b} hb => ?_, fun {b} hb => ?_, h.nodup.erase c⟩
  · rw [Plexer.cleanup, hcleanup]
    rfl
  · obtain ⟨hne, hb⟩ := hdev.mp hb
    have hlive := h.live hb
    split
    · next hp =>
      rw [if_pos hp] at hlive
      exact (List.mem_erase_of_ne hne).mpr hlive
    · next hp => rwa [if_neg hp] at hlive
  · obtain ⟨e, he, hp, hh⟩ := h.registered hb
    refine ⟨e, hdev.mpr ⟨fun heq => ?_, he⟩, hp, hh⟩
    rw [heq, hcdev] at he
    rw [← Option.some.inj he, hpending] at hp
    cases hp
  · obtain ⟨hne, hb⟩ := h.nodup.mem_erase_iff.mp hb
    obtain ⟨e, he, hp⟩ := h.closing hb
    exact ⟨e, hdev.mpr ⟨hne, he⟩, hp⟩

end Calls

/-! ## The number space -/

section Numbers

variable {start : Nat × VmkplxrMinorInfo} {d : Chardevs} {p : Plexer}

theorem TablesBut.only_misc (h : Tables start d) (hnone : ∀ c, d.chardevs c = none) {major a : Nat}
    (ha : d.minorInfoPerMajor major = some a) : major = miscMajor ∧ a = start.1 := by
  have hmisc : major = miscMajor := (h.last id ha).resolve_right fun ⟨c, cdev, hc, _⟩ => by
    rw [hnone c] at hc
    cases hc
  rw [hmisc, h.misc] at ha
  exact ⟨hmisc, (Option.some.inj ha).symm⟩

theorem Tables.asInitialised (h : Tables start d) (hnone : ∀ c, d.chardevs c = none) :
    AsInitialised start d := by
  have hptr : d.minorInfoPerMajor = (Chardevs.init start.1 start.2).minorInfoPerMajor := by
    funext major
    refine Option.ext fun a => ⟨fun ha => ?_, fun ha => ?_⟩
    · obtain ⟨rfl, rfl⟩ := TablesBut.only_misc h hnone ha
      exact init_minorInfoPerMajor.mpr ⟨rfl, rfl⟩
    · obtain ⟨rfl, rfl⟩ := init_minorInfoPerMajor.mp ha
      exact h.misc
  obtain ⟨info, hinfo⟩ := h.installed h.misc
  refine ⟨words_ext fun i b hb => ?_, ⟨hptr, fun a hne => ?_⟩, info, hinfo,
    words_ext fun i b hb => ?_, fun minor => ?_⟩
  · -- the bit is that of a major
    have hword : (i * 32 + (31 - b)) / 32 = i := by omega
    have hnum : majorBitNum (i * 32 + (31 - b)) = b := by unfold majorBitNum; omega
    have hsame : d.majorFree (i * 32 + (31 - b)) =
        (Chardevs.init start.1 start.2).majorFree (i * 32 + (31 - b)) := Bool.eq_iff_iff.mpr <| by
      rw [h.major _ id, (tables_init start.1 start.2).major _ id, hptr]
    rwa [majorFree_eq, majorFree_eq, hword, hnum] at hsame
  · refine Option.eq_none_iff_forall_ne_some.mpr fun i hi => ?_
    obtain ⟨major, ha⟩ := h.owned hi
    exact hne (TablesBut.only_misc h hnone ha).2
  · have hword : (i * 32 + b) / 32 = i := by omega
    have hnum : (i * 32 + b) % 32 = b := by omega
    have hsame : info.minorFree (i * 32 + b) = start.2.fresh.minorFree (i * 32 + b) := by
      refine Bool.eq_iff_iff.mpr ?_
      rw [h.minor ⟨h.misc, hinfo⟩, minorFree_fresh, decide_eq_true_iff]
      refine ⟨And.left, fun hne => ⟨hne, fun c cdev hc => ?_⟩⟩
      rw [hnone c] at hc
      cases hc
    rwa [minorFree_eq, minorFree_eq, hword, hnum] at hsame
  · refine (h.entries hinfo minor).imp_right fun hor => hor.resolve_right fun ⟨c, cdev, _, hc, _⟩ => ?_
    rw [hnone c] at hc
    cases hc

theorem PlexerInv.denies (h : PlexerInv start p) {call : RegisterCall} (hdenies : p.Denies call) :
    if call.major = dynamicMajor then call.minor ≠ 0 ∨ ∀ m < 256, p.tables.majorFree m = false
      else p.tables.MinorsTaken call.major call.minor := by
  obtain ⟨hcall, hnewDev, hprivate, hminorInfo, hhandle, status, p', hreg, hstatus⟩ := hdenies
  obtain ⟨status', p₂, hreg', -, hwhy⟩ := registerChardev_spec h hcall
  rw [hreg] at hreg'
  obtain ⟨rfl, -⟩ := Prod.mk.inj (Except.ok.inj hreg')
  rcases hwhy hstatus with hn | hn | hn | hrefused
  · exact absurd hn hnewDev
  · rw [hprivate] at hn
    cases hn
  · exact absurd hn hhandle
  · exact hrefused.resolve_left hminorInfo

theorem PlexerInv.numberSpace (h : PlexerInv start p) : NumberSpace start p := by
  -- a minor that is taken is that of a device
  have htaken : ∀ {major a info}, p.tables.Installed major a info → ∀ {minor},
      info.minorFree minor = false → minor ≠ dynamicMinor →
        ∃ c cdev, p.tables.chardevs c = some cdev ∧ cdev.major = major ∧ cdev.minor = minor :=
    fun {major a info} hin {minor} hbit hne => by
      by_contra hno
      have hfree := (h.tables.minor hin minor).mpr
        ⟨hne, fun c e hc he hm => hno ⟨c, e, hc, he, hm⟩⟩
      rw [hbit] at hfree
      cases hfree
  have hdevice : ∀ {c cdev}, p.tables.chardevs c = some cdev →
      p.tables.minorInfoPerMajor cdev.major ≠ none := fun {c cdev} hc heq => by
    obtain ⟨-, -, a, info, hin, -⟩ := h.tables.recorded hc
    rw [Chardevs.Installed, heq] at hin
    cases hin.1
  -- a major has a table as long as it has a device
  have hmajors : ∀ major, major ≠ miscMajor → (p.tables.minorInfoPerMajor major ≠ none ↔
      ∃ c cdev, p.tables.chardevs c = some cdev ∧ cdev.major = major) := fun major hmisc => by
    constructor
    · intro hne
      obtain ⟨a, ha⟩ := Option.ne_none_iff_exists'.mp hne
      exact (h.tables.last id ha).resolve_left hmisc
    · rintro ⟨c, cdev, hc, rfl⟩
      exact hdevice hc
  have hbits : ∀ major, major ≠ dynamicMajor → major ≠ miscMajor →
      (p.tables.majorFree major = false ↔ p.tables.minorInfoPerMajor major ≠ none) :=
    fun major hdyn hmisc => by
      rw [← Bool.not_eq_true, h.tables.major major id]
      simp [hdyn, hmisc]
  refine ⟨fun c => ?_, fun c cdev hc => ?_, fun c c' e e' hc hc' hM hm => ?_,
    fun major a info hin minor hrange => ?_, fun major _ hdyn hmisc =>
      ⟨hbits major hdyn hmisc, hmajors major hmisc⟩,
    fun call hdenies hmajor hminor major hrange hdyn hmisc => ?_,
    fun call hdenies hmajor hminor minor hrange => ?_, h.tables.asInitialised⟩
  · constructor
    · intro hne
      obtain ⟨e, he⟩ := Option.ne_none_iff_exists'.mp hne
      have hlive := h.live he
      split at hlive
      · exact .inr hlive
      · exact .inl ⟨_, hlive⟩
    · rintro (⟨handle, hreg⟩ | hclosing)
      · obtain ⟨e, he, -⟩ := h.registered hreg
        exact he ▸ (by simp)
      · obtain ⟨e, he, -⟩ := h.closing hclosing
        exact he ▸ (by simp)
  · obtain ⟨hM, hm, -⟩ := h.tables.recorded hc
    refine ⟨fun heq => hdevice hc ?_, hM, hm⟩
    rw [heq]
    exact h.tables.dynamic
  · -- the two are recorded at one place
    obtain ⟨-, -, a, info, hin, hrec⟩ := h.tables.recorded hc
    obtain ⟨-, -, a', info', hin', hrec'⟩ := h.tables.recorded hc'
    obtain rfl := hin.unique (hM ▸ hin')
    rw [hm, hrec'] at hrec
    exact (Option.some.inj hrec).symm
  · constructor
    · intro hbit
      by_cases hne : minor = dynamicMinor
      · exact .inl hne
      · obtain ⟨c, cdev, hc, hM, hm⟩ := htaken hin hbit hne
        obtain ⟨-, -, a', info', hin', hrec⟩ := h.tables.recorded hc
        obtain rfl := hin.unique (hM ▸ hin')
        exact .inr ⟨c, cdev, hm ▸ hrec, hc, hM, hm⟩
    · intro hor
      refine Bool.eq_false_iff.mpr fun hfree => ?_
      obtain ⟨hne, hall⟩ := (h.tables.minor hin minor).mp hfree
      rcases hor with heq | ⟨c, cdev, -, hc, hM, hm⟩
      · exact hne heq
      · exact hall c cdev hc hM hm
  -- a dynamic major is refused where all are taken
  · have hwhy := h.denies hdenies
    rw [if_pos hmajor] at hwhy
    have hnone := hwhy.resolve_left (fun hne => hne hminor) major hrange
    exact (hmajors major hmisc).mp ((hbits major hdyn hmisc).mp hnone)
  -- a dynamic minor is refused where all of the major are
  · have hwhy := h.denies hdenies
    rw [if_neg hmajor] at hwhy
    obtain ⟨a, info, hin, hall⟩ := hwhy
    rw [if_pos hminor] at hall
    exact htaken hin (hall minor (by unfold dynamicMinor at hrange; omega)) (Nat.ne_of_lt hrange)

theorem chardev_step {s t : Except Fault Plexer} {e : ChardevCall}
    (h : s = .error .argument ∨ ∃ p, s = .ok p ∧ PlexerInv start p) (hstep : ChardevStep s e t) :
    t = .error .argument ∨ ∃ p, t = .ok p ∧ PlexerInv start p := by
  obtain rfl | ⟨p, rfl, hinv⟩ := h
  · cases hstep
  · cases e with
    | register call =>
      obtain ⟨hcall, heq⟩ := Option.ite_none_right_eq_some.mp hstep
      obtain ⟨status, p', hreg, hinv', -⟩ := registerChardev_spec hinv hcall
      rw [hreg] at heq
      exact .inr ⟨p', (Option.some.inj heq).symm, hinv'⟩
    | unregister major minor =>
      cases hstep
      rcases unregisterChardev_spec hinv major minor with hfault | ⟨status, p', hunreg, hinv'⟩
      · rw [hfault]
        exact .inl rfl
      · rw [hunreg]
        exact .inr ⟨p', rfl, hinv'⟩
    | cleanup c =>
      obtain ⟨hc, heq⟩ := Option.ite_none_right_eq_some.mp hstep
      obtain ⟨p', hcleanup, hinv'⟩ := cleanup_spec hinv hc
      rw [hcleanup] at heq
      exact .inr ⟨p', (Option.some.inj heq).symm, hinv'⟩

/-- **Numbers**: unless a caller breaks an assertion on what it passes, no assertion fails, and
    after every call the tables are in step with the devices. -/
theorem chardev_numbers {es : List ChardevCall} {s : Except Fault Plexer}
    (hrun : Run ChardevStep (.ok (.init start)) es s) :
    s = .error .argument ∨ ∃ p, s = .ok p ∧ NumberSpace start p := by
  have hinv := hrun.invariant
    (I := fun s => s = .error .argument ∨ ∃ p, s = .ok p ∧ PlexerInv start p)
    (fun _ _ _ h hstep => chardev_step h hstep) (.inr ⟨_, rfl, .init start⟩)
  exact hinv.imp_right fun ⟨p, hp, h⟩ => ⟨p, hp, h.numberSpace⟩

end Numbers

def zeroInfo : VmkplxrMinorInfo := ⟨fun _ => 0#32, fun _ => none⟩

def RegisterCall.granted (major minor newDev minorInfo vmkHandle : Nat) : RegisterCall :=
  ⟨major, minor, some (newDev, ⟨0, 0, 0, false⟩), true, some (minorInfo, zeroInfo), some vmkHandle⟩

/-- A dynamic major, a dynamic minor of the misc major, and the first is unregistered and cleaned up. -/
def registeredRun : List ChardevCall :=
  [.register (.granted 0 0 1 1 1), .register (.granted 10 255 2 2 2), .unregister 255 0, .cleanup 1]

theorem chardev_numbers_registeredRun :
    ∃ p, Run ChardevStep (.ok (.init (0, zeroInfo))) registeredRun (.ok p) ∧
      p.tables.chardevs 1 = none ∧ p.tables.chardevs 2 = some ⟨10, 0, 2, false⟩ ∧
      NumberSpace (0, zeroInfo) p := by
  have hexec : ∃ p, Run.exec chardevNext? (.ok (.init (0, zeroInfo))) registeredRun = some (.ok p) ∧
      p.tables.chardevs 1 = none ∧ p.tables.chardevs 2 = some ⟨10, 0, 2, false⟩ := ⟨_, rfl, rfl, rfl⟩
  obtain ⟨p, hp, h1, h2⟩ := hexec
  have hrun : Run ChardevStep (.ok (.init (0, zeroInfo))) registeredRun (.ok p) :=
    Run.of_exec (fun _ _ _ h => h) hp
  rcases chardev_numbers hrun with hfault | ⟨p', hp', hspace⟩
  · cases hfault
  · cases hp'
    exact ⟨p, hrun, h1, h2, hspace⟩

/-- A dynamic minor is refused under a dynamic major, where all numbers are free. -/
theorem dynamic_both_refused :
    (Plexer.init (0, zeroInfo)).Denies (.granted dynamicMajor dynamicMinor 1 1 1) ∧
      ∀ c, (Plexer.init (0, zeroInfo)).tables.chardevs c = none := by
  refine ⟨⟨by decide, nofun, rfl, nofun, nofun, .noMemory, .init (0, zeroInfo), rfl, nofun⟩,
    fun _ => rfl⟩

end VmkDrivers.Vmkplexer
