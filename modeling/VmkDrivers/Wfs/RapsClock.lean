/-
  VmkDrivers.Wfs.RapsClock

  What the announce, SF and NR timers of `raps_main` work on.

  `RapsCtrl.clock` keeps of `raps_ctrl` the three timers, the NR counter and
  their flags.  A tick of the timers depends on nothing else
  (`rapsTimers_clock`), an action of the own station writes nothing else of
  it than `RapsCtrl.executed` says, and the other actions and operations
  leave it alone (`RapsOp.step_clock`).
-/

import VmkDrivers.Wfs.RapsSpec

namespace VmkDrivers.Wfs

open VmkDrivers.Lib WfsFsmState WfsFsmEvent

def RapsCtrl.clock (c : RapsCtrl) : RapsCtrl :=
  { c with flag := { c.flag with peerTtl := false, fsmEvent := false }, tPeer := 0 }

def RapsCtrl.executed (c : RapsCtrl) : WfsFsmEvent → RapsCtrl
  | .discover => { c with flag := { c.flag with announce := true }, tAnnounce := rapsAnnounceInt }
  | .localSF => { c with flag := { c.flag with sf := true, nr := false }, tRapsSF := rapsSFInt }
  | .clearLocalSF =>
    { c with
      flag := { c.flag with sf := false, nr := true }
      tRapsNR := rapsNRInt, cRapsNR := rapsNRCount }
  | _ => c

variable (c : RapsCtrl)

theorem RapsCtrl.clock_executed (e : WfsFsmEvent) : (c.executed e).clock = c.clock.executed e := by
  cases e <;> rfl

/-! ## Ticks -/

theorem rapsAnnounceTimer_clock :
    rapsAnnounceTimer c.clock = ((rapsAnnounceTimer c).1.clock, (rapsAnnounceTimer c).2) := by
  obtain ⟨⟨peerTtl, announce, nr, sf, fsmEvent⟩, tAnnounce, tPeer, tRapsSF, tRapsNR, cRapsNR⟩ := c
  cases announce with
  | false => rfl
  | true =>
    simp only [rapsAnnounceTimer, RapsCtrl.clock, if_true]
    by_cases ht : tickTimer tAnnounce ≤ 0 <;> simp only [ht, if_true, if_false]

theorem rapsNRTimer_clock : rapsNRTimer c.clock = ((rapsNRTimer c).1.clock, (rapsNRTimer c).2) := by
  obtain ⟨⟨peerTtl, announce, nr, sf, fsmEvent⟩, tAnnounce, tPeer, tRapsSF, tRapsNR, cRapsNR⟩ := c
  cases nr with
  | false => rfl
  | true =>
    simp only [rapsNRTimer, RapsCtrl.clock, if_true]
    by_cases ht : tickTimer tRapsNR ≤ 0 <;> by_cases hc : 0 < cRapsNR <;>
      simp only [ht, hc, if_true, if_false]

theorem rapsSFTimer_clock : rapsSFTimer c.clock = ((rapsSFTimer c).1.clock, (rapsSFTimer c).2) := by
  obtain ⟨⟨peerTtl, announce, nr, sf, fsmEvent⟩, tAnnounce, tPeer, tRapsSF, tRapsNR, cRapsNR⟩ := c
  cases sf with
  | false => rfl
  | true =>
    simp only [rapsSFTimer, RapsCtrl.clock, if_true]
    by_cases ht : tickTimer tRapsSF ≤ 0 <;> simp only [ht, if_true, if_false]

/-- **A tick** works on the timers alone. -/
theorem rapsTimers_clock : rapsTimers c.clock = ((rapsTimers c).1.clock, (rapsTimers c).2) := by
  simp only [rapsTimers]
  rw [rapsAnnounceTimer_clock]
  simp only
  rw [rapsNRTimer_clock]
  simp only
  rw [rapsSFTimer_clock]

/-! ## Actions -/

section Actions

variable {link : Port → Bool} {e : WfsFsmEvent} {myId wfsid : WfsId} {evdata : WfsFsmEventData}
  {ctrl : RapsCtrl} {peer : WfsPeer} {r : ActionResult}

theorem action_clock (hid : wfsid ≠ myId)
    (h : e.action myId link wfsid evdata ctrl peer = .ok r) : r.ctrl.clock = ctrl.clock := by
  cases e with
  | discover =>
    simp only [action, wfsFsmActionDiscover, if_neg hid, Except.ok.injEq] at h
    rw [← h]
    rfl
  | expire =>
    simp only [action, wfsFsmActionExpire, if_neg hid, Except.ok.injEq] at h
    rw [← h]
  | localSF =>
    simp only [action, wfsFsmActionLocalSF, if_neg hid, Except.ok.injEq] at h
    rw [← h]
  | clearLocalSF =>
    simp only [action, wfsFsmActionClearLocalSF, ne_eq, hid, not_false_iff, if_true] at h
    cases h
  | rapsSF =>
    simp only [action, wfsFsmActionRapsSF, if_neg hid, Except.ok.injEq] at h
    rw [← h]
  | rapsNR =>
    simp only [action, wfsFsmActionRapsNR, Except.ok.injEq] at h
    rw [← h]

theorem action_executed (hvalid : validEntry peer.fsmState e true = true)
    (h : e.action myId link myId evdata ctrl peer = .ok r) : r.ctrl = ctrl.executed e := by
  rcases validEntry_local hvalid with rfl | rfl | rfl
  · simp only [action, wfsFsmActionDiscover, if_true, Except.ok.injEq] at h
    rw [← h]
    rfl
  · simp only [action, wfsFsmActionLocalSF, if_true, Except.ok.injEq] at h
    rw [← h]
    rfl
  · simp only [action, wfsFsmActionClearLocalSF, ne_eq, not_true, if_false, Except.ok.injEq] at h
    rw [← h]
    rfl

end Actions

/-! ## Operations -/

section Operations

variable {π : Type} [EventStore π] (k : Kmalloc)

theorem setEventLoop_clock (wfsid : UInt8) (e : WfsFsmEvent) (evdata : WfsFsmEventData)
    (ids : List WfsId) (s : Iwa π) :
    (setEventLoop k wfsid e evdata ids s).1.core.ctrl.clock = s.core.ctrl.clock := by
  induction ids generalizing s with
  | nil => rfl
  | cons id ids ih =>
    simp only [setEventLoop]
    split
    · exact ih s
    · split
      · exact ih s
      · split
        · rfl
        · exact ih _

theorem ixgbeWfsFsmSetEvent_clock (wfsid : UInt8) (e : WfsFsmEvent) (evdata : WfsFsmEventData)
    (s : Iwa π) :
    (ixgbeWfsFsmSetEvent k wfsid e evdata s).1.core.ctrl.clock = s.core.ctrl.clock := by
  unfold ixgbeWfsFsmSetEvent
  split
  · rfl
  · exact setEventLoop_clock k wfsid e evdata wfsIds s

theorem updatePeersLoop_clock (ids : List WfsId) (s : Iwa π) (count : Nat) (refused : Bool) :
    (updatePeersLoop k ids s count refused).1.core.ctrl.clock = s.core.ctrl.clock := by
  induction ids generalizing s count refused with
  | nil => rfl
  | cons id ids ih =>
    simp only [updatePeersLoop]
    split
    · exact ih ..
    · split
      · exact (ih ..).trans (ixgbeWfsFsmSetEvent_clock ..)
      · exact ih ..

theorem rapsPeerTtl_clock (s : Iwa π) :
    (rapsPeerTtl k s).1.core.ctrl.clock = s.core.ctrl.clock := by
  unfold rapsPeerTtl
  split
  · simp only [wfsUpdatePeers]
    split <;> exact updatePeersLoop_clock ..
  · rfl

/-- **The timers** change with a tick, when the queue is run and with a restart. -/
theorem RapsOp.step_clock {s t : Iwa π} {op : RapsOp} {eff : Effects} (hw : op.waits = true)
    (htimers : op ≠ .timers) (h : op.step s = .ok (t, eff)) :
    t.core.ctrl.clock = s.core.ctrl.clock := by
  cases op with
  | fsmEvent | rapsStart => simp [RapsOp.waits] at hw
  | timers => exact absurd rfl htimers
  | setEvent k wfsid e evdata =>
    simp only [RapsOp.step, Except.ok.injEq, Prod.mk.injEq] at h
    exact h.1 ▸ ixgbeWfsFsmSetEvent_clock ..
  | linkIsDown k p =>
    simp only [RapsOp.step, ixgbeWatchdogLinkIsDown, Except.ok.injEq, Prod.mk.injEq] at h
    rw [← h.1, ixgbeWfsFsmSetEvent_clock]
    split <;> rfl
  | linkIsUp k p =>
    simp only [RapsOp.step, ixgbeWatchdogLinkIsUp, Except.ok.injEq, Prod.mk.injEq] at h
    rw [← h.1]
    cases s.linkUp <;> cases hp : s.link p.other <;>
      simp only [Bool.not_false, Bool.not_true, Bool.false_eq_true, if_true, if_false, hp,
        ixgbeWfsFsmSetEvent_clock]
  | announce k adapter src opt =>
    simp only [RapsOp.step, wfsProcessAnnounce, Except.ok.injEq, Prod.mk.injEq] at h
    rw [← h.1]
    cases opt.portPri <;> cases opt.portSec <;>
      simp only [Bool.false_eq_true, if_true, if_false, ixgbeWfsFsmSetEvent_clock] <;> rfl
  | raps k adapter src opt =>
    simp only [RapsOp.step, wfsProcessRaps, Except.ok.injEq, Prod.mk.injEq] at h
    rw [← h.1]
    split
    · exact ixgbeWfsFsmSetEvent_clock ..
    · split
      · cases rapsSFData (s.core.peer src) adapter opt with
        | none => rfl
        | some evdata => exact ixgbeWfsFsmSetEvent_clock ..
      · rfl
  | peerTtl k =>
    simp only [RapsOp.step, Except.ok.injEq, Prod.mk.injEq] at h
    exact h.1 ▸ rapsPeerTtl_clock k s
  | updateLink | misc | openPorts | rapsStop | closePorts =>
    simp only [RapsOp.step, Except.ok.injEq, Prod.mk.injEq] at h
    exact h.1 ▸ rfl

theorem ixgbeWfsRapsStart_clock (ip : UInt32) (s : Iwa π) :
    (ixgbeWfsRapsStart k ip s).1.core.ctrl.clock = {} := by
  simp only [ixgbeWfsRapsStart, ixgbeWfsFsmSetEvent_clock]
  rfl

end Operations

end VmkDrivers.Wfs
