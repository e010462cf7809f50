/-
  VmkDrivers.Wfs.Fsm

  The protection-switching state machine of `ixgbe_wfs_raps.c`: the six
  actions, the transition table and the execution of one queued event.

  An action touches the peer entry of its station and `raps_ctrl` only, so it
  is a function of these two; `link` is `adapter->link_up` of the two local
  ports at the moment the action runs, and the calls into the forwarding
  table are returned in order.
-/

import VmkDrivers.Wfs.Defs

namespace VmkDrivers.Wfs

open WfsFsmState

structure ActionResult where
  ctrl : RapsCtrl
  peer : WfsPeer
  fib : List FibCall
deriving DecidableEq, Repr

/-- `wfs_fsm_trans_table.action`, called with `myID`, the port states, the event's
    station and data, `raps_ctrl` and `wfspeer[wfsid-1]`. -/
abbrev Action :=
  WfsId → (Port → Bool) → WfsId → WfsFsmEventData → RapsCtrl → WfsPeer →
    Except Fault ActionResult

/-! ## Actions -/

/-- Forget the primary channel of a peer when `b`. -/
def WfsPeer.dropPri (peer : WfsPeer) (b : Bool) : WfsPeer :=
  { peer with
    channelPri := if b then none else peer.channelPri
    portPri := if b then -1 else peer.portPri }

/-- Forget the secondary channel of a peer when `b`. -/
def WfsPeer.dropSec (peer : WfsPeer) (b : Bool) : WfsPeer :=
  { peer with
    channelSec := if b then none else peer.channelSec
    portSec := if b then -1 else peer.portSec }

/-- Enter the announced channel of a remote station, and drop the other role of that
    channel in case the peer switched ports. -/
def discoverChannels (peer : WfsPeer) (a : AnnounceEventData) : WfsPeer :=
  if a.isPrimaryAnnouce then
    let peer := { peer with
      channelPri := a.recvChannel, portPri := a.peerPort.toNat, ttlPri := rapsPeerTimeout }
    peer.dropSec (peer.channelSec = peer.channelPri)
  else
    let peer := { peer with
      channelSec := a.recvChannel, portSec := a.peerPort.toNat, ttlSec := rapsPeerTimeout }
    peer.dropPri (peer.channelPri = peer.channelSec)

def wfsFsmActionDiscover : Action := fun myId _ wfsid evdata ctrl peer =>
  let ctrl :=
    if wfsid = myId then
      { ctrl with flag := { ctrl.flag with announce := true }, tAnnounce := rapsAnnounceInt }
    else
      { ctrl with flag := { ctrl.flag with peerTtl := true }, tPeer := rapsPeerTimeout }
  let peer := if wfsid = myId then peer else discoverChannels peer evdata.announce
  -- link status based on the discovered channels, not on the PHY
  let priLinkup := peer.channelPri.isSome
  let secLinkup := peer.channelSec.isSome
  let state :=
    match peer.fsmState with
    | init => if priLinkup then idle else if secLinkup then protect else init
    | idle => if !priLinkup then protect else idle
    | protect => if priLinkup then idle else protect
  .ok {
    ctrl
    peer := { peer with fsmState := state }
    fib := if state = init then [] else [.update 0 peer.mac peer.ip wfsid.byte] }

def expireChannels (peer : WfsPeer) : WfsPeer :=
  (peer.dropPri (peer.ttlPri ≤ 0)).dropSec (peer.ttlSec ≤ 0)

/-- The flush of the station's forwarding entries when it falls back to `S_init`. -/
def flushIfInit (wfsid : WfsId) (state : WfsFsmState) : List FibCall :=
  if state = init then [.deleteWfsid wfsid.byte] else []

def wfsFsmActionExpire : Action := fun myId _ wfsid _ ctrl peer =>
  if wfsid = myId then .error (.bugOn .expireLocal) else
  let peer := expireChannels peer
  let priLinkup := peer.channelPri.isSome
  let secLinkup := peer.channelSec.isSome
  let state :=
    match peer.fsmState with
    | init => init
    | idle => if !priLinkup then (if secLinkup then protect else init) else idle
    | protect => if priLinkup then idle else if !secLinkup then init else protect
  .ok { ctrl, peer := { peer with fsmState := state }, fib := flushIfInit wfsid state }

def channelUp (link : Port → Bool) : Option Port → Bool
  | some p => link p
  | none => false

def wfsFsmActionLocalSF : Action := fun myId link wfsid _ ctrl peer =>
  let priLinkup := channelUp link peer.channelPri
  let secLinkup := channelUp link peer.channelSec
  -- the own failure is announced, that of a port to a peer takes its channel
  let ctrl :=
    if wfsid = myId then
      { ctrl with flag := { ctrl.flag with sf := true, nr := false }, tRapsSF := rapsSFInt }
    else ctrl
  let peer :=
    if wfsid = myId then peer else (peer.dropPri (!priLinkup)).dropSec (!secLinkup)
  let state :=
    match peer.fsmState with
    | init => init
    | idle =>
      if !priLinkup then
        -- the own entry does not fall back to `S_init`
        (if secLinkup then protect else if wfsid ≠ myId then init else idle)
      else idle
    | protect =>
      if !secLinkup then
        (if priLinkup then idle else if wfsid ≠ myId then init else protect)
      else protect
  .ok { ctrl, peer := { peer with fsmState := state }, fib := flushIfInit wfsid state }

def wfsFsmActionClearLocalSF : Action := fun myId link wfsid _ ctrl peer =>
  if wfsid ≠ myId then .error (.bugOn .clearLocalSFRemote) else
  let ctrl := { ctrl with
    flag := { ctrl.flag with sf := false, nr := true }
    tRapsNR := rapsNRInt, cRapsNR := rapsNRCount }
  let priLinkup := channelUp link peer.channelPri
  let secLinkup := channelUp link peer.channelSec
  let state :=
    -- with both links up the ring is whole again
    if priLinkup && secLinkup then
      (if peer.fsmState = protect then idle else peer.fsmState)
    else peer.fsmState
  .ok { ctrl, peer := { peer with fsmState := state }, fib := [] }

def dropChannel (peer : WfsPeer) (r : RapsEventData) : WfsPeer :=
  if r.failureOnPrimary then peer.dropPri true else peer.dropSec true

def wfsFsmActionRapsSF : Action := fun myId _ wfsid evdata ctrl peer =>
  if wfsid = myId then .error (.bugOn .rapsSFLocal) else
  let peer := dropChannel peer evdata.raps
  let priLinkup := peer.channelPri.isSome
  let secLinkup := peer.channelSec.isSome
  let state :=
    match peer.fsmState with
    | init => init
    | idle => if !priLinkup then (if secLinkup then protect else init) else idle
    | protect => if !secLinkup then (if priLinkup then idle else init) else protect
  .ok { ctrl, peer := { peer with fsmState := state }, fib := flushIfInit wfsid state }

def wfsFsmActionRapsNR : Action := fun _ link _ _ ctrl peer =>
  let priLinkup := channelUp link peer.channelPri
  let secLinkup := channelUp link peer.channelSec
  let state := if priLinkup && secLinkup then idle else peer.fsmState
  .ok { ctrl, peer := { peer with fsmState := state }, fib := [] }

/-! ## Transition table -/

/-- The table `fsm[state][event][local]` that `ixgbe_wfs_fsm_init` fills in; `none` is an
    entry whose `valid_entry` is 0. -/
def fsm : WfsFsmState → WfsFsmEvent → Bool → Option Action
  | init, .discover, _ => some wfsFsmActionDiscover
  | idle, .discover, false | protect, .discover, false => some wfsFsmActionDiscover
  | idle, .expire, false | protect, .expire, false => some wfsFsmActionExpire
  | idle, .localSF, _ | protect, .localSF, _ => some wfsFsmActionLocalSF
  | idle, .clearLocalSF, true | protect, .clearLocalSF, true => some wfsFsmActionClearLocalSF
  | idle, .rapsSF, false | protect, .rapsSF, false => some wfsFsmActionRapsSF
  | protect, .rapsNR, false => some wfsFsmActionRapsNR
  | _, _, _ => none

/-- `fsm[..].valid_entry`. -/
def validEntry (s : WfsFsmState) (e : WfsFsmEvent) (isLocal : Bool) : Bool :=
  (fsm s e isLocal).isSome

def WfsFsmEvent.action : WfsFsmEvent → Action
  | .discover => wfsFsmActionDiscover
  | .expire => wfsFsmActionExpire
  | .localSF => wfsFsmActionLocalSF
  | .clearLocalSF => wfsFsmActionClearLocalSF
  | .rapsSF => wfsFsmActionRapsSF
  | .rapsNR => wfsFsmActionRapsNR

theorem fsm_eq (s : WfsFsmState) (e : WfsFsmEvent) (isLocal : Bool) :
    fsm s e isLocal = if validEntry s e isLocal then some e.action else none := by
  cases s <;> cases e <;> cases isLocal <;> rfl

variable {s : WfsFsmState} {e : WfsFsmEvent} {link : Port → Bool} {core : RapsCore} {eb : EventRec}
  {fib : List FibCall} {view : Nat → Port → Bool}

theorem validEntry_local (h : validEntry s e true = true) :
    e = .discover ∨ e = .localSF ∨ e = .clearLocalSF := by
  cases s <;> cases e <;> simp [validEntry, fsm] at h ⊢

theorem validEntry_remote (h : validEntry s e false = true) : e ≠ .clearLocalSF := by
  rintro rfl
  cases s <;> simp [validEntry, fsm] at h

theorem validEntry_init (h : validEntry s e false = true) (he : e ≠ .discover) : s ≠ init := by
  rintro rfl
  cases e <;> simp [validEntry, fsm] at h he

theorem validEntry_expire (h : s ≠ init) : validEntry s .expire false = true := by
  cases s with
  | init => exact absurd rfl h
  | idle => rfl
  | protect => rfl

/-! ## One queued event -/

/-- The part of `struct ixgbe_wfs_adapter` the state machine works on. -/
structure RapsCore where
  wfsId : WfsId
  macAddr : Mac
  ip : UInt32
  ctrl : RapsCtrl
  peer : WfsId → WfsPeer

/-- The adapter after an action on the entry of station `id`. -/
def RapsCore.acted (core : RapsCore) (id : WfsId) (r : ActionResult) : RapsCore :=
  { core with ctrl := r.ctrl, peer := Function.update core.peer id r.peer }

/-- The state of the loop of `wfs_fsm_run`: the adapter, the calls made into the
    forwarding table so far and the number of buffers handled. -/
structure RunState where
  core : RapsCore
  fib : List FibCall := []
  done : Nat := 0

/-- The two checks at the end of the loop body of `wfs_fsm_run`. -/
def checkPeer (peer : WfsPeer) : Except Fault Unit :=
  if peer.fsmState = idle ∧ peer.channelPri = none then .error (.bugOn .idleWithoutPrimary)
  else if peer.fsmState = protect ∧ peer.channelSec = none then
    .error (.bugOn .protectWithoutSecondary)
  else .ok ()

def runEvent (link : Port → Bool) (core : RapsCore) (eb : EventRec) :
    Except Fault (RapsCore × List FibCall) :=
  let peer := core.peer eb.wfsid
  match fsm peer.fsmState eb.event (eb.wfsid = core.wfsId) with
  | none => .ok (core, [])
  | some action => do
    let r ← action core.wfsId link eb.wfsid eb.data core.ctrl peer
    checkPeer r.peer
    pure (core.acted eb.wfsid r, r.fib)

/-- The body of the loop of `wfs_fsm_run` on one buffer.  The link state of the ports may
    change at any moment of the loop: `view i` is what the action of the `i`-th
    buffer reads. -/
def runBody (view : Nat → Port → Bool) (s : RunState) (eb : EventRec) :
    Except Fault RunState := do
  let (core, fib) ← runEvent (view s.done) s.core eb
  pure { core, fib := s.fib ++ fib, done := s.done + 1 }

/-! ## What one event can do -/

def RapsCore.accepts (core : RapsCore) (eb : EventRec) : Bool :=
  validEntry (core.peer eb.wfsid).fsmState eb.event (eb.wfsid = core.wfsId)

def RapsCore.act (core : RapsCore) (link : Port → Bool) (eb : EventRec) :
    Except Fault ActionResult :=
  eb.event.action core.wfsId link eb.wfsid eb.data core.ctrl (core.peer eb.wfsid)

theorem runEvent_skip (h : core.accepts eb = false) : runEvent link core eb = .ok (core, []) := by
  simp only [RapsCore.accepts] at h
  simp only [runEvent, fsm_eq, h, Bool.false_eq_true, if_false]

theorem runEvent_accept (h : core.accepts eb = true) :
    runEvent link core eb = (core.act link eb).bind fun r =>
      (checkPeer r.peer).bind fun _ => .ok (core.acted eb.wfsid r, r.fib) := by
  simp only [RapsCore.accepts] at h
  simp only [runEvent, fsm_eq, h, if_true]
  rfl

theorem runEvent_act {r : ActionResult} (h : core.accepts eb = true) (hr : core.act link eb = .ok r)
    (hc : checkPeer r.peer = .ok ()) :
    runEvent link core eb = .ok (core.acted eb.wfsid r, r.fib) := by
  rw [runEvent_accept h, hr]
  simp only [Except.bind, hc]

/-- **What executing an event amounts to**: nothing, or its action on the entry of its
    station. -/
theorem runEvent_ok {core' : RapsCore} (h : runEvent link core eb = .ok (core', fib)) :
    (core.accepts eb = false ∧ core' = core ∧ fib = []) ∨
      (core.accepts eb = true ∧ ∃ r, core.act link eb = .ok r ∧
        core' = core.acted eb.wfsid r ∧ fib = r.fib) := by
  cases hacc : core.accepts eb with
  | false =>
    rw [runEvent_skip hacc] at h
    simp only [Except.ok.injEq, Prod.mk.injEq] at h
    exact .inl ⟨rfl, h.1.symm, h.2.symm⟩
  | true =>
    rw [runEvent_accept hacc] at h
    cases hr : core.act link eb with
    | error f => simp [hr, Except.bind] at h
    | ok r =>
      cases hc : checkPeer r.peer with
      | error f => simp [hr, hc, Except.bind] at h
      | ok u =>
        simp only [hr, hc, Except.bind, Except.ok.injEq, Prod.mk.injEq] at h
        exact .inr ⟨rfl, r, rfl, h.1.symm, h.2.symm⟩

theorem runEvent_peer_ne {core' : RapsCore} (h : runEvent link core eb = .ok (core', fib))
    {id : WfsId} (hid : id ≠ eb.wfsid) : core'.peer id = core.peer id := by
  rcases runEvent_ok h with ⟨_, rfl, _⟩ | ⟨_, r, _, rfl, _⟩
  · rfl
  · exact Function.update_of_ne hid _ _

theorem runEvent_wfsId {core' : RapsCore} (h : runEvent link core eb = .ok (core', fib)) :
    core'.wfsId = core.wfsId := by
  rcases runEvent_ok h with ⟨_, rfl, _⟩ | ⟨_, r, _, rfl, _⟩ <;> rfl

theorem runBody_ok {s t : RunState} (h : runBody view s eb = .ok t) :
    ∃ core fib, runEvent (view s.done) s.core eb = .ok (core, fib) ∧
      t = { core, fib := s.fib ++ fib, done := s.done + 1 } := by
  simp only [runBody] at h
  cases hr : runEvent (view s.done) s.core eb with
  | error f => simp [hr, bind, Except.bind] at h
  | ok r =>
    simp only [hr, bind, Except.bind, pure, Except.pure, Except.ok.injEq] at h
    exact ⟨r.1, r.2, rfl, h.symm⟩

theorem runBody_of_runEvent {s : RunState}
    (h : runEvent (view s.done) s.core eb = .ok (core, fib)) :
    runBody view s eb = .ok { core, fib := s.fib ++ fib, done := s.done + 1 } := by
  simp only [runBody, h]
  rfl

end VmkDrivers.Wfs
