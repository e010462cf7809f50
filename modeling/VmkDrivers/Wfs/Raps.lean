/-
  VmkDrivers.Wfs.Raps

  The adapter of a station and the functions of `ixgbe_wfs_raps.c`,
  `ixgbe_wfs.c` and `ixgbe_main.c` that drive its state machine: queueing an
  event, the parts of `raps_main`, start and stop, the handlers of announce
  and RAPS frames and the reports of the link watchdog.

  Everything is written over an arbitrary `EventStore`.  A refused buffer
  shows in the flag that says whether "no more event buffer" was logged.

  `RapsStep` is the transition system of one station.  `raps_lock` keeps other
  ticks out of `raps_main` but not the callers of `ixgbe_wfs_fsm_set_event`,
  so the parts of a tick are steps of their own, and so are the two halves
  of `ixgbe_open` and `ixgbe_close`.
-/

import VmkDrivers.Lib.Transition
import VmkDrivers.Wfs.EventPool

namespace VmkDrivers.Wfs

open VmkDrivers.Lib

/-! ## State -/

/-- `struct ixgbe_wfs_adapter`. -/
structure Iwa (π : Type) where
  state : AdapterState
  core : RapsCore
  /-- `adapter->link_up` of the two ports. -/
  link : Port → Bool
  wfsPort : Port → Int
  /-- `iwa->link_up`: some port has link. -/
  linkUp : Bool
  /-- `netif_carrier_ok`. -/
  carrier : Bool
  /-- `raps_timer` is pending. -/
  rapsTimer : Bool
  pool : π

/-- The station ids in the order of the loops over `WFSID_MIN ..= WFSID_MAX`. -/
def wfsIds : List WfsId := List.finRange 8

/-- Whether the `kmalloc` of an event for this station would succeed. -/
abbrev Kmalloc := WfsId → Bool

structure Effects where
  fib : List FibCall := []
  tx : List TxCall := []
  /-- "no more event buffer" was logged. -/
  noBuffer : Bool := false
deriving DecidableEq, Repr

section Functions

variable {π : Type} [EventStore π]

def Iwa.probed (wfsId : WfsId) (macAddr : Mac) (wfsPort : Port → Int) (pool : π) : Iwa π where
  state := .initialized
  core := { wfsId, macAddr, ip := 0, ctrl := {}, peer := fun _ => {} }
  link := fun _ => false
  wfsPort
  linkUp := false
  carrier := false
  rapsTimer := false
  pool

def Iwa.setCtrl (s : Iwa π) (ctrl : RapsCtrl) : Iwa π :=
  { s with core := { s.core with ctrl } }

def Iwa.setFlag (s : Iwa π) (flag : RapsFlag) : Iwa π :=
  s.setCtrl { s.core.ctrl with flag }

def Iwa.setPeer (s : Iwa π) (id : WfsId) (peer : WfsPeer) : Iwa π :=
  { s with core := { s.core with peer := Function.update s.core.peer id peer } }

/-! ## Events -/

/-- The loop of `ixgbe_wfs_fsm_set_event`. -/
def setEventLoop (k : Kmalloc) (wfsid : UInt8) (e : WfsFsmEvent) (evdata : WfsFsmEventData) :
    List WfsId → Iwa π → Iwa π × Bool
  | [], s => (s, false)
  | id :: ids, s =>
    if wfsid ≠ wfsidAll ∧ wfsid ≠ id.byte then setEventLoop k wfsid e evdata ids s
    else if !validEntry (s.core.peer id).fsmState e (id = s.core.wfsId) then
      setEventLoop k wfsid e evdata ids s
    else
      match EventStore.enqueue s.pool (k id) ⟨id, e, evdata⟩ with
      | none => (s, true)
      | some pool =>
        setEventLoop k wfsid e evdata ids
          ({ s with pool }.setFlag { s.core.ctrl.flag with fsmEvent := true })

def ixgbeWfsFsmSetEvent (k : Kmalloc) (wfsid : UInt8) (e : WfsFsmEvent)
    (evdata : WfsFsmEventData) (s : Iwa π) : Iwa π × Bool :=
  if s.state ≠ .opened then (s, false) else setEventLoop k wfsid e evdata wfsIds s

/-- `wfs_fsm_run`, with the port states the actions read. -/
def wfsFsmRun (view : Nat → Port → Bool) (s : Iwa π) : Except Fault (Iwa π × List FibCall) := do
  let (r, pool) ← EventStore.walk (runBody view) { core := s.core } s.pool
  let s := { s with core := r.core, pool }
  pure (s.setFlag { s.core.ctrl.flag with fsmEvent := false }, r.fib)

/-! ## The parts of `raps_main` -/

/-- "process FSM event". -/
def rapsFsmEvent (view : Nat → Port → Bool) (s : Iwa π) : Except Fault (Iwa π × List FibCall) :=
  if s.core.ctrl.flag.fsmEvent then wfsFsmRun view s else .ok (s, [])

/-- A timer, a 32-bit `int`, one tick later. -/
def tickTimer (t : Int) : Int := (t - rapsTick).bmod (2 ^ 32)

/-- "process announce timer". -/
def rapsAnnounceTimer (c : RapsCtrl) : RapsCtrl × List TxCall :=
  if c.flag.announce then
    let t := tickTimer c.tAnnounce
    if t ≤ 0 then ({ c with tAnnounce := rapsAnnounceInt }, [.announce])
    else ({ c with tAnnounce := t }, [])
  else (c, [])

/-- The NR half of "process raps timer". -/
def rapsNRTimer (c : RapsCtrl) : RapsCtrl × List TxCall :=
  if c.flag.nr then
    let t := tickTimer c.tRapsNR
    if t ≤ 0 then
      if 0 < c.cRapsNR then
        ({ c with cRapsNR := c.cRapsNR - 1, tRapsNR := rapsNRInt }, [.raps .rapsNR])
      else ({ c with tRapsNR := t, flag := { c.flag with nr := false } }, [])
    else ({ c with tRapsNR := t }, [])
  else (c, [])

/-- The SF half of "process raps timer".  It rearms the NR counter, so an SF is repeated
    every tick. -/
def rapsSFTimer (c : RapsCtrl) : RapsCtrl × List TxCall :=
  if c.flag.sf then
    let t := tickTimer c.tRapsSF
    if t ≤ 0 then ({ c with tRapsSF := t, tRapsNR := rapsSFInt }, [.raps .rapsSF])
    else ({ c with tRapsSF := t }, [])
  else (c, [])

def rapsTimers (c : RapsCtrl) : RapsCtrl × List TxCall :=
  let (c, tx₁) := rapsAnnounceTimer c
  let (c, tx₂) := rapsNRTimer c
  let (c, tx₃) := rapsSFTimer c
  (c, tx₁ ++ tx₂ ++ tx₃)

def tickTtl (ttl : Int) : Int := if 0 < ttl then ttl - rapsTick else ttl

def ttlCrosses (ttl : Int) : Bool := 0 < ttl && ttl - rapsTick ≤ 0

def tickPeer (peer : WfsPeer) : WfsPeer :=
  { peer with ttlPri := tickTtl peer.ttlPri, ttlSec := tickTtl peer.ttlSec }

/-- `sent_expired` of `wfs_update_peers`. -/
def sentExpired (peer : WfsPeer) : Bool := ttlCrosses peer.ttlPri || ttlCrosses peer.ttlSec

/-- The loop of `wfs_update_peers`, with `count` and whether an event was refused. -/
def updatePeersLoop (k : Kmalloc) : List WfsId → Iwa π → Nat → Bool → Iwa π × Nat × Bool
  | [], s, count, refused => (s, count, refused)
  | id :: ids, s, count, refused =>
    let peer := s.core.peer id
    if peer.fsmState = .init ∨ id = s.core.wfsId then updatePeersLoop k ids s count refused
    else
      let s := s.setPeer id (tickPeer peer)
      if sentExpired peer then
        let (s, r) := ixgbeWfsFsmSetEvent k id.byte .expire {} s
        updatePeersLoop k ids s (count + 1) (refused || r)
      else updatePeersLoop k ids s (count + 1) refused

def wfsUpdatePeers (k : Kmalloc) (s : Iwa π) : Iwa π × Bool :=
  let (s, count, refused) := updatePeersLoop k wfsIds s 0 false
  (if count = 0 then s.setFlag { s.core.ctrl.flag with peerTtl := false } else s, refused)

/-- "process peer ttl timer". -/
def rapsPeerTtl (k : Kmalloc) (s : Iwa π) : Iwa π × Bool :=
  if s.core.ctrl.flag.peerTtl then wfsUpdatePeers k s else (s, false)

/-- "misc": take over the address of the interface. -/
def rapsMisc (ip : UInt32) (s : Iwa π) : Iwa π :=
  { s with core := { s.core with
      ip
      peer := Function.update s.core.peer s.core.wfsId { s.core.peer s.core.wfsId with ip } } }

/-- `raps_main` when nothing runs in between its parts.  It rearms the timer that fired. -/
def rapsMain (view : Nat → Port → Bool) (k : Kmalloc) (ip : UInt32) (s : Iwa π) :
    Except Fault (Iwa π × Effects) := do
  let (s, fib) ← rapsFsmEvent view s
  let (ctrl, tx) := rapsTimers s.core.ctrl
  let (s, noBuffer) := rapsPeerTtl k (s.setCtrl ctrl)
  pure (rapsMisc ip s, { fib, tx, noBuffer })

/-! ## Start and stop -/

/-- The entry of the own station `ixgbe_wfs_raps_start` fills in. -/
def localPeer (s : Iwa π) (ip : UInt32) : WfsPeer :=
  { mac := s.core.macAddr
    ip
    channelPri := some .primary
    channelSec := some .secondary
    portPri := s.wfsPort .primary
    portSec := s.wfsPort .secondary
    ttlPri := rapsPeerTimeout
    ttlSec := rapsPeerTimeout }

def ixgbeWfsRapsStart (k : Kmalloc) (ip : UInt32) (s : Iwa π) : Iwa π × Bool :=
  let core := { s.core with
    ctrl := {}, ip, peer := Function.update (fun _ => {}) s.core.wfsId (localPeer s ip) }
  let (s, refused) := ixgbeWfsFsmSetEvent k s.core.wfsId.byte .discover {}
    { s with core, pool := EventStore.forget s.pool }
  ({ s with rapsTimer := true }, refused)

def ixgbeWfsRapsStop (s : Iwa π) : Iwa π := { s with rapsTimer := false }

/-! ## Link watchdog -/

def ixgbeWatchdogLinkIsDown (k : Kmalloc) (p : Port) (s : Iwa π) : Iwa π × Bool :=
  let s := { s with link := Function.update s.link p false }
  let s := if !s.link p.other then { s with linkUp := false, carrier := false } else s
  ixgbeWfsFsmSetEvent k wfsidAll .localSF {} s

def ixgbeWatchdogLinkIsUp (k : Kmalloc) (p : Port) (s : Iwa π) : Iwa π × Bool :=
  let s := if !s.linkUp then { s with linkUp := true, carrier := true } else s
  if s.link p.other then ixgbeWfsFsmSetEvent k wfsidAll .clearLocalSF {} s else (s, false)

/-! ## Received options -/

end Functions

structure WfsoptAnnounce where
  mac : Mac
  /-- The address in host order. -/
  ip : UInt32
  portPri : Bool
  portSec : Bool
  port : UInt8
deriving DecidableEq, Repr

def wfsoptRapsReqNR : UInt8 := 1
def wfsoptRapsReqSF : UInt8 := 2

structure WfsoptRaps where
  request : UInt8
  flush : Bool
  dnf : Bool
deriving DecidableEq, Repr

inductive RapsVerdict where
  /-- The type was set to `WFSPKT_TYPE_CTRL_NONE`: no forward. -/
  | ctrlNone
  /-- Source, destination and `dnf` were rewritten: the frame goes on as the own one. -/
  | reoriginate
deriving DecidableEq, Repr

section Handlers

variable {π : Type} [EventStore π]

/-- `wfs_process_announce` for a frame of station `src` received on port `adapter`. -/
def wfsProcessAnnounce (k : Kmalloc) (adapter : Port) (src : WfsId) (opt : WfsoptAnnounce)
    (s : Iwa π) : Iwa π × Bool :=
  let s := s.setPeer src { s.core.peer src with mac := opt.mac, ip := opt.ip }
  if opt.portPri then
    ixgbeWfsFsmSetEvent k src.byte .discover
      { announce := {
          peerPort := opt.port, isPrimaryAnnouce := true, recvChannel := some adapter } } s
  else if opt.portSec then
    ixgbeWfsFsmSetEvent k src.byte .discover
      { announce := {
          peerPort := opt.port, isPrimaryAnnouce := false, recvChannel := some adapter } } s
  else (s, false)

/-- The event data of an SF received on `adapter`: the failure is on the other channel;
    `none` when the port is no channel of the peer. -/
def rapsSFData (peer : WfsPeer) (adapter : Port) (opt : WfsoptRaps) : Option WfsFsmEventData :=
  if some adapter = peer.channelPri then
    some { raps := { failureOnPrimary := false, flush := opt.flush } }
  else if some adapter = peer.channelSec then
    some { raps := { failureOnPrimary := true, flush := opt.flush } }
  else none

/-- The end of `wfs_process_raps`. -/
def rapsVerdict (opt : WfsoptRaps) : RapsVerdict := if opt.dnf then .ctrlNone else .reoriginate

/-- `wfs_process_raps` for a frame of station `src` received on port `adapter`. -/
def wfsProcessRaps (k : Kmalloc) (adapter : Port) (src : WfsId) (opt : WfsoptRaps)
    (s : Iwa π) : Iwa π × Bool × RapsVerdict :=
  if opt.request = wfsoptRapsReqNR then
    let (s, r) := ixgbeWfsFsmSetEvent k src.byte .rapsNR {} s
    (s, r, rapsVerdict opt)
  else if opt.request = wfsoptRapsReqSF then
    match rapsSFData (s.core.peer src) adapter opt with
    | none => (s, false, .ctrlNone)
    | some evdata =>
      let (s, r) := ixgbeWfsFsmSetEvent k src.byte .rapsSF evdata s
      (s, r, rapsVerdict opt)
  else (s, false, rapsVerdict opt)

end Handlers

/-! ## Transition system -/

/-- The operations on the adapter of one station, each with what it takes from the
    outside: allocation outcomes, the port states the actions read, the interface
    address and the received option. -/
inductive RapsOp where
  /-- `ixgbe_wfs_fsm_set_event` from any source. -/
  | setEvent (k : Kmalloc) (wfsid : UInt8) (e : WfsFsmEvent) (evdata : WfsFsmEventData)
  | updateLink (p : Port) (up : Bool)
  | linkIsDown (k : Kmalloc) (p : Port)
  | linkIsUp (k : Kmalloc) (p : Port)
  | announce (k : Kmalloc) (adapter : Port) (src : WfsId) (opt : WfsoptAnnounce)
  | raps (k : Kmalloc) (adapter : Port) (src : WfsId) (opt : WfsoptRaps)
  | fsmEvent (view : Nat → Port → Bool)
  | timers
  | peerTtl (k : Kmalloc)
  | misc (ip : UInt32)
  /-- `ixgbe_open` up to `iwa->state = opened`. -/
  | openPorts
  | rapsStart (k : Kmalloc) (ip : UInt32)
  | rapsStop
  /-- `ixgbe_close` after `ixgbe_wfs_raps_stop`. -/
  | closePorts

section System

variable {π : Type} [EventStore π] {view : Nat → Port → Bool} (k : Kmalloc)

/-- When the driver performs an operation.  Announces carry the adapter they were received
    on, the own station is only discovered by `ixgbe_wfs_raps_start`, frames come from
    other stations, and a tick needs the timer. -/
def RapsOp.enabled (s : Iwa π) : RapsOp → Prop
  | .setEvent _ wfsid e evdata =>
    e = .discover → wfsid ≠ s.core.wfsId.byte → evdata.announce.recvChannel ≠ none
  | .announce _ _ src _ | .raps _ _ src _ => src ≠ s.core.wfsId
  | .fsmEvent _ | .timers | .peerTtl _ | .misc _ => s.rapsTimer = true
  | .openPorts => s.state ≠ .opened
  | .rapsStart _ _ | .closePorts => s.state = .opened ∧ s.rapsTimer = false
  | .rapsStop => s.state = .opened
  | .updateLink _ _ | .linkIsDown _ _ | .linkIsUp _ _ => True

def RapsOp.step (op : RapsOp) (s : Iwa π) : Except Fault (Iwa π × Effects) :=
  match op with
  | .setEvent k wfsid e evdata =>
    let (s, noBuffer) := ixgbeWfsFsmSetEvent k wfsid e evdata s
    .ok (s, { noBuffer })
  | .updateLink p up => .ok ({ s with link := Function.update s.link p up }, {})
  | .linkIsDown k p =>
    let (s, noBuffer) := ixgbeWatchdogLinkIsDown k p s
    .ok (s, { noBuffer })
  | .linkIsUp k p =>
    let (s, noBuffer) := ixgbeWatchdogLinkIsUp k p s
    .ok (s, { noBuffer })
  | .announce k adapter src opt =>
    let (s, noBuffer) := wfsProcessAnnounce k adapter src opt s
    .ok (s, { noBuffer })
  | .raps k adapter src opt =>
    let (s, noBuffer, _) := wfsProcessRaps k adapter src opt s
    .ok (s, { noBuffer })
  | .fsmEvent view => do
    let (s, fib) ← rapsFsmEvent view s
    pure (s, { fib })
  | .timers =>
    let (ctrl, tx) := rapsTimers s.core.ctrl
    .ok (s.setCtrl ctrl, { tx })
  | .peerTtl k =>
    let (s, noBuffer) := rapsPeerTtl k s
    .ok (s, { noBuffer })
  | .misc ip => .ok (rapsMisc ip s, {})
  | .openPorts => .ok ({ s with state := .opened, carrier := false }, {})
  | .rapsStart k ip =>
    let (s, noBuffer) := ixgbeWfsRapsStart k ip s
    .ok (s, { noBuffer })
  | .rapsStop => .ok (ixgbeWfsRapsStop s, {})
  | .closePorts => .ok ({ s with state := .closed, carrier := false }, {})

/-- One step of a station. -/
def RapsStep (s : Iwa π) (op : RapsOp) (t : Iwa π) : Prop :=
  op.enabled s ∧ ∃ eff, op.step s = .ok (t, eff)

instance RapsOp.decidableEnabled (s : Iwa π) : (op : RapsOp) → Decidable (op.enabled s)
  | .setEvent _ _ _ _ => inferInstanceAs (Decidable (_ = _ → _ ≠ _ → _ ≠ _))
  | .announce _ _ _ _ | .raps _ _ _ _ | .openPorts => inferInstanceAs (Decidable (_ ≠ _))
  | .fsmEvent _ | .timers | .peerTtl _ | .misc _ | .rapsStop =>
    inferInstanceAs (Decidable (_ = _))
  | .rapsStart _ _ | .closePorts => inferInstanceAs (Decidable (_ ∧ _))
  | .updateLink _ _ | .linkIsDown _ _ | .linkIsUp _ _ => inferInstanceAs (Decidable True)

def RapsOp.next? (s : Iwa π) (op : RapsOp) : Option (Iwa π) :=
  if op.enabled s then
    match op.step s with
    | .ok (t, _) => some t
    | .error _ => none
  else none

theorem RapsOp.next?_eq_some_iff (s : Iwa π) (op : RapsOp) (t : Iwa π) :
    op.next? s = some t ↔ RapsStep s op t := by
  simp only [RapsOp.next?, RapsStep]
  by_cases hen : op.enabled s
  · cases hstep : op.step s with
    | error f => simp [hen]
    | ok r =>
      simp only [hen, if_true, true_and, Option.some.injEq, Except.ok.injEq, Prod.ext_iff]
      exact ⟨fun h => ⟨r.2, h, rfl⟩, fun ⟨_, h, _⟩ => h⟩
  · simp [hen]

theorem RapsStep.unique {s t t' : Iwa π} {op : RapsOp} (h : RapsStep s op t)
    (h' : RapsStep s op t') : t = t' := by
  have heq := ((RapsOp.next?_eq_some_iff s op t).mpr h).symm.trans
    ((RapsOp.next?_eq_some_iff s op t').mpr h')
  exact Option.some.inj heq

theorem rapsStep_unique (s : Iwa π) (op : RapsOp) (t t' : Iwa π) (h : RapsStep s op t)
    (h' : RapsStep s op t') : t = t' := h.unique h'

theorem rapsRun_iff_exec {s t : Iwa π} {ops : List RapsOp} :
    Run.exec (fun s op => RapsOp.next? s op) s ops = some t ↔ Run RapsStep s ops t :=
  Run.exec_eq_some_iff RapsOp.next?_eq_some_iff

/-! ## Ticks -/

theorem setEventLoop_rapsTimer (wfsid : UInt8) (e : WfsFsmEvent) (evdata : WfsFsmEventData)
    (ids : List WfsId) (s : Iwa π) :
    (setEventLoop k wfsid e evdata ids s).1.rapsTimer = s.rapsTimer := by
  induction ids generalizing s with
  | nil => rfl
  | cons id ids ih =>
    simp only [setEventLoop]
    split
    · exact ih s
    · split
      · exact ih s
      · split
        · rfl
        · exact ih _

theorem ixgbeWfsFsmSetEvent_rapsTimer (wfsid : UInt8) (e : WfsFsmEvent) (evdata : WfsFsmEventData)
    (s : Iwa π) : (ixgbeWfsFsmSetEvent k wfsid e evdata s).1.rapsTimer = s.rapsTimer := by
  unfold ixgbeWfsFsmSetEvent
  split
  · rfl
  · exact setEventLoop_rapsTimer k wfsid e evdata wfsIds s

theorem updatePeersLoop_rapsTimer (ids : List WfsId) (s : Iwa π) (count : Nat) (refused : Bool) :
    (updatePeersLoop k ids s count refused).1.rapsTimer = s.rapsTimer := by
  induction ids generalizing s count refused with
  | nil => rfl
  | cons id ids ih =>
    simp only [updatePeersLoop]
    split
    · exact ih ..
    · split
      · exact (ih ..).trans (ixgbeWfsFsmSetEvent_rapsTimer ..)
      · exact ih ..

theorem rapsPeerTtl_rapsTimer (s : Iwa π) : (rapsPeerTtl k s).1.rapsTimer = s.rapsTimer := by
  unfold rapsPeerTtl
  split
  · simp only [wfsUpdatePeers]
    split <;> exact updatePeersLoop_rapsTimer ..
  · rfl

theorem rapsFsmEvent_rapsTimer {s t : Iwa π} {fib : List FibCall}
    (h : rapsFsmEvent view s = .ok (t, fib)) : t.rapsTimer = s.rapsTimer := by
  unfold rapsFsmEvent at h
  split at h
  · simp only [wfsFsmRun] at h
    cases hwalk : EventStore.walk (runBody view) { core := s.core } s.pool with
    | error f => simp [hwalk, bind, Except.bind] at h
    | ok r =>
      simp only [hwalk, bind, Except.bind, pure, Except.pure, Except.ok.injEq, Prod.mk.injEq] at h
      exact h.1 ▸ rfl
  · simp only [Except.ok.injEq, Prod.mk.injEq] at h
    exact h.1 ▸ rfl

theorem rapsMain_run {s t : Iwa π} {k : Kmalloc} {ip : UInt32} {eff : Effects}
    (htimer : s.rapsTimer = true) (h : rapsMain view k ip s = .ok (t, eff)) :
    Run RapsStep s [.fsmEvent view, .timers, .peerTtl k, .misc ip] t := by
  simp only [rapsMain] at h
  cases hfsm : rapsFsmEvent view s with
  | error f => simp [hfsm, bind, Except.bind] at h
  | ok r =>
    obtain ⟨s₁, fib⟩ := r
    have h₁ : s₁.rapsTimer = true := (rapsFsmEvent_rapsTimer hfsm).trans htimer
    simp only [hfsm, bind, Except.bind, pure, Except.pure, Except.ok.injEq, Prod.mk.injEq] at h
    obtain ⟨rfl, _⟩ := h
    refine .cons ⟨htimer, { fib }, by simp only [RapsOp.step, hfsm]; rfl⟩ ?_
    refine .cons ⟨h₁, _, rfl⟩ ?_
    refine .cons ⟨h₁, _, rfl⟩ ?_
    exact .single ⟨(rapsPeerTtl_rapsTimer k _).trans h₁, _, rfl⟩

end System

end VmkDrivers.Wfs
