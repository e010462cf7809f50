/-
  VmkDrivers.Wfs.RapsSpec

  What one step of a station can do, over a queue of events.

  `requested` are the events a call of `ixgbe_wfs_fsm_set_event` asks for; the
  call queues a prefix of them, all unless a buffer was refused
  (`ixgbeWfsFsmSetEvent_spec`).  Apart from running the queue, ageing the
  peers and restarting, every operation only queues events and leaves the
  routes of the peers alone (`RapsOp.step_quiet`).
-/

import VmkDrivers.Lib.ExceptLoop
import VmkDrivers.Wfs.Raps

namespace VmkDrivers.Wfs

open VmkDrivers.Lib

/-! ## Pending events -/

/-- An event `e` of station `id` is among the events. -/
def HasEvent (e : WfsFsmEvent) (id : WfsId) (l : List EventRec) : Prop :=
  ∃ eb ∈ l, eb.wfsid = id ∧ eb.event = e

instance (e : WfsFsmEvent) (id : WfsId) (l : List EventRec) : Decidable (HasEvent e id l) :=
  inferInstanceAs (Decidable (∃ eb ∈ l, eb.wfsid = id ∧ eb.event = e))

variable {e : WfsFsmEvent} {id : WfsId} {evdata : WfsFsmEventData} {s t : Iwa EvQueue}
  {noBuffer : Bool} {op : RapsOp} {eff : Effects} {k : Kmalloc} {ids : List WfsId} (c : RapsCtrl)

theorem HasEvent.append_left {l : List EventRec} (h : HasEvent e id l) (l' : List EventRec) :
    HasEvent e id (l ++ l') := by
  obtain ⟨eb, hmem, heb⟩ := h
  exact ⟨eb, List.mem_append_left _ hmem, heb⟩

/-! ## Queueing events -/

/-- `wfsid` addresses the station `id`. -/
def Addresses (wfsid : UInt8) (id : WfsId) : Prop := wfsid = wfsidAll ∨ wfsid = id.byte

instance (wfsid : UInt8) (id : WfsId) : Decidable (Addresses wfsid id) :=
  inferInstanceAs (Decidable (_ ∨ _))

/-- The event `e` has an entry in the current state of station `id`. -/
def RapsCore.admits (core : RapsCore) (e : WfsFsmEvent) (id : WfsId) : Bool :=
  validEntry (core.peer id).fsmState e (id = core.wfsId)

/-- The events asked for at the stations `ids`. -/
def requestedOf (core : RapsCore) (wfsid : UInt8) (e : WfsFsmEvent) (evdata : WfsFsmEventData)
    (ids : List WfsId) : List EventRec :=
  (ids.filter fun id => Addresses wfsid id && core.admits e id).map fun id => ⟨id, e, evdata⟩

/-- The events a call of `ixgbe_wfs_fsm_set_event` asks for. -/
def requested {π : Type} (s : Iwa π) (wfsid : UInt8) (e : WfsFsmEvent)
    (evdata : WfsFsmEventData) : List EventRec :=
  if s.state = .opened then requestedOf s.core wfsid e evdata wfsIds else []

theorem mem_wfsIds (id : WfsId) : id ∈ wfsIds := List.mem_finRange id

theorem wfsIds_nodup : wfsIds.Nodup := List.nodup_finRange 8

theorem mem_requested {π : Type} {s : Iwa π} {wfsid : UInt8} {eb : EventRec} :
    eb ∈ requested s wfsid e evdata ↔
      s.state = .opened ∧ Addresses wfsid eb.wfsid ∧ s.core.admits e eb.wfsid = true ∧
        eb = ⟨eb.wfsid, e, evdata⟩ := by
  unfold requested
  split
  · next ho =>
    simp only [requestedOf, List.mem_map, List.mem_filter, mem_wfsIds, true_and,
      Bool.and_eq_true, decide_eq_true_eq, ho]
    constructor
    · rintro ⟨id, ⟨ha, hv⟩, rfl⟩
      exact ⟨ha, hv, rfl⟩
    · rintro ⟨ha, hv, heq⟩
      exact ⟨eb.wfsid, ⟨ha, hv⟩, heq.symm⟩
  · next ho => simp [ho]

/-- `q'` is `q` with the events `evs` appended, each in a buffer of its own. -/
structure EvQueue.Appended (q : EvQueue) (evs : List EventRec) (q' : EvQueue) : Prop where
  pending : q'.pending = q.pending ++ evs
  /-- The buffers neither free nor pending are as many as before. -/
  balance : q'.free + q'.pending.length + q.count = q.free + q.pending.length + q'.count

theorem EvQueue.Appended.refl (q : EvQueue) : q.Appended [] q := ⟨by simp, rfl⟩

theorem EvQueue.Appended.trans {q q' q'' : EvQueue} {evs evs' : List EventRec}
    (h : q.Appended evs q') (h' : q'.Appended evs' q'') : q.Appended (evs ++ evs') q'' :=
  ⟨by rw [h'.pending, h.pending, List.append_assoc],
    by have := h.balance; have := h'.balance; omega⟩

theorem EvQueue.enqueue_spec {q q' : EvQueue} {k : Bool} {ev : EventRec}
    (h : q.enqueue k ev = some q') : q.Appended [ev] q' := by
  unfold EvQueue.enqueue at h
  split at h
  · simp only [Option.some.injEq] at h
    subst h
    exact ⟨rfl, by simp only [List.length_append, List.length_singleton]; omega⟩
  · split at h
    · simp only [Option.some.injEq] at h
      subst h
      exact ⟨rfl, by simp only [List.length_append, List.length_singleton]; omega⟩
    · simp at h

/-- The adapter after the events `evs` were queued. -/
def Iwa.queued (s : Iwa EvQueue) (evs : List EventRec) (pool : EvQueue) : Iwa EvQueue :=
  { s with pool }.setFlag
    { s.core.ctrl.flag with fsmEvent := s.core.ctrl.flag.fsmEvent || !evs.isEmpty }

theorem Iwa.queued_nil (s : Iwa EvQueue) : s.queued [] s.pool = s := by
  simp [Iwa.queued, Iwa.setFlag, Iwa.setCtrl]

open RapsCore

theorem setEventLoop_spec (k : Kmalloc) (wfsid : UInt8) (e : WfsFsmEvent)
    (evdata : WfsFsmEventData) (ids : List WfsId) (s : Iwa EvQueue) :
    ∃ evs pool, (setEventLoop k wfsid e evdata ids s).1 = s.queued evs pool ∧
      s.pool.Appended evs pool ∧ evs <+: requestedOf s.core wfsid e evdata ids ∧
      ((setEventLoop k wfsid e evdata ids s).2 = false →
        evs = requestedOf s.core wfsid e evdata ids) := by
  induction ids generalizing s with
  | nil => exact ⟨[], s.pool, s.queued_nil.symm, .refl _, List.nil_prefix, fun _ => rfl⟩
  | cons id ids ih =>
    simp only [setEventLoop]
    split
    · next hid =>
      have hreq : requestedOf s.core wfsid e evdata (id :: ids) =
          requestedOf s.core wfsid e evdata ids := by
        simp [requestedOf, Addresses, hid]
      rw [hreq]
      exact ih s
    · next hid =>
      have hadd : Addresses wfsid id := by
        unfold Addresses
        by_contra hno
        exact hid (not_or.mp hno)
      split
      · next hadm =>
        have hreq : requestedOf s.core wfsid e evdata (id :: ids) =
            requestedOf s.core wfsid e evdata ids := by
          have hno : s.core.admits e id = false := by simpa [admits] using hadm
          simp [requestedOf, hno]
        rw [hreq]
        exact ih s
      · next hadm =>
        have hreq : requestedOf s.core wfsid e evdata (id :: ids) =
            ⟨id, e, evdata⟩ :: requestedOf s.core wfsid e evdata ids := by
          have hyes : s.core.admits e id = true := by simpa [admits] using hadm
          simp [requestedOf, hadd, hyes]
        rw [hreq]
        simp only [EventStore.enqueue]
        cases henq : s.pool.enqueue (k id) ⟨id, e, evdata⟩ with
        | none => exact ⟨[], s.pool, s.queued_nil.symm, .refl _, List.nil_prefix, by simp⟩
        | some q =>
          obtain ⟨evs, pool, heq, happ, hpre, hall⟩ :=
            ih ({ s with pool := q }.setFlag { s.core.ctrl.flag with fsmEvent := true })
          refine ⟨⟨id, e, evdata⟩ :: evs, pool, ?_, ?_, ?_, ?_⟩
          · refine heq.trans ?_
            simp [Iwa.queued, Iwa.setFlag, Iwa.setCtrl]
          · exact (EvQueue.enqueue_spec henq).trans happ
          · exact (List.prefix_cons_inj _).mpr hpre
          · intro hserved
            exact congrArg _ (hall hserved)

/-- **`ixgbe_wfs_fsm_set_event`** queues a prefix of the events it asks for, and all of
    them unless a buffer was refused. -/
theorem ixgbeWfsFsmSetEvent_spec (k : Kmalloc) (wfsid : UInt8) (e : WfsFsmEvent)
    (evdata : WfsFsmEventData) (s : Iwa EvQueue) :
    ∃ evs pool, (ixgbeWfsFsmSetEvent k wfsid e evdata s).1 = s.queued evs pool ∧
      s.pool.Appended evs pool ∧ evs <+: requested s wfsid e evdata ∧
      ((ixgbeWfsFsmSetEvent k wfsid e evdata s).2 = false → evs = requested s wfsid e evdata) := by
  unfold ixgbeWfsFsmSetEvent requested
  by_cases ho : s.state = .opened
  · simp only [ho, ne_eq, not_true, if_false, if_true]
    exact setEventLoop_spec k wfsid e evdata wfsIds s
  · simp only [ho, ne_eq, not_false_iff, if_true, if_false]
    exact ⟨[], s.pool, s.queued_nil.symm, .refl _, List.nil_prefix, fun _ => rfl⟩

/-! ## Quiet operations -/

structure WfsPeer.SameRoute (a b : WfsPeer) : Prop where
  fsmState : a.fsmState = b.fsmState
  channelPri : a.channelPri = b.channelPri
  channelSec : a.channelSec = b.channelSec
  ttlPri : a.ttlPri = b.ttlPri
  ttlSec : a.ttlSec = b.ttlSec

theorem WfsPeer.SameRoute.refl (a : WfsPeer) : a.SameRoute a := ⟨rfl, rfl, rfl, rfl, rfl⟩

theorem WfsPeer.SameRoute.trans {a b c : WfsPeer} (h : a.SameRoute b) (h' : b.SameRoute c) :
    a.SameRoute c :=
  ⟨h.fsmState.trans h'.fsmState, h.channelPri.trans h'.channelPri,
    h.channelSec.trans h'.channelSec, h.ttlPri.trans h'.ttlPri, h.ttlSec.trans h'.ttlSec⟩

/-- `t` differs from `s` neither in the routes of the peers nor in the flag of their timer. -/
structure Quiet (s t : Iwa EvQueue) : Prop where
  wfsId : t.core.wfsId = s.core.wfsId
  peer : ∀ id, (t.core.peer id).SameRoute (s.core.peer id)
  peerTtl : t.core.ctrl.flag.peerTtl = s.core.ctrl.flag.peerTtl

def RapsOp.quiet : RapsOp → Bool
  | .fsmEvent _ | .peerTtl _ | .rapsStart _ _ => false
  | _ => true

def announceData (adapter : Port) (opt : WfsoptAnnounce) : WfsFsmEventData :=
  { announce := {
      peerPort := opt.port, isPrimaryAnnouce := opt.portPri, recvChannel := some adapter } }

def RapsOp.requests {π : Type} (s : Iwa π) : RapsOp → List EventRec
  | .setEvent _ wfsid e evdata => requested s wfsid e evdata
  | .linkIsDown _ _ => requested s wfsidAll .localSF {}
  | .linkIsUp _ p => if s.link p.other then requested s wfsidAll .clearLocalSF {} else []
  | .announce _ adapter src opt =>
    if opt.portPri || opt.portSec then
      requested s src.byte .discover (announceData adapter opt)
    else []
  | .raps _ adapter src opt =>
    if opt.request = wfsoptRapsReqNR then requested s src.byte .rapsNR {}
    else if opt.request = wfsoptRapsReqSF then
      match rapsSFData (s.core.peer src) adapter opt with
      | none => []
      | some evdata => requested s src.byte .rapsSF evdata
    else []
  | _ => []

/-- What a quiet operation does: it queues a prefix of the events it asks for. -/
structure QuietStep (s t : Iwa EvQueue) (requests : List EventRec) (noBuffer : Bool) : Prop where
  quiet : Quiet s t
  queued : ∃ evs, s.pool.Appended evs t.pool ∧ evs <+: requests ∧
    (noBuffer = false → evs = requests) ∧
    t.core.ctrl.flag.fsmEvent = (s.core.ctrl.flag.fsmEvent || !evs.isEmpty)

theorem QuietStep.idle (h : Quiet s t) (hpool : t.pool = s.pool)
    (hflag : t.core.ctrl.flag.fsmEvent = s.core.ctrl.flag.fsmEvent) : QuietStep s t [] noBuffer :=
  ⟨h, [], by rw [hpool]; exact .refl _, List.nil_prefix, fun _ => rfl, by simp [hflag]⟩

theorem requested_congr (h : Quiet s t) (hstate : t.state = s.state) (wfsid : UInt8)
    (e : WfsFsmEvent) (evdata : WfsFsmEventData) :
    requested t wfsid e evdata = requested s wfsid e evdata := by
  have hadm : t.core.admits e = s.core.admits e := by
    funext id
    simp only [admits, h.wfsId, (h.peer id).fsmState]
  simp only [requested, requestedOf, hstate, hadm]

theorem QuietStep.setEvent {s₁ : Iwa EvQueue} (h : Quiet s s₁) (hpool : s₁.pool = s.pool)
    (hstate : s₁.state = s.state) (hflag : s₁.core.ctrl.flag.fsmEvent = s.core.ctrl.flag.fsmEvent)
    (k : Kmalloc) (wfsid : UInt8) (e : WfsFsmEvent) (evdata : WfsFsmEventData) :
    QuietStep s (ixgbeWfsFsmSetEvent k wfsid e evdata s₁).1 (requested s wfsid e evdata)
      (ixgbeWfsFsmSetEvent k wfsid e evdata s₁).2 := by
  obtain ⟨evs, pool, heq, happ, hpre, hall⟩ := ixgbeWfsFsmSetEvent_spec k wfsid e evdata s₁
  rw [requested_congr h hstate] at hpre hall
  rw [hpool] at happ
  refine ⟨⟨?_, ?_, ?_⟩, evs, ?_, hpre, hall, ?_⟩
  · rw [heq]; exact h.wfsId
  · intro id; rw [heq]; exact h.peer id
  · rw [heq]; exact h.peerTtl
  · rw [heq]; exact happ
  · rw [heq, ← hflag]; rfl

theorem Quiet.of_core (h : t.core = s.core) : Quiet s t := by
  refine ⟨by rw [h], ?_, by rw [h]⟩
  intro id
  rw [h]
  exact .refl _

theorem QuietStep.of_core (hcore : t.core = s.core) (hpool : t.pool = s.pool) :
    QuietStep s t [] noBuffer :=
  .idle (.of_core hcore) hpool (by rw [hcore])

theorem QuietStep.setEvent_of_core {s₁ : Iwa EvQueue} (hcore : s₁.core = s.core)
    (hpool : s₁.pool = s.pool) (hstate : s₁.state = s.state) (k : Kmalloc) (wfsid : UInt8)
    (e : WfsFsmEvent) (evdata : WfsFsmEventData) :
    QuietStep s (ixgbeWfsFsmSetEvent k wfsid e evdata s₁).1 (requested s wfsid e evdata)
      (ixgbeWfsFsmSetEvent k wfsid e evdata s₁).2 :=
  .setEvent (.of_core hcore) hpool hstate (by rw [hcore]) k wfsid e evdata

theorem rapsAnnounceTimer_flag : (rapsAnnounceTimer c).1.flag = c.flag := by
  unfold rapsAnnounceTimer
  split
  · dsimp only; split <;> rfl
  · rfl

theorem rapsNRTimer_flag :
    (rapsNRTimer c).1.flag = { c.flag with nr := (rapsNRTimer c).1.flag.nr } := by
  unfold rapsNRTimer
  split
  · dsimp only
    split
    · split <;> rfl
    · rfl
  · rfl

theorem rapsSFTimer_flag : (rapsSFTimer c).1.flag = c.flag := by
  unfold rapsSFTimer
  split
  · dsimp only; split <;> rfl
  · rfl

theorem rapsTimers_flag :
    (rapsTimers c).1.flag = { c.flag with nr := (rapsTimers c).1.flag.nr } := by
  simp only [rapsTimers]
  rw [rapsSFTimer_flag, rapsNRTimer_flag, rapsAnnounceTimer_flag]

open QuietStep RapsOp

/-- **Quiet steps.** -/
theorem RapsOp.step_quiet (hq : op.quiet = true) (h : op.step s = .ok (t, eff)) :
    QuietStep s t (op.requests s) eff.noBuffer := by
  cases op with
  | fsmEvent view => simp [quiet] at hq
  | peerTtl k => simp [quiet] at hq
  | rapsStart k ip => simp [quiet] at hq
  | setEvent k wfsid e evdata =>
    simp only [step, Except.ok.injEq, Prod.mk.injEq] at h
    obtain ⟨rfl, rfl⟩ := h
    exact .setEvent_of_core rfl rfl rfl k wfsid e evdata
  | updateLink p up =>
    simp only [step, Except.ok.injEq, Prod.mk.injEq] at h
    obtain ⟨rfl, rfl⟩ := h
    refine of_core ?_ ?_ <;> rfl
  | linkIsDown k p =>
    simp only [step, Except.ok.injEq, Prod.mk.injEq] at h
    obtain ⟨rfl, rfl⟩ := h
    simp only [ixgbeWatchdogLinkIsDown]
    split <;> refine setEvent_of_core ?_ ?_ ?_ k wfsidAll .localSF {} <;> rfl
  | linkIsUp k p =>
    simp only [step, Except.ok.injEq, Prod.mk.injEq] at h
    obtain ⟨rfl, rfl⟩ := h
    simp only [ixgbeWatchdogLinkIsUp, RapsOp.requests]
    -- a clear is requested where this brings both links up
    cases s.linkUp <;> cases hp : s.link p.other <;>
      simp only [Bool.not_false, Bool.not_true, Bool.false_eq_true, if_true, if_false, hp]
    · refine of_core ?_ ?_ <;> rfl
    · refine setEvent_of_core ?_ ?_ ?_ k wfsidAll .clearLocalSF {} <;> rfl
    · refine of_core ?_ ?_ <;> rfl
    · refine setEvent_of_core ?_ ?_ ?_ k wfsidAll .clearLocalSF {} <;> rfl
  | announce k adapter src opt =>
    simp only [step, Except.ok.injEq, Prod.mk.injEq] at h
    obtain ⟨rfl, rfl⟩ := h
    have hset : Quiet s
        (s.setPeer src { s.core.peer src with mac := opt.mac, ip := opt.ip }) := by
      refine ⟨rfl, ?_, rfl⟩
      intro id
      by_cases hid : id = src
      · subst hid; simp only [Iwa.setPeer, Function.update_self]; exact ⟨rfl, rfl, rfl, rfl, rfl⟩
      · simp only [Iwa.setPeer, Function.update_of_ne hid]; exact .refl _
    -- only an announcement that names a port is an event
    cases hpri : opt.portPri with
    | true =>
      simp only [wfsProcessAnnounce, RapsOp.requests, announceData, hpri, if_true, Bool.true_or]
      exact .setEvent hset rfl rfl rfl k src.byte .discover _
    | false =>
      cases hsec : opt.portSec with
      | true =>
        simp only [wfsProcessAnnounce, RapsOp.requests, announceData, hpri, hsec,
          Bool.false_eq_true, if_false, if_true, Bool.false_or]
        exact .setEvent hset rfl rfl rfl k src.byte .discover _
      | false =>
        simp only [wfsProcessAnnounce, RapsOp.requests, hpri, hsec,
          Bool.false_eq_true, if_false, Bool.false_or]
        exact .idle hset rfl rfl
  | raps k adapter src opt =>
    simp only [step, Except.ok.injEq, Prod.mk.injEq] at h
    obtain ⟨rfl, rfl⟩ := h
    simp only [wfsProcessRaps, RapsOp.requests]
    split
    · exact .setEvent_of_core rfl rfl rfl k src.byte .rapsNR {}
    · split
      · cases rapsSFData (s.core.peer src) adapter opt with
        | none => exact .of_core rfl rfl
        | some evdata => exact .setEvent_of_core rfl rfl rfl k src.byte .rapsSF evdata
      · exact .of_core rfl rfl
  -- the timers touch the NR flag only
  | timers =>
    simp only [step, Except.ok.injEq, Prod.mk.injEq] at h
    obtain ⟨rfl, rfl⟩ := h
    refine QuietStep.idle (Quiet.mk ?_ ?_ ?_) ?_ ?_
    · rfl
    · exact fun _ => .refl _
    · simp only [Iwa.setCtrl]; rw [rapsTimers_flag]
    · rfl
    · simp only [Iwa.setCtrl]; rw [rapsTimers_flag]
  | misc ip =>
    simp only [step, Except.ok.injEq, Prod.mk.injEq] at h
    obtain ⟨rfl, rfl⟩ := h
    have hset : Quiet s (rapsMisc ip s) := by
      refine ⟨rfl, ?_, rfl⟩
      intro id
      by_cases hid : id = s.core.wfsId
      · subst hid
        simp only [rapsMisc, Function.update_self]
        exact ⟨rfl, rfl, rfl, rfl, rfl⟩
      · simp only [rapsMisc, Function.update_of_ne hid]
        exact .refl _
    exact .idle hset rfl rfl
  | openPorts =>
    simp only [step, Except.ok.injEq, Prod.mk.injEq] at h
    obtain ⟨rfl, rfl⟩ := h
    refine of_core ?_ ?_ <;> rfl
  | rapsStop =>
    simp only [step, Except.ok.injEq, Prod.mk.injEq] at h
    obtain ⟨rfl, rfl⟩ := h
    refine of_core ?_ ?_ <;> rfl
  | closePorts =>
    simp only [step, Except.ok.injEq, Prod.mk.injEq] at h
    obtain ⟨rfl, rfl⟩ := h
    refine of_core ?_ ?_ <;> rfl

/-! ## Running the queue -/

/-- The core after `wfs_fsm_run`. -/
def RapsCore.ranFsm (core : RapsCore) : RapsCore :=
  { core with ctrl := { core.ctrl with flag := { core.ctrl.flag with fsmEvent := false } } }

/-- **`wfs_fsm_run`** handles the pending events in order and empties the queue. -/
theorem wfsFsmRun_eq (view : Nat → Port → Bool) (s : Iwa EvQueue) :
    wfsFsmRun view s =
      (s.pool.pending.foldlM (runBody view) { core := s.core }).map fun r =>
        ({ s with
            core := r.core.ranFsm
            pool := { s.pool with
              pending := [], free := s.pool.free + s.pool.pending.length } }, r.fib) := by
  simp only [wfsFsmRun, EventStore.walk, EvQueue.walk]
  cases s.pool.pending.foldlM (runBody view) { core := s.core } <;> rfl

/-! ## Ageing the peers -/

/-- `wfs_update_peers` looks at the station `id`. -/
def RapsCore.ages (core : RapsCore) (id : WfsId) : Bool :=
  (core.peer id).fsmState ≠ .init && id ≠ core.wfsId

/-- The stations of `ids` for which `wfs_update_peers` asks for an `E_expire`. -/
def RapsCore.expiring (core : RapsCore) (ids : List WfsId) : List WfsId :=
  ids.filter fun id => core.ages id && sentExpired (core.peer id)

/-- Ask for an `E_expire` of each station; a refused one is skipped. -/
def requestExpire (k : Kmalloc) : List WfsId → EvQueue → EvQueue
  | [], q => q
  | id :: ids, q => requestExpire k ids ((q.enqueue (k id) ⟨id, .expire, {}⟩).getD q)

theorem setEventLoop_skip {wfsid : UInt8} (s : Iwa EvQueue) (h : ∀ id ∈ ids, ¬Addresses wfsid id) :
    setEventLoop k wfsid e evdata ids s = (s, false) := by
  induction ids with
  | nil => rfl
  | cons id ids ih =>
    have hid : wfsid ≠ wfsidAll ∧ wfsid ≠ id.byte := not_or.mp (h id (by simp))
    rw [setEventLoop, if_pos hid]
    exact ih fun i hi => h i (by simp [hi])

theorem setEventLoop_one (hnd : ids.Nodup) (hmem : id ∈ ids) (s : Iwa EvQueue)
    (hadm : s.core.admits e id = true) :
    setEventLoop k id.byte e evdata ids s =
      match s.pool.enqueue (k id) ⟨id, e, evdata⟩ with
      | none => (s, true)
      | some pool => (s.queued [⟨id, e, evdata⟩] pool, false) := by
  have hother : ∀ i, i ≠ id → ¬Addresses id.byte i := by
    intro i hi
    simp [Addresses, hi.symm]
  induction ids with
  | nil => simp at hmem
  | cons i ids ih =>
    rw [List.nodup_cons] at hnd
    by_cases hi : i = id
    · subst hi
      have hskip : ∀ j ∈ ids, ¬Addresses i.byte j :=
        fun j hj => hother j fun hji => hnd.1 (hji ▸ hj)
      have hvalid : validEntry (s.core.peer i).fsmState e (i = s.core.wfsId) = true := hadm
      simp only [setEventLoop, hvalid, EventStore.enqueue, ne_eq, not_true, and_false,
        if_false, Bool.not_true, Bool.false_eq_true]
      cases s.pool.enqueue (k i) ⟨i, e, evdata⟩ with
      | none => rfl
      | some q =>
        simp only [setEventLoop_skip _ hskip, Iwa.queued, List.isEmpty_cons, Bool.not_false,
          Bool.or_true]
    · have hno : id.byte ≠ wfsidAll ∧ id.byte ≠ i.byte := not_or.mp (hother i hi)
      rw [setEventLoop, if_pos hno]
      have hmem' : id ∈ ids := by
        rcases List.mem_cons.mp hmem with rfl | hm
        · exact absurd rfl hi
        · exact hm
      exact ih hnd.2 hmem'

/-- The adapter `t` is `s` after `wfs_update_peers` looked at the stations `ids`. -/
structure Aged (k : Kmalloc) (ids : List WfsId) (s t : Iwa EvQueue) : Prop where
  wfsId : t.core.wfsId = s.core.wfsId
  state : t.state = s.state
  link : t.link = s.link
  peerTtl : t.core.ctrl.flag.peerTtl = s.core.ctrl.flag.peerTtl
  peer : ∀ id, t.core.peer id =
    if id ∈ ids ∧ s.core.ages id then tickPeer (s.core.peer id) else s.core.peer id
  pool : t.pool =
    if s.state = .opened then requestExpire k (s.core.expiring ids) s.pool else s.pool
  fsmEvent : s.core.ctrl.flag.fsmEvent = true → t.core.ctrl.flag.fsmEvent = true

theorem requestExpire_append (k : Kmalloc) (ids ids' : List WfsId) (q : EvQueue) :
    requestExpire k (ids ++ ids') q = requestExpire k ids' (requestExpire k ids q) := by
  induction ids generalizing q with
  | nil => rfl
  | cons id ids ih => exact ih _

theorem Aged.ages (h : Aged k ids s t) (id : WfsId) : t.core.ages id = s.core.ages id := by
  have hstate : (t.core.peer id).fsmState = (s.core.peer id).fsmState := by
    rw [h.peer id]
    split <;> rfl
  simp only [RapsCore.ages, hstate, h.wfsId]

theorem Aged.refl (k : Kmalloc) (s : Iwa EvQueue) (h : ∀ id ∈ ids, s.core.ages id = false) :
    Aged k ids s s := by
  have hexp : s.core.expiring ids = [] := by
    rw [expiring, List.filter_eq_nil_iff]
    intro id hid
    simp [h id hid]
  refine ⟨rfl, rfl, rfl, rfl, ?_, by simp [hexp, requestExpire], id⟩
  intro id
  split
  · next hid => simp [h id hid.1] at hid
  · rfl

theorem Aged.append {ids' : List WfsId} {u : Iwa EvQueue} (h : Aged k ids s t)
    (h' : Aged k ids' t u) (hdis : ∀ id ∈ ids', id ∉ ids) : Aged k (ids ++ ids') s u := by
  have hpeer : ∀ id ∈ ids', t.core.peer id = s.core.peer id := by
    intro id hid
    rw [h.peer id, if_neg fun hmem => hdis id hid hmem.1]
  refine ⟨h'.wfsId.trans h.wfsId, h'.state.trans h.state, h'.link.trans h.link,
    h'.peerTtl.trans h.peerTtl, ?_, ?_, fun hf => h'.fsmEvent (h.fsmEvent hf)⟩
  · intro id
    rw [h'.peer id, h.ages id]
    by_cases hid : id ∈ ids'
    · simp [hid, hpeer id hid]
    · simp [hid, h.peer id]
  · have hexp : s.core.expiring (ids ++ ids') = s.core.expiring ids ++ t.core.expiring ids' := by
      rw [expiring, List.filter_append, expiring, expiring]
      congr 1
      refine List.filter_congr ?_
      intro id hid
      rw [h.ages id, hpeer id hid]
    rw [h'.pool, h.pool, h.state, hexp, requestExpire_append]
    split <;> rfl

theorem setPeer_tick_peer (hage : s.core.ages id = true) (i : WfsId) :
    (s.setPeer id (tickPeer (s.core.peer id))).core.peer i =
      if i ∈ [id] ∧ s.core.ages i then tickPeer (s.core.peer i) else s.core.peer i := by
  by_cases hi : i = id
  · subst hi; simp [Iwa.setPeer, hage]
  · simp [Iwa.setPeer, hi]

theorem aged_setPeer (k : Kmalloc) (hage : s.core.ages id = true)
    (hexp : sentExpired (s.core.peer id) = false) :
    Aged k [id] s (s.setPeer id (tickPeer (s.core.peer id))) := by
  refine ⟨rfl, rfl, rfl, rfl, setPeer_tick_peer hage, ?_, fun hf => hf⟩
  simp [Iwa.setPeer, expiring, hexp, requestExpire]

theorem aged_setEvent (k : Kmalloc) (hage : s.core.ages id = true)
    (hexp : sentExpired (s.core.peer id) = true) :
    Aged k [id] s (ixgbeWfsFsmSetEvent k id.byte .expire {}
      (s.setPeer id (tickPeer (s.core.peer id)))).1 := by
  have hpeer := setPeer_tick_peer hage
  have hexpiring : s.core.expiring [id] = [id] := by simp [RapsCore.expiring, hage, hexp]
  have hage' : (s.core.peer id).fsmState ≠ .init ∧ id ≠ s.core.wfsId := by
    simpa [RapsCore.ages] using hage
  have hadm : (s.setPeer id (tickPeer (s.core.peer id))).core.admits .expire id = true := by
    simp only [RapsCore.admits, Iwa.setPeer, Function.update_self, tickPeer, hage'.2, decide_false]
    cases hst : (s.core.peer id).fsmState with
    | init => exact absurd hst hage'.1
    | idle => rfl
    | protect => rfl
  have hstate : (s.setPeer id (tickPeer (s.core.peer id))).state = s.state := rfl
  have hpool : (s.setPeer id (tickPeer (s.core.peer id))).pool = s.pool := rfl
  unfold ixgbeWfsFsmSetEvent
  rw [hstate]
  by_cases ho : s.state = .opened
  · rw [if_neg (not_not.mpr ho), setEventLoop_one wfsIds_nodup (mem_wfsIds id) _ hadm, hpool]
    cases henq : s.pool.enqueue (k id) ⟨id, .expire, {}⟩ with
    | none =>
      exact ⟨rfl, rfl, rfl, rfl, hpeer, by simp [ho, hexpiring, requestExpire, henq, hpool],
        fun hf => hf⟩
    | some q =>
      refine ⟨rfl, rfl, rfl, rfl, hpeer, ?_, fun _ => ?_⟩
      · simp [ho, hexpiring, requestExpire, henq, Iwa.queued, Iwa.setFlag, Iwa.setCtrl]
      · simp [Iwa.queued, Iwa.setFlag, Iwa.setCtrl]
  · rw [if_pos ho]
    exact ⟨rfl, rfl, rfl, rfl, hpeer, by simp [ho, hpool], fun hf => hf⟩

theorem updatePeersLoop_spec (k : Kmalloc) (hnd : ids.Nodup) (s : Iwa EvQueue) (count : Nat)
    (refused : Bool) :
    Aged k ids s (updatePeersLoop k ids s count refused).1 ∧
      (updatePeersLoop k ids s count refused).2.1 = count + (ids.filter s.core.ages).length := by
  induction ids generalizing s count refused with
  | nil => exact ⟨.refl k s (by simp), rfl⟩
  | cons id ids ih =>
    rw [List.nodup_cons] at hnd
    have hdis : ∀ i ∈ ids, i ∉ [id] := by
      intro i hi hmem
      rw [List.mem_singleton.mp hmem] at hi
      exact hnd.1 hi
    -- what handling `id` does, and what the rest of the loop does after it
    have hcons : ∀ (t : Iwa EvQueue) (c : Nat) (r : Bool), Aged k [id] s t →
        c = count + ([id].filter s.core.ages).length →
        Aged k (id :: ids) s (updatePeersLoop k ids t c r).1 ∧
          (updatePeersLoop k ids t c r).2.1 =
            count + ((id :: ids).filter s.core.ages).length := by
      intro t c r ht hc
      obtain ⟨haged, hcount⟩ := ih hnd.2 t c r
      refine ⟨ht.append haged hdis, ?_⟩
      have hfilter : ids.filter t.core.ages = ids.filter s.core.ages :=
        List.filter_congr fun i _ => ht.ages i
      have hsplit : (id :: ids).filter s.core.ages =
          [id].filter s.core.ages ++ ids.filter s.core.ages := by
        rw [← List.filter_append]
        rfl
      rw [hcount, hfilter, hc, hsplit, List.length_append]
      omega
    simp only [updatePeersLoop]
    split
    · next hskip =>
      have hage : s.core.ages id = false := by
        simp only [ages, Bool.and_eq_false_iff, decide_eq_false_iff_not, not_not]
        exact hskip
      exact hcons s count refused (.refl k s (by simpa using hage)) (by simp [hage])
    · next hskip =>
      have hage : s.core.ages id = true := by
        simp only [ages, Bool.and_eq_true, decide_eq_true_eq]
        exact not_or.mp hskip
      split
      · next hexp => exact hcons _ _ _ (aged_setEvent k hage hexp) (by simp [hage])
      · next hexp => exact hcons _ _ _ (aged_setPeer k hage (by simpa using hexp)) (by simp [hage])

/-- **`wfs_update_peers`** ages the peers, asks for an `E_expire` of those whose time has
    come, and stops the timer when no peer is left. -/
theorem wfsUpdatePeers_spec (k : Kmalloc) (s : Iwa EvQueue) :
    ∃ t, Aged k wfsIds s t ∧
      (wfsUpdatePeers k s).1 =
        if ∀ id, s.core.ages id = false then
          t.setFlag { t.core.ctrl.flag with peerTtl := false }
        else t := by
  obtain ⟨haged, hcount⟩ := updatePeersLoop_spec k wfsIds_nodup s 0 false
  refine ⟨_, haged, ?_⟩
  have hiff : (updatePeersLoop k wfsIds s 0 false).2.1 = 0 ↔ ∀ id, s.core.ages id = false := by
    rw [hcount, Nat.zero_add, List.length_eq_zero_iff, List.filter_eq_nil_iff]
    simp [mem_wfsIds]
  simp only [wfsUpdatePeers]
  by_cases hz : (updatePeersLoop k wfsIds s 0 false).2.1 = 0
  · rw [if_pos hz, if_pos (hiff.mp hz)]
  · rw [if_neg hz, if_neg (fun h => hz (hiff.mpr h))]

theorem requestExpire_appended (k : Kmalloc) (ids : List WfsId) (q : EvQueue) :
    ∃ evs, q.Appended evs (requestExpire k ids q) ∧
      ∀ eb ∈ evs, eb.wfsid ∈ ids ∧ eb = ⟨eb.wfsid, .expire, {}⟩ := by
  induction ids generalizing q with
  | nil => exact ⟨[], .refl q, by simp⟩
  | cons id ids ih =>
    cases henq : q.enqueue (k id) ⟨id, .expire, {}⟩ with
    | none =>
      obtain ⟨evs, happ, hevs⟩ := ih q
      refine ⟨evs, by simpa [requestExpire, henq] using happ, ?_⟩
      intro eb heb
      exact ⟨List.mem_cons_of_mem _ (hevs eb heb).1, (hevs eb heb).2⟩
    | some q' =>
      obtain ⟨evs, happ, hevs⟩ := ih q'
      refine ⟨⟨id, .expire, {}⟩ :: evs, ?_, ?_⟩
      · simpa [requestExpire, henq] using (EvQueue.enqueue_spec henq).trans happ
      · intro eb heb
        rcases List.mem_cons.mp heb with rfl | heb
        · exact ⟨by simp, rfl⟩
        · exact ⟨List.mem_cons_of_mem _ (hevs eb heb).1, (hevs eb heb).2⟩

/-! ## Waiting for the next run -/

def RapsOp.waits : RapsOp → Bool
  | .fsmEvent _ | .rapsStart _ _ => false
  | _ => true

/-- From `s` to `t` no event was executed: the channels are the same, the pending events
    still wait in front of newer ones. -/
structure Waited (s t : Iwa EvQueue) : Prop where
  wfsId : t.core.wfsId = s.core.wfsId
  fsmState : ∀ id, (t.core.peer id).fsmState = (s.core.peer id).fsmState
  channelPri : ∀ id, (t.core.peer id).channelPri = (s.core.peer id).channelPri
  channelSec : ∀ id, (t.core.peer id).channelSec = (s.core.peer id).channelSec
  pending : s.pool.pending <+: t.pool.pending
  fsmEvent : s.core.ctrl.flag.fsmEvent = true → t.core.ctrl.flag.fsmEvent = true

theorem Waited.refl (s : Iwa EvQueue) : Waited s s :=
  ⟨rfl, fun _ => rfl, fun _ => rfl, fun _ => rfl, List.prefix_rfl, id⟩

theorem Waited.trans {u : Iwa EvQueue} (h : Waited s t) (h' : Waited t u) : Waited s u :=
  ⟨h'.wfsId.trans h.wfsId, fun id => (h'.fsmState id).trans (h.fsmState id),
    fun id => (h'.channelPri id).trans (h.channelPri id),
    fun id => (h'.channelSec id).trans (h.channelSec id), h.pending.trans h'.pending,
    fun hf => h'.fsmEvent (h.fsmEvent hf)⟩

theorem QuietStep.waited {requests : List EventRec} (h : QuietStep s t requests noBuffer) :
    Waited s t := by
  obtain ⟨evs, happ, _, _, hflag⟩ := h.queued
  refine ⟨h.quiet.wfsId, fun id => (h.quiet.peer id).fsmState,
    fun id => (h.quiet.peer id).channelPri, fun id => (h.quiet.peer id).channelSec, ?_, ?_⟩
  · rw [happ.pending]; exact List.prefix_append _ _
  · intro hf
    rw [hflag, hf, Bool.true_or]

theorem Aged.waited (h : Aged k ids s t) : Waited s t := by
  refine ⟨h.wfsId, ?_, ?_, ?_, ?_, h.fsmEvent⟩
  · intro id; rw [h.peer id]; split <;> rfl
  · intro id; rw [h.peer id]; split <;> rfl
  · intro id; rw [h.peer id]; split <;> rfl
  · rw [h.pool]
    split
    · obtain ⟨evs, happ, _⟩ := requestExpire_appended k (s.core.expiring ids) s.pool
      rw [happ.pending]
      exact List.prefix_append _ _
    · exact List.prefix_rfl

theorem rapsPeerTtl_waited (k : Kmalloc) (s : Iwa EvQueue) : Waited s (rapsPeerTtl k s).1 := by
  unfold rapsPeerTtl
  split
  · obtain ⟨t, ha, heq⟩ := wfsUpdatePeers_spec k s
    have hw := ha.waited
    rw [heq]
    split
    · exact ⟨hw.wfsId, hw.fsmState, hw.channelPri, hw.channelSec, hw.pending, hw.fsmEvent⟩
    · exact hw
  · exact .refl s

/-- **Waiting.** Only a run of the queue and a restart touch the pending events and the
    channels. -/
theorem RapsOp.step_waited (hw : op.waits = true) (h : op.step s = .ok (t, eff)) : Waited s t := by
  cases hq : op.quiet with
  | true => exact (step_quiet hq h).waited
  | false =>
    cases op with
    | peerTtl k =>
      simp only [step, Except.ok.injEq, Prod.mk.injEq] at h
      exact h.1 ▸ rapsPeerTtl_waited k s
    | fsmEvent | rapsStart => simp [waits] at hw
    | setEvent | updateLink | linkIsDown | linkIsUp | announce | raps | timers | misc
    | openPorts | rapsStop | closePorts => simp [quiet] at hq

theorem waited_of_run {ops : List RapsOp} (hrun : Run RapsStep s ops t)
    (hops : ∀ op ∈ ops, op.waits = true) : Waited s t := by
  induction hrun with
  | nil s => exact .refl s
  | cons hstep _ ih =>
    obtain ⟨_, eff, hok⟩ := hstep
    exact (step_waited (hops _ (by simp)) hok).trans
      (ih fun op hop => hops op (by simp [hop]))

/-! ## Starting -/

/-- The core `ixgbe_wfs_raps_start` sets up before it queues the first event. -/
def RapsCore.started (s : Iwa EvQueue) (ip : UInt32) : RapsCore :=
  { s.core with
    ctrl := {}, ip, peer := Function.update (fun _ => {}) s.core.wfsId (localPeer s ip) }

/-- **`ixgbe_wfs_raps_start`** forgets the peers and the queue and discovers the own
    station. -/
theorem ixgbeWfsRapsStart_spec (k : Kmalloc) (ip : UInt32) (s : Iwa EvQueue) :
    ∃ evs pool, (ixgbeWfsRapsStart k ip s).1 =
        { Iwa.queued { s with core := .started s ip } evs pool with rapsTimer := true } ∧
      EvQueue.Appended { s.pool with pending := [] } evs pool ∧
      ∀ eb ∈ evs, eb = ⟨s.core.wfsId, .discover, {}⟩ := by
  obtain ⟨evs, pool, heq, happ, hpre, _⟩ :=
    ixgbeWfsFsmSetEvent_spec k s.core.wfsId.byte .discover {}
      { s with core := .started s ip, pool := { s.pool with pending := [] } }
  refine ⟨evs, pool, ?_, happ, ?_⟩
  · exact congrArg (fun t : Iwa EvQueue => { t with rapsTimer := true }) heq
  · intro eb heb
    obtain ⟨_, haddr, _, hev⟩ := mem_requested.mp (hpre.subset heb)
    have hid : s.core.wfsId = eb.wfsid := by
      rcases haddr with hall | hbyte
      · exact absurd hall (WfsId.byte_ne_all _)
      · exact WfsId.byte_inj.mp hbyte
    rw [hid]
    exact hev

/-! ## Control state -/

structure Control where
  state : AdapterState
  rapsTimer : Bool
  link : Port → Bool

def Iwa.control (s : Iwa EvQueue) : Control := ⟨s.state, s.rapsTimer, s.link⟩

def RapsOp.control (c : Control) : RapsOp → Control
  | .updateLink p up => { c with link := Function.update c.link p up }
  | .linkIsDown _ p => { c with link := Function.update c.link p false }
  | .openPorts => { c with state := .opened }
  | .rapsStart _ _ => { c with rapsTimer := true }
  | .rapsStop => { c with rapsTimer := false }
  | .closePorts => { c with state := .closed }
  | _ => c

theorem ixgbeWfsFsmSetEvent_control (k : Kmalloc) (wfsid : UInt8) (e : WfsFsmEvent)
    (evdata : WfsFsmEventData) (s : Iwa EvQueue) :
    (ixgbeWfsFsmSetEvent k wfsid e evdata s).1.control = s.control := by
  obtain ⟨evs, pool, heq, _⟩ := ixgbeWfsFsmSetEvent_spec k wfsid e evdata s
  rw [heq]
  rfl

theorem rapsFsmEvent_control {view : Nat → Port → Bool} {fib : List FibCall}
    (h : rapsFsmEvent view s = .ok (t, fib)) : t.control = s.control := by
  unfold rapsFsmEvent at h
  split at h
  · rw [wfsFsmRun_eq] at h
    cases hrun : s.pool.pending.foldlM (runBody view) { core := s.core } with
    | error f => simp [hrun, Except.map] at h
    | ok r =>
      simp only [hrun, Except.map, Except.ok.injEq, Prod.mk.injEq] at h
      rw [← h.1]
      rfl
  · simp only [Except.ok.injEq, Prod.mk.injEq] at h
    rw [h.1]

theorem rapsPeerTtl_control (k : Kmalloc) (s : Iwa EvQueue) :
    (rapsPeerTtl k s).1.control = s.control := by
  have htimer := rapsPeerTtl_rapsTimer k s
  unfold rapsPeerTtl at htimer ⊢
  split
  · next hflag =>
    obtain ⟨t, ha, heq⟩ := wfsUpdatePeers_spec k s
    rw [if_pos hflag, heq] at htimer
    rw [heq]
    have hstate := ha.state
    have hlink := ha.link
    split <;> simp_all [Iwa.control, Iwa.setFlag, Iwa.setCtrl]
  · rfl

/-- **Control.** -/
theorem RapsOp.step_control (h : op.step s = .ok (t, eff)) : t.control = op.control s.control := by
  cases op with
  | fsmEvent view =>
    simp only [step] at h
    cases hrun : rapsFsmEvent view s with
    | error f => simp [hrun, bind, Except.bind] at h
    | ok r =>
      obtain ⟨u, fib⟩ := r
      simp only [hrun, bind, Except.bind, pure, Except.pure, Except.ok.injEq, Prod.mk.injEq] at h
      rw [← h.1]
      exact rapsFsmEvent_control hrun
  | setEvent k wfsid e evdata =>
    simp only [step, Except.ok.injEq, Prod.mk.injEq] at h
    exact h.1 ▸ ixgbeWfsFsmSetEvent_control ..
  | linkIsDown k p =>
    simp only [step, ixgbeWatchdogLinkIsDown, Except.ok.injEq, Prod.mk.injEq] at h
    rw [← h.1, ixgbeWfsFsmSetEvent_control]
    split <;> rfl
  | linkIsUp k p =>
    simp only [step, ixgbeWatchdogLinkIsUp, Except.ok.injEq, Prod.mk.injEq] at h
    rw [← h.1]
    cases s.linkUp <;> cases hp : s.link p.other <;>
      simp only [Bool.not_false, Bool.not_true, Bool.false_eq_true, if_true, if_false, hp,
        ixgbeWfsFsmSetEvent_control] <;> rfl
  | announce k adapter src opt =>
    simp only [step, wfsProcessAnnounce, Except.ok.injEq, Prod.mk.injEq] at h
    rw [← h.1]
    cases opt.portPri <;> cases opt.portSec <;>
      simp only [Bool.false_eq_true, if_true, if_false, ixgbeWfsFsmSetEvent_control] <;> rfl
  | raps k adapter src opt =>
    simp only [step, wfsProcessRaps, Except.ok.injEq, Prod.mk.injEq] at h
    rw [← h.1]
    split
    · exact ixgbeWfsFsmSetEvent_control ..
    · split
      · cases rapsSFData (s.core.peer src) adapter opt with
        | none => rfl
        | some evdata => exact ixgbeWfsFsmSetEvent_control ..
      · rfl
  | peerTtl k =>
    simp only [step, Except.ok.injEq, Prod.mk.injEq] at h
    exact h.1 ▸ rapsPeerTtl_control k s
  | rapsStart k ip =>
    simp only [step, Except.ok.injEq, Prod.mk.injEq] at h
    obtain ⟨evs, pool, heq, _⟩ := ixgbeWfsRapsStart_spec k ip s
    rw [← h.1, heq]
    rfl
  | updateLink | timers | misc | openPorts | rapsStop | closePorts =>
    simp only [step, Except.ok.injEq, Prod.mk.injEq] at h
    exact h.1 ▸ rfl

end VmkDrivers.Wfs
