/-
  VmkDrivers.Wfs.PeerState

  The state of a remote peer is a function of its two channels.

  `S_idle` means that a primary channel is known, `S_protect` that only a
  secondary one is, `S_init` that none is; the two channels are different
  ports, and the own entry keeps both.  Each of the six actions preserves
  this (`PeerOk.discover`, ..., `PeerOk.rapsNR`), hence so does every step
  of a station, and the checks of the actions and of `wfs_fsm_run` never
  fire.
-/

import VmkDrivers.Wfs.RapsRefine
import VmkDrivers.Wfs.RapsSpec

namespace VmkDrivers.Wfs

open VmkDrivers.Lib WfsFsmState RapsOp

/-! ## One peer -/

def routeState : Option Port → Option Port → WfsFsmState
  | some _, _ => idle
  | none, some _ => protect
  | none, none => init

structure PeerOk (peer : WfsPeer) : Prop where
  state_eq : peer.fsmState = routeState peer.channelPri peer.channelSec
  distinct : ∀ p, peer.channelPri = some p → peer.channelSec ≠ some p

structure LocalOk (peer : WfsPeer) : Prop where
  pri : peer.channelPri = some .primary
  sec : peer.channelSec = some .secondary

/-- An action that runs through and leaves the peer in a state with property `P`. -/
def Action.Leaves (action : Action) (P : WfsPeer → Prop) (myId : WfsId) (link : Port → Bool)
    (wfsid : WfsId) (evdata : WfsFsmEventData) (ctrl : RapsCtrl) (peer : WfsPeer) : Prop :=
  ∃ r, action myId link wfsid evdata ctrl peer = .ok r ∧ P r.peer

section Actions

variable {myId wfsid : WfsId} {link : Port → Bool} {evdata : WfsFsmEventData} {ctrl : RapsCtrl}
  {peer : WfsPeer} {a : AnnounceEventData} {e : WfsFsmEvent}

theorem discover_state {state : WfsFsmState} {pri sec : Option Port} (h : pri ≠ none ∨ sec ≠ none) :
    (match state with
      | init => if pri.isSome then idle else if sec.isSome then protect else init
      | idle => if !pri.isSome then protect else idle
      | protect => if pri.isSome then idle else protect) = routeState pri sec := by
  cases pri with
  | some p => cases state <;> rfl
  | none =>
    cases sec with
    | none => simp at h
    | some q => cases state <;> rfl

theorem discoverChannels_known (peer : WfsPeer) (h : a.recvChannel ≠ none) :
    (discoverChannels peer a).channelPri ≠ none ∨ (discoverChannels peer a).channelSec ≠ none := by
  unfold discoverChannels
  split
  · exact .inl h
  · exact .inr h

theorem discoverChannels_distinct (p : Port) (h : (discoverChannels peer a).channelPri = some p) :
    (discoverChannels peer a).channelSec ≠ some p := by
  unfold discoverChannels at h ⊢
  split
  · next hpri =>
    simp only [hpri, if_true, WfsPeer.dropSec] at h ⊢
    by_cases hsec : peer.channelSec = a.recvChannel
    · simp [hsec]
    · simpa [hsec] using fun heq => hsec (heq.trans h.symm)
  · next hpri =>
    simp only [hpri, WfsPeer.dropPri] at h ⊢
    by_cases hsec : peer.channelPri = a.recvChannel
    · simp [hsec] at h
    · simp only [hsec, decide_false, Bool.false_eq_true, if_false] at h
      exact fun heq => hsec (h.trans heq.symm)

theorem PeerOk.discover (hid : wfsid ≠ myId) (hrecv : evdata.announce.recvChannel ≠ none) :
    Action.Leaves wfsFsmActionDiscover PeerOk myId link wfsid evdata ctrl peer := by
  refine ⟨_, rfl, ?_, ?_⟩
  · simp only [hid, if_false]
    exact discover_state (discoverChannels_known peer hrecv)
  · simp only [hid, if_false]
    exact discoverChannels_distinct

def KeptOrNull (c c' : Option Port) : Prop := c' = c ∨ c' = none

theorem PeerOk.distinct_kept (h : PeerOk peer) {pri sec : Option Port}
    (hp : KeptOrNull peer.channelPri pri) (hs : KeptOrNull peer.channelSec sec) (p : Port)
    (hpri : pri = some p) : sec ≠ some p := by
  rcases hp with rfl | rfl
  · rcases hs with rfl | rfl
    · exact h.distinct p hpri
    · simp
  · simp at hpri

theorem expire_state (h : PeerOk peer) {pri sec : Option Port}
    (hp : KeptOrNull peer.channelPri pri) (hs : KeptOrNull peer.channelSec sec) :
    (match peer.fsmState with
      | init => init
      | idle => if !pri.isSome then (if sec.isSome then protect else init) else idle
      | protect => if pri.isSome then idle else if !sec.isSome then init else protect) =
      routeState pri sec := by
  rw [h.state_eq]
  rcases hp with rfl | rfl <;> rcases hs with rfl | rfl <;>
    cases peer.channelPri <;> cases peer.channelSec <;> rfl

theorem rapsSF_state (h : PeerOk peer) {pri sec : Option Port}
    (hp : KeptOrNull peer.channelPri pri) (hs : KeptOrNull peer.channelSec sec) :
    (match peer.fsmState with
      | init => init
      | idle => if !pri.isSome then (if sec.isSome then protect else init) else idle
      | protect => if !sec.isSome then (if pri.isSome then idle else init) else protect) =
      routeState pri sec := by
  rw [h.state_eq]
  rcases hp with rfl | rfl <;> rcases hs with rfl | rfl <;>
    cases peer.channelPri <;> cases peer.channelSec <;> rfl

theorem keptOrNull_ite (b : Bool) (c : Option Port) : KeptOrNull c (if b then none else c) := by
  cases b
  · exact .inl rfl
  · exact .inr rfl

theorem PeerOk.expire (h : PeerOk peer) (hid : wfsid ≠ myId) :
    Action.Leaves wfsFsmActionExpire PeerOk myId link wfsid evdata ctrl peer := by
  have hp : KeptOrNull peer.channelPri (expireChannels peer).channelPri := keptOrNull_ite _ _
  have hs : KeptOrNull peer.channelSec (expireChannels peer).channelSec := keptOrNull_ite _ _
  unfold Action.Leaves wfsFsmActionExpire
  rw [if_neg hid]
  exact ⟨_, rfl, expire_state h hp hs, h.distinct_kept hp hs⟩

/-- The channels of a remote peer after `wfs_fsm_action_localSF`. -/
def localSFChannels (link : Port → Bool) (peer : WfsPeer) : WfsPeer :=
  (peer.dropPri (!channelUp link peer.channelPri)).dropSec (!channelUp link peer.channelSec)

theorem channelUp_eq_isSome (link : Port → Bool) (c : Option Port) :
    channelUp link c = (if !channelUp link c then none else c).isSome := by
  cases c with
  | none => rfl
  | some p => cases h : link p <;> simp [channelUp, h]

theorem PeerOk.localSF (h : PeerOk peer) (hid : wfsid ≠ myId) :
    Action.Leaves wfsFsmActionLocalSF PeerOk myId link wfsid evdata ctrl peer := by
  have hp : KeptOrNull peer.channelPri (localSFChannels link peer).channelPri := keptOrNull_ite _ _
  have hs : KeptOrNull peer.channelSec (localSFChannels link peer).channelSec := keptOrNull_ite _ _
  refine ⟨_, rfl, ?_, ?_⟩
  · simp only [hid, if_false, ne_eq, not_false_iff, if_true]
    have hup : channelUp link peer.channelPri = (localSFChannels link peer).channelPri.isSome :=
      channelUp_eq_isSome link _
    have hsup : channelUp link peer.channelSec = (localSFChannels link peer).channelSec.isSome :=
      channelUp_eq_isSome link _
    simp only [hup, hsup]
    have hstate : ((peer.dropPri (!(localSFChannels link peer).channelPri.isSome)).dropSec
        (!(localSFChannels link peer).channelSec.isSome)).fsmState = peer.fsmState := rfl
    rw [hstate]
    refine (rapsSF_state h hp hs).trans ?_
    rw [← hup, ← hsup]
    rfl
  · simp only [hid, if_false]
    exact h.distinct_kept hp hs

theorem PeerOk.rapsSF (h : PeerOk peer) (hid : wfsid ≠ myId) :
    Action.Leaves wfsFsmActionRapsSF PeerOk myId link wfsid evdata ctrl peer := by
  have hdrop : KeptOrNull peer.channelPri (dropChannel peer evdata.raps).channelPri ∧
      KeptOrNull peer.channelSec (dropChannel peer evdata.raps).channelSec ∧
      (dropChannel peer evdata.raps).fsmState = peer.fsmState := by
    unfold dropChannel
    split
    · exact ⟨.inr rfl, .inl rfl, rfl⟩
    · exact ⟨.inl rfl, .inr rfl, rfl⟩
  obtain ⟨hp, hs, hstate⟩ := hdrop
  unfold Action.Leaves wfsFsmActionRapsSF
  rw [if_neg hid]
  refine ⟨_, rfl, ?_, h.distinct_kept hp hs⟩
  simp only [hstate]
  exact rapsSF_state h hp hs

theorem PeerOk.rapsNR (h : PeerOk peer) :
    Action.Leaves wfsFsmActionRapsNR PeerOk myId link wfsid evdata ctrl peer := by
  refine ⟨_, rfl, ?_, h.distinct⟩
  simp only
  split
  · next hup =>
    have hpri : channelUp link peer.channelPri = true := (Bool.and_eq_true_iff.mp hup).1
    cases hc : peer.channelPri with
    | none => simp [hc, channelUp] at hpri
    | some p => rfl
  · exact h.state_eq

theorem LocalOk.action (h : LocalOk peer) (hvalid : validEntry peer.fsmState e true = true) :
    Action.Leaves e.action LocalOk myId link myId evdata ctrl peer := by
  rcases validEntry_local hvalid with rfl | rfl | rfl
  · exact ⟨_, rfl, by simpa using h.pri, by simpa using h.sec⟩
  · exact ⟨_, rfl, by simpa using h.pri, by simpa using h.sec⟩
  · exact ⟨_, if_neg (not_not.mpr rfl), h.pri, h.sec⟩

/-- **Every action on a remote peer** runs through and leaves it consistent. -/
theorem PeerOk.action (h : PeerOk peer) (hid : wfsid ≠ myId)
    (hrecv : e = .discover → evdata.announce.recvChannel ≠ none)
    (hvalid : validEntry peer.fsmState e false = true) :
    Action.Leaves e.action PeerOk myId link wfsid evdata ctrl peer := by
  cases e with
  | discover => exact PeerOk.discover hid (hrecv rfl)
  | expire => exact h.expire hid
  | localSF => exact h.localSF hid
  | clearLocalSF => exact absurd rfl (validEntry_remote hvalid)
  | rapsSF => exact h.rapsSF hid
  | rapsNR => exact h.rapsNR

end Actions

/-! ## The table of peers -/

structure RoutesOk (core : RapsCore) : Prop where
  remote : ∀ id, id ≠ core.wfsId → PeerOk (core.peer id)
  own : LocalOk (core.peer core.wfsId)

/-- A queued discover of another station names the port it was received on. -/
def EventOk (myId : WfsId) (eb : EventRec) : Prop :=
  eb.event = .discover → eb.wfsid ≠ myId → eb.data.announce.recvChannel ≠ none

variable {peer : WfsPeer} {eb : EventRec} {s : Iwa EvQueue} {op : RapsOp} {k : Kmalloc}
  {ops : List RapsOp} {wfsId : WfsId} {wfsPort : Port → Int}

theorem checkPeer_of_peerOk (h : PeerOk peer) : checkPeer peer = .ok () := by
  unfold checkPeer
  rw [h.state_eq]
  cases peer.channelPri <;> cases peer.channelSec <;> simp [routeState]

theorem checkPeer_of_localOk (h : LocalOk peer) : checkPeer peer = .ok () := by
  unfold checkPeer
  simp [h.pri, h.sec]

theorem RoutesOk.acted {core : RapsCore} (h : RoutesOk core) {id : WfsId} {r : ActionResult}
    (hremote : id ≠ core.wfsId → PeerOk r.peer) (hown : id = core.wfsId → LocalOk r.peer) :
    RoutesOk (core.acted id r) := by
  constructor
  · intro i hi
    by_cases hid : i = id
    · subst hid
      simpa [RapsCore.acted] using hremote hi
    · simpa [RapsCore.acted, Function.update_of_ne hid] using h.remote i hi
  · by_cases hid : core.wfsId = id
    · simpa [RapsCore.acted, ← hid] using hown hid.symm
    · simpa [RapsCore.acted, Function.update_of_ne hid] using h.own

/-- **One event.** It is handled without tripping a check, and the table stays consistent. -/
theorem RoutesOk.runEvent (link : Port → Bool) {core : RapsCore} (h : RoutesOk core)
    (hev : EventOk core.wfsId eb) :
    ∃ core' fib, runEvent link core eb = .ok (core', fib) ∧ RoutesOk core' := by
  cases hacc : core.accepts eb with
  | false => exact ⟨core, [], runEvent_skip hacc, h⟩
  | true =>
    have hvalid : validEntry (core.peer eb.wfsid).fsmState eb.event
        (eb.wfsid = core.wfsId) = true := hacc
    by_cases hid : eb.wfsid = core.wfsId
    · have hown : LocalOk (core.peer eb.wfsid) := hid ▸ h.own
      rw [decide_eq_true hid] at hvalid
      have hleaves : Action.Leaves eb.event.action LocalOk core.wfsId link core.wfsId eb.data
          core.ctrl (core.peer eb.wfsid) := hown.action hvalid
      obtain ⟨r, hr, hok⟩ := hleaves
      have hact : core.act link eb = .ok r := by rw [RapsCore.act, ← hr, hid]
      exact ⟨_, _, runEvent_act hacc hact (checkPeer_of_localOk hok),
        h.acted (fun hne => absurd hid hne) fun _ => hok⟩
    · rw [decide_eq_false hid] at hvalid
      have hleaves : Action.Leaves eb.event.action PeerOk core.wfsId link eb.wfsid eb.data
          core.ctrl (core.peer eb.wfsid) :=
        (h.remote eb.wfsid hid).action hid (fun hd => hev hd hid) hvalid
      obtain ⟨r, hr, hok⟩ := hleaves
      exact ⟨_, _, runEvent_act hacc hr (checkPeer_of_peerOk hok),
        h.acted (fun _ => hok) fun heq => absurd heq hid⟩

/-! ## Steps of a station -/

structure StationOk (s : Iwa EvQueue) : Prop where
  routes : RoutesOk s.core
  events : ∀ eb ∈ s.pool.pending, EventOk s.core.wfsId eb

theorem PeerOk.congr {a b : WfsPeer} (h : PeerOk b) (hab : a.SameRoute b) : PeerOk a :=
  ⟨by rw [hab.fsmState, hab.channelPri, hab.channelSec, h.state_eq],
    by rw [hab.channelPri, hab.channelSec]; exact h.distinct⟩

theorem LocalOk.congr {a b : WfsPeer} (h : LocalOk b) (hab : a.SameRoute b) : LocalOk a :=
  ⟨hab.channelPri.trans h.pri, hab.channelSec.trans h.sec⟩

theorem eventOk_of_ne_discover {myId : WfsId} (h : eb.event ≠ .discover) :
    EventOk myId eb := fun hd => absurd hd h

theorem eventOk_of_requests (hen : op.enabled s) (h : eb ∈ op.requests s) :
    EventOk s.core.wfsId eb := by
  have hother : ∀ {wfsid e evdata}, eb ∈ requested s wfsid e evdata → e ≠ .discover →
      EventOk s.core.wfsId eb := by
    intro wfsid e evdata hreq he
    refine eventOk_of_ne_discover ?_
    rw [(mem_requested.mp hreq).2.2.2]
    exact he
  cases op with
  | setEvent k wfsid e evdata =>
    obtain ⟨_, haddr, hadm, heq⟩ := mem_requested.mp h
    rw [heq]
    intro hd hid
    by_cases hown : wfsid = s.core.wfsId.byte
    · rcases haddr with hall | hbyte
      · exact absurd (hown.symm.trans hall) (WfsId.byte_ne_all _)
      · exact absurd (WfsId.byte_inj.mp (hbyte.symm.trans hown)) hid
    · exact hen hd hown
  | linkIsDown k p => exact hother h (by decide)
  | linkIsUp k p =>
    simp only [requests] at h
    split at h
    · exact hother h (by decide)
    · simp at h
  | announce k adapter src opt =>
    simp only [requests] at h
    split at h
    · rw [(mem_requested.mp h).2.2.2]
      exact fun _ _ => by simp [announceData]
    · simp at h
  | raps k adapter src opt =>
    simp only [requests] at h
    split at h
    · exact hother h (by decide)
    · split at h
      · split at h
        · simp at h
        · exact hother h (by decide)
      · simp at h
  | updateLink | fsmEvent | timers | peerTtl | misc | openPorts | rapsStart | rapsStop
  | closePorts => simp [requests] at h

theorem RoutesOk.foldlM_runBody (view : Nat → Port → Bool) {l : List EventRec} {r : RunState}
    (h : RoutesOk r.core) (hev : ∀ eb ∈ l, EventOk r.core.wfsId eb) :
    ∃ r', l.foldlM (runBody view) r = .ok r' ∧ RoutesOk r'.core ∧
      r'.core.wfsId = r.core.wfsId := by
  refine foldlM_invariant (I := fun r' : RunState => RoutesOk r'.core ∧
    r'.core.wfsId = r.core.wfsId) (P := EventOk r.core.wfsId) ?_ hev ⟨h, rfl⟩
  rintro eb s hebok ⟨hs, hid⟩
  obtain ⟨core, fib, hrun, hok⟩ := hs.runEvent (view s.done) (hid ▸ hebok)
  exact ⟨_, runBody_of_runEvent hrun, hok, (runEvent_wfsId hrun).trans hid⟩

theorem StationOk.quiet {t : Iwa EvQueue} {noBuffer : Bool} (h : StationOk s) (hen : op.enabled s)
    (hq : QuietStep s t (op.requests s) noBuffer) : StationOk t := by
  obtain ⟨evs, happ, hpre, _, _⟩ := hq.queued
  refine ⟨⟨?_, ?_⟩, ?_⟩
  · intro id hid
    rw [hq.quiet.wfsId] at hid
    exact (h.routes.remote id hid).congr (hq.quiet.peer id)
  · rw [hq.quiet.wfsId]
    exact h.routes.own.congr (hq.quiet.peer _)
  · intro eb heb
    rw [hq.quiet.wfsId]
    rw [happ.pending, List.mem_append] at heb
    rcases heb with hold | hnew
    · exact h.events eb hold
    · exact eventOk_of_requests hen (hpre.subset hnew)

theorem StationOk.fsmEvent (h : StationOk s) (view : Nat → Port → Bool) :
    ∃ t fib, rapsFsmEvent view s = .ok (t, fib) ∧ StationOk t := by
  unfold rapsFsmEvent
  split
  · obtain ⟨r, hrun, hok, hid⟩ := RoutesOk.foldlM_runBody view
      (r := { core := s.core }) h.routes h.events
    refine ⟨_, _, by rw [wfsFsmRun_eq, hrun]; rfl, ⟨hok.remote, hok.own⟩, ?_⟩
    intro eb heb
    simp at heb
  · exact ⟨s, [], rfl, h⟩

theorem PeerOk.tick (h : PeerOk peer) : PeerOk (tickPeer peer) :=
  ⟨h.state_eq, h.distinct⟩

theorem StationOk.aged {ids : List WfsId} {t : Iwa EvQueue} (h : StationOk s)
    (ha : Aged k ids s t) : StationOk t := by
  refine ⟨⟨?_, ?_⟩, ?_⟩
  · intro id hid
    rw [ha.wfsId] at hid
    rw [ha.peer id]
    split
    · exact (h.routes.remote id hid).tick
    · exact h.routes.remote id hid
  · have hages : s.core.ages s.core.wfsId = false := by simp [RapsCore.ages]
    rw [ha.wfsId, ha.peer, if_neg (by simp [hages])]
    exact h.routes.own
  · intro eb heb
    rw [ha.wfsId]
    rw [ha.pool] at heb
    split at heb
    · obtain ⟨evs, happ, hevs⟩ := requestExpire_appended k (s.core.expiring ids) s.pool
      rw [happ.pending, List.mem_append] at heb
      rcases heb with hold | hnew
      · exact h.events eb hold
      · refine eventOk_of_ne_discover ?_
        rw [(hevs eb hnew).2]
        exact fun h => by cases h
    · exact h.events eb heb

theorem StationOk.peerTtl (h : StationOk s) (k : Kmalloc) : StationOk (rapsPeerTtl k s).1 := by
  unfold rapsPeerTtl
  split
  · obtain ⟨t, ha, heq⟩ := wfsUpdatePeers_spec k s
    rw [heq]
    have ht := h.aged ha
    split
    · exact ⟨⟨ht.routes.remote, ht.routes.own⟩, ht.events⟩
    · exact ht
  · exact h

theorem stationOk_rapsStart (k : Kmalloc) (ip : UInt32) (s : Iwa EvQueue) :
    StationOk (ixgbeWfsRapsStart k ip s).1 := by
  obtain ⟨evs, pool, heq, happ, hevs⟩ := ixgbeWfsRapsStart_spec k ip s
  rw [heq]
  refine ⟨⟨?_, ?_⟩, ?_⟩
  · intro id hid
    have hid' : id ≠ s.core.wfsId := hid
    have hpeer : (RapsCore.started s ip).peer id = {} := by
      simp [RapsCore.started, Function.update_of_ne hid']
    exact hpeer ▸ ⟨rfl, by simp⟩
  · have hpeer : (RapsCore.started s ip).peer s.core.wfsId = localPeer s ip := by
      simp [RapsCore.started]
    exact hpeer ▸ ⟨rfl, rfl⟩
  · intro eb heb
    have hmem : eb ∈ evs := by simpa [Iwa.queued, Iwa.setFlag, Iwa.setCtrl, happ.pending] using heb
    intro _ hid
    rw [hevs eb hmem] at hid
    exact absurd rfl hid

/-- **One step.** An operation of a consistent station trips no check and leaves the
    station consistent. -/
theorem StationOk.step (h : StationOk s) (hen : op.enabled s) :
    ∃ t eff, op.step s = .ok (t, eff) ∧ StationOk t := by
  cases op with
  | fsmEvent view =>
    obtain ⟨t, fib, hrun, ht⟩ := h.fsmEvent view
    exact ⟨t, { fib }, by simp only [RapsOp.step, hrun]; rfl, ht⟩
  | peerTtl k => exact ⟨_, _, rfl, h.peerTtl k⟩
  | rapsStart k ip => exact ⟨_, _, rfl, stationOk_rapsStart k ip s⟩
  | setEvent | updateLink | linkIsDown | linkIsUp | announce | raps | timers | misc
  | openPorts | rapsStop | closePorts =>
    exact ⟨_, _, rfl, h.quiet hen (step_quiet rfl rfl)⟩

/-- A station that has not been started since the probe: every entry is zeroed. -/
structure Fresh (s : Iwa EvQueue) : Prop where
  idle : s.rapsTimer = false
  peer : ∀ id, (s.core.peer id).SameRoute {}

/-- The phases of a station: the timer only runs after a start, in the opened state. -/
structure Phased (s : Iwa EvQueue) : Prop where
  opened : s.rapsTimer = true → s.state = .opened
  started : Fresh s ∨ StationOk s

theorem StationOk.of_step {t : Iwa EvQueue} (h : StationOk s) (hstep : RapsStep s op t) :
    StationOk t := by
  obtain ⟨hen, eff, hok⟩ := hstep
  obtain ⟨t', eff', hok', ht'⟩ := h.step hen
  rw [hok] at hok'
  simp only [Except.ok.injEq, Prod.mk.injEq] at hok'
  exact hok'.1 ▸ ht'

theorem StationOk.run {t : Iwa EvQueue} (hrun : Run RapsStep s ops t) (h : StationOk s) :
    StationOk t := by
  exact hrun.invariant (fun _ _ _ hs hstep => hs.of_step hstep) h

theorem Fresh.quiet {t : Iwa EvQueue} {eff : Effects} (h : Fresh s) (hq : op.quiet = true)
    (hok : op.step s = .ok (t, eff)) : Fresh t := by
  have htimer := congrArg Control.rapsTimer (step_control hok)
  refine ⟨?_, fun id => ((step_quiet hq hok).quiet.peer id).trans (h.peer id)⟩
  have hidle := h.idle
  cases op <;> simp_all [Iwa.control, RapsOp.control, RapsOp.quiet]

/-- **Phases.** No operation leaves them. -/
theorem Phased.of_step {t : Iwa EvQueue} (h : Phased s) (hstep : RapsStep s op t) : Phased t := by
  obtain ⟨hen, eff, hok⟩ := id hstep
  constructor
  · intro htimer
    have hctl := step_control hok
    have hstate := congrArg Control.state hctl
    have hrt := congrArg Control.rapsTimer hctl
    cases op <;> simp_all [Iwa.control, RapsOp.control, enabled, h.opened]
  · rcases h.started with hfresh | hstarted
    · cases hq : op.quiet with
      | true => exact .inl (hfresh.quiet hq hok)
      | false =>
        cases op with
        | fsmEvent view => exact absurd (hfresh.idle.symm.trans hen) (by decide)
        | peerTtl k => exact absurd (hfresh.idle.symm.trans hen) (by decide)
        | rapsStart k ip =>
          simp only [step, Except.ok.injEq, Prod.mk.injEq] at hok
          exact .inr (hok.1 ▸ stationOk_rapsStart k ip s)
        | setEvent | updateLink | linkIsDown | linkIsUp | announce | raps | timers | misc
        | openPorts | rapsStop | closePorts => simp [quiet] at hq
    · exact .inr (hstarted.of_step hstep)

theorem phased_probed (wfsId : WfsId) (macAddr : Mac) (wfsPort : Port → Int) (q : EvQueue) :
    Phased (.probed wfsId macAddr wfsPort q) :=
  ⟨by simp [Iwa.probed], .inl ⟨rfl, fun _ => .refl _⟩⟩

/-! ## Runs over the event buffers -/

theorem iwaRep_probed {macAddr : Mac} {p : EvBufPool} {q : EvQueue} (h : PoolRep p q) :
    IwaRep (.probed wfsId macAddr wfsPort p) (.probed wfsId macAddr wfsPort q) := ⟨q, h, rfl⟩

theorem iwaRep_of_run {kmalloc : Nat → Bool} {macAddr : Mac} {s : Iwa EvBufPool}
    (hrun : Run RapsStep (.probed wfsId macAddr wfsPort (EvBufPool.ixgbeWfsFsmInit kmalloc).1)
      ops s) :
    ∃ q t, Run RapsStep (.probed wfsId macAddr wfsPort q) ops t ∧ IwaRep s t := by
  obtain ⟨q, hq, _⟩ := PoolRep.ixgbeWfsFsmInit kmalloc
  obtain ⟨t, ht, hrep⟩ := raps_refines hrun (iwaRep_probed hq)
  exact ⟨q, t, ht, hrep⟩

theorem PeerOk.idle_iff (h : PeerOk peer) : peer.fsmState = idle ↔ peer.channelPri ≠ none := by
  rw [h.state_eq]
  cases peer.channelPri <;> cases peer.channelSec <;> simp [routeState]

theorem PeerOk.protect_iff (h : PeerOk peer) :
    peer.fsmState = protect ↔ peer.channelPri = none ∧ peer.channelSec ≠ none := by
  rw [h.state_eq]
  cases peer.channelPri <;> cases peer.channelSec <;> simp [routeState]

theorem PeerOk.init_iff (h : PeerOk peer) :
    peer.fsmState = init ↔ peer.channelPri = none ∧ peer.channelSec = none := by
  rw [h.state_eq]
  cases peer.channelPri <;> cases peer.channelSec <;> simp [routeState]

theorem stationOk_of_run {kmalloc : Nat → Bool} {macAddr : Mac} {before after : List RapsOp}
    {s₀ s₁ s : Iwa EvBufPool} {ip : UInt32}
    (h₀ : Run RapsStep (.probed wfsId macAddr wfsPort (EvBufPool.ixgbeWfsFsmInit kmalloc).1)
      before s₀)
    (h₁ : RapsStep s₀ (.rapsStart k ip) s₁) (h₂ : Run RapsStep s₁ after s) :
    ∃ t, IwaRep s t ∧ StationOk t := by
  obtain ⟨q, t₀, _, hrep₀⟩ := iwaRep_of_run h₀
  obtain ⟨t₁, ⟨_, eff, hstep⟩, hrep₁⟩ := rapsStep_refines hrep₀ h₁
  obtain ⟨t, hrun, hrep⟩ := raps_refines h₂ hrep₁
  simp only [step, Except.ok.injEq, Prod.mk.injEq] at hstep
  exact ⟨t, hrep, StationOk.run hrun (hstep.1 ▸ stationOk_rapsStart k ip t₀)⟩

/-- **Peer states.** From `ixgbe_wfs_raps_start` on, whatever ran before it, every reachable
    state has every remote peer in the state that belongs to its channels, on two different
    ports, and both channels in the own entry; and every operation on it runs through, so
    no check fires. -/
theorem peer_states_of_run {kmalloc : Nat → Bool} {wfsId : WfsId} {macAddr : Mac}
    {wfsPort : Port → Int} {before after : List RapsOp} {s₀ s₁ s : Iwa EvBufPool}
    {k : Kmalloc} {ip : UInt32}
    (h₀ : Run RapsStep (.probed wfsId macAddr wfsPort (EvBufPool.ixgbeWfsFsmInit kmalloc).1)
      before s₀)
    (h₁ : RapsStep s₀ (.rapsStart k ip) s₁) (h₂ : Run RapsStep s₁ after s) :
    (∀ id, id ≠ s.core.wfsId →
      ((s.core.peer id).fsmState = idle ↔ (s.core.peer id).channelPri ≠ none) ∧
      ((s.core.peer id).fsmState = protect ↔
        (s.core.peer id).channelPri = none ∧ (s.core.peer id).channelSec ≠ none) ∧
      ((s.core.peer id).fsmState = init ↔
        (s.core.peer id).channelPri = none ∧ (s.core.peer id).channelSec = none) ∧
      ∀ p, (s.core.peer id).channelPri = some p → (s.core.peer id).channelSec ≠ some p) ∧
    (s.core.peer s.core.wfsId).channelPri = some .primary ∧
    (s.core.peer s.core.wfsId).channelSec = some .secondary ∧
    ∀ op : RapsOp, op.enabled s → ∃ t eff, op.step s = .ok (t, eff) := by
  obtain ⟨t, hrep, hok⟩ := stationOk_of_run h₀ h₁ h₂
  rw [← hrep.core_eq]
  refine ⟨?_, hok.routes.own.pri, hok.routes.own.sec, ?_⟩
  · intro id hid
    have hpeer := hok.routes.remote id hid
    exact ⟨hpeer.idle_iff, hpeer.protect_iff, hpeer.init_iff, hpeer.distinct⟩
  · intro op hen
    obtain ⟨t', eff, hstep, _⟩ := hok.step ((op.enabled_rep hrep).mp hen)
    have hout := op.step_rep hrep
    rw [hstep] at hout
    cases hs : op.step s with
    | error f => rw [hs] at hout; exact hout.elim
    | ok r => exact ⟨r.1, r.2, rfl⟩

def stationOne : Iwa EvBufPool :=
  .probed 0 (Vector.replicate 6 1) (fun _ => 0) (EvBufPool.ixgbeWfsFsmInit fun _ => true).1

def announceOf (pri : Bool) : WfsoptAnnounce :=
  { mac := Vector.replicate 6 2, ip := 7, portPri := pri, portSec := !pri, port := 3 }

def discoverRun : List RapsOp :=
  [.openPorts, .rapsStart (fun _ => true) 0,
    .announce (fun _ => true) .secondary 1 (announceOf true),
    .fsmEvent fun _ _ => true]

theorem peer_states_of_discoverRun :
    ∃ s, Run RapsStep stationOne discoverRun s ∧ (s.core.peer 1).channelPri ≠ none ∧
      (s.core.peer 1).fsmState = idle := by
  have hdone : ((Run.exec RapsOp.next? stationOne discoverRun).map fun s =>
      decide ((s.core.peer 1).channelPri ≠ none ∧ s.core.wfsId = 0)) = some true := by
    decide +kernel
  obtain ⟨s, hs, hprop⟩ := Option.map_eq_some_iff.mp hdone
  obtain ⟨hpri, hid⟩ := of_decide_eq_true hprop
  have hrun : Run RapsStep stationOne discoverRun s := rapsRun_iff_exec.mp hs
  refine ⟨s, hrun, hpri, ?_⟩
  cases hrun with
  | cons hopen hrest =>
    cases hrest with
    | cons hstart hrest =>
      have hpeers := (peer_states_of_run (.single hopen) hstart hrest).1
      exact (hpeers 1 (by rw [hid]; decide)).1.mpr hpri

theorem IwaRep.Outcome.effects {β : Type} {r : Except Fault (Iwa EvBufPool × β)}
    {r' : Except Fault (Iwa EvQueue × β)} (h : IwaRep.Outcome r r') :
    r'.map Prod.snd = r.map Prod.snd := by
  cases r with
  | error f =>
    cases r' with
    | error f' => exact congrArg Except.error (Eq.symm h)
    | ok _ => exact h.elim
  | ok x =>
    cases r' with
    | error _ => exact h.elim
    | ok _ => exact congrArg Except.ok h.2.symm

/-- **The linked event buffers are a queue.**  Whatever memory there is when the port is probed, a
    station with a queue makes every run that one with linked buffers makes, with the same peers,
    flags and pending events; the same operations are possible next, and each has the same effects,
    or the same fault. -/
theorem event_buffers_are_a_queue (kmalloc : Nat → Bool) (macAddr : Mac) : ∃ q : EvQueue,
    q.pending = [] ∧ ∀ ops s,
      Run RapsStep (.probed wfsId macAddr wfsPort (EvBufPool.ixgbeWfsFsmInit kmalloc).1) ops s →
      ∃ t, Run RapsStep (.probed wfsId macAddr wfsPort q) ops t ∧
        t.core = s.core ∧ t.state = s.state ∧ t.link = s.link ∧ t.rapsTimer = s.rapsTimer ∧
        t.pool.pending = pendingEvents s.pool ∧ ∀ op : RapsOp,
          (op.enabled t ↔ op.enabled s) ∧ (op.step t).map Prod.snd = (op.step s).map Prod.snd := by
  obtain ⟨q, hq, hpending, -⟩ := PoolRep.ixgbeWfsFsmInit kmalloc
  refine ⟨q, hpending, fun ops s hrun => ?_⟩
  obtain ⟨t, ht, hrep⟩ := raps_refines hrun (iwaRep_probed hq)
  exact ⟨t, ht, hrep.core_eq, hrep.state_eq, hrep.link_eq, hrep.rapsTimer_eq,
    hrep.pendingEvents_eq.symm, fun op => ⟨(op.enabled_rep hrep).symm, (op.step_rep hrep).effects⟩⟩

end VmkDrivers.Wfs
