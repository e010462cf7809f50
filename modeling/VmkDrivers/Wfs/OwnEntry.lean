/-
  VmkDrivers.Wfs.OwnEntry

  The own entry of a station: its state and `RAPS_CTRL_SF`.

  Three events act on them (`ownNext`), and only `wfs_fsm_run` executes
  events.  `Iwa.settled` is what they will be when the pending events have
  been executed; received frames, the parts of a tick and runs of the queue
  leave that as it is (`Between`).
-/

import VmkDrivers.Wfs.PeerState
import VmkDrivers.Wfs.RapsClock

namespace VmkDrivers.Wfs

open VmkDrivers.Lib WfsFsmState

/-- What the watchdog's events act on: the state of the own entry and `RAPS_CTRL_SF`. -/
structure OwnState where
  state : WfsFsmState
  sf : Bool
deriving DecidableEq

def RapsCore.own (core : RapsCore) : OwnState := ⟨(core.peer core.wfsId).fsmState, core.ctrl.flag.sf⟩

section Steps

variable {π : Type} [EventStore π]

/-- The operations between two changes of a port: received announces and RAPS frames, the
    parts of a tick, and runs of the queue, whose actions read the links as they are. -/
def RapsOp.between (s : Iwa π) : RapsOp → Prop
  | .announce .. | .raps .. | .timers | .peerTtl _ | .misc _ => True
  | .fsmEvent view => view = fun _ => s.link
  | _ => False

def BetweenStep (s : Iwa π) (op : RapsOp) (t : Iwa π) : Prop := op.between s ∧ RapsStep s op t

end Steps

/-! ## One event -/

def ownNext (link : Port → Bool) (o : OwnState) : WfsFsmEvent → OwnState
  | .discover => if o.state = init then { o with state := idle } else o
  | .localSF =>
    match o.state with
    | init => o
    | idle => ⟨if !link .primary && link .secondary then protect else idle, true⟩
    | protect => ⟨if !link .secondary && link .primary then idle else protect, true⟩
  | .clearLocalSF =>
    match o.state with
    | init => o
    | s => ⟨if link .primary && link .secondary then idle else s, false⟩
  | _ => o

/-- What the events do that belong to the own station `id`. -/
def ownAfter (id : WfsId) (link : Port → Bool) (l : List EventRec) (o : OwnState) : OwnState :=
  l.foldl (fun o eb => if eb.wfsid = id then ownNext link o eb.event else o) o

open RapsCore

section Events

variable {link : Port → Bool} {id : WfsId} {core core' : RapsCore} {eb : EventRec}
  {fib : List FibCall} {e : WfsFsmEvent} {evdata : WfsFsmEventData} {r : ActionResult}
  {l : List EventRec}

theorem action_sf {myId wfsid : WfsId} {ctrl : RapsCtrl} {peer : WfsPeer} (hid : wfsid ≠ myId)
    (h : e.action myId link wfsid evdata ctrl peer = .ok r) : r.ctrl.flag.sf = ctrl.flag.sf := by
  have hclock := action_clock hid h
  exact congrArg (fun c => c.flag.sf) hclock

theorem action_own {myId : WfsId} {ctrl : RapsCtrl} {peer : WfsPeer} (hok : LocalOk peer)
    (hvalid : validEntry peer.fsmState e true = true)
    (h : e.action myId link myId evdata ctrl peer = .ok r) :
    (⟨r.peer.fsmState, r.ctrl.flag.sf⟩ : OwnState) =
      ownNext link ⟨peer.fsmState, ctrl.flag.sf⟩ e := by
  rcases validEntry_local hvalid with rfl | rfl | rfl
  · simp only [WfsFsmEvent.action, wfsFsmActionDiscover, if_true, hok.pri, Except.ok.injEq] at h
    rw [← h]
    cases hs : peer.fsmState <;> simp [validEntry, fsm, hs] at hvalid ⊢
    rfl
  · simp only [WfsFsmEvent.action, wfsFsmActionLocalSF, if_true, hok.pri, hok.sec, channelUp,
      ne_eq, not_true, if_false, Except.ok.injEq] at h
    rw [← h]
    cases hs : peer.fsmState <;> cases hp : link .primary <;> cases hsec : link .secondary <;>
      simp [validEntry, fsm, hs, hp, hsec, ownNext] at hvalid ⊢
  · simp only [WfsFsmEvent.action, wfsFsmActionClearLocalSF, ne_eq, not_true, if_false, hok.pri,
      hok.sec, channelUp, Except.ok.injEq] at h
    rw [← h]
    cases hs : peer.fsmState <;> cases hp : link .primary <;> cases hsec : link .secondary <;>
      simp [validEntry, fsm, hs, hp, hsec, ownNext] at hvalid ⊢

theorem ownNext_of_invalid {o : OwnState} (h : validEntry o.state e true = false) :
    ownNext link o e = o := by
  obtain ⟨state, sf⟩ := o
  cases state <;> cases e <;> simp [validEntry, fsm, ownNext] at h ⊢

theorem runEvent_own (hok : LocalOk (core.peer core.wfsId))
    (h : runEvent link core eb = .ok (core', fib)) :
    core'.own = if eb.wfsid = core.wfsId then ownNext link core.own eb.event else core.own := by
  rcases runEvent_ok h with ⟨hacc, rfl, -⟩ | ⟨hacc, r, hact, rfl, -⟩
  · split
    · next hid =>
      rw [accepts, hid, decide_eq_true rfl] at hacc
      exact (ownNext_of_invalid (o := core'.own) hacc).symm
    · rfl
  · rw [accepts] at hacc
    rw [act] at hact
    split
    · next hid =>
      rw [hid, decide_eq_true rfl] at hacc
      rw [hid] at hact
      have hown : _ = ownNext link core.own eb.event := action_own hok hacc hact
      rw [← hown]
      simp only [own, acted, hid, Function.update_self]
    · next hid => simp only [own, acted, Function.update_of_ne (Ne.symm hid), action_sf hid hact]

theorem foldlM_own {r r' : RunState} (hroutes : RoutesOk r.core)
    (hev : ∀ eb ∈ l, EventOk r.core.wfsId eb) (h : l.foldlM (runBody fun _ => link) r = .ok r') :
    r'.core.own = ownAfter r.core.wfsId link l r.core.own := by
  induction l generalizing r with
  | nil =>
    simp only [List.foldlM_nil, pure, Except.pure, Except.ok.injEq] at h
    rw [← h]
    rfl
  | cons eb l ih =>
    obtain ⟨core', fib', hrun, hroutes'⟩ := hroutes.runEvent link (hev eb (by simp))
    have hid := runEvent_wfsId hrun
    rw [List.foldlM_cons, runBody_of_runEvent hrun] at h
    have hrest := ih (r := { core := core', fib := r.fib ++ fib', done := r.done + 1 }) hroutes'
      (by rw [hid]; exact fun eb' h' => hev eb' (by simp [h'])) h
    rw [hrest, hid, runEvent_own hroutes.own hrun]
    rfl

theorem ownAfter_other (h : ∀ eb ∈ l, eb.wfsid ≠ id) (o : OwnState) : ownAfter id link l o = o := by
  unfold ownAfter
  induction l generalizing o with
  | nil => rfl
  | cons eb l ih =>
    rw [List.foldl_cons, if_neg (h eb (by simp))]
    exact ih (fun eb' h' => h eb' (by simp [h'])) o

theorem ownAfter_append (l l' : List EventRec) (o : OwnState) :
    ownAfter id link (l ++ l') o = ownAfter id link l' (ownAfter id link l o) :=
  List.foldl_append

theorem ownNext_idem (o : OwnState) (he : e = .localSF ∨ e = .clearLocalSF) :
    ownNext link (ownNext link o e) e = ownNext link o e := by
  obtain ⟨state, sf⟩ := o
  rcases he with rfl | rfl <;> cases state <;> cases hp : link .primary <;>
    cases hs : link .secondary <;> simp [ownNext, hp, hs]

theorem ownAfter_same (he : e = .localSF ∨ e = .clearLocalSF) (hl : ∀ eb ∈ l, eb.event = e)
    (hex : ∃ eb ∈ l, eb.wfsid = id) (o : OwnState) : ownAfter id link l o = ownNext link o e := by
  induction l generalizing o with
  | nil =>
    obtain ⟨eb, hmem, -⟩ := hex
    exact absurd hmem List.not_mem_nil
  | cons eb l ih =>
    have heb := hl eb (by simp)
    have hrest := fun eb' h' => hl eb' (List.mem_cons_of_mem eb h')
    unfold ownAfter at ih ⊢
    rw [List.foldl_cons]
    by_cases hid : eb.wfsid = id
    · rw [if_pos hid, heb]
      by_cases hmore : ∃ eb' ∈ l, eb'.wfsid = id
      · rw [ih hrest hmore, ownNext_idem o he]
      · exact ownAfter_other (fun eb' h' hown => hmore ⟨eb', h', hown⟩) _
    · rw [if_neg hid]
      refine ih hrest ?_ o
      obtain ⟨eb', hmem, hown⟩ := hex
      rcases List.mem_cons.mp hmem with rfl | hmem
      · exact absurd hown hid
      · exact ⟨eb', hmem, hown⟩

end Events

/-! ## Operations between two changes -/

section Flag

variable {π : Type} [EventStore π]

/-- **`RAPS_CTRL_SF`** changes when the queue is run, and with a restart. -/
theorem RapsOp.step_sf {s t : Iwa π} {op : RapsOp} {eff : Effects} (hw : op.waits = true)
    (h : op.step s = .ok (t, eff)) : t.core.ctrl.flag.sf = s.core.ctrl.flag.sf := by
  by_cases htimers : op = .timers
  · subst htimers
    simp only [RapsOp.step, Except.ok.injEq, Prod.mk.injEq] at h
    have hflag := congrArg RapsFlag.sf (rapsTimers_flag s.core.ctrl)
    rw [← h.1]
    exact hflag
  · exact congrArg (fun c => c.flag.sf) (RapsOp.step_clock hw htimers h)

end Flag

def Iwa.settled (s : Iwa EvQueue) : OwnState :=
  ownAfter s.core.wfsId s.link s.pool.pending s.core.own

def Iwa.OwnPending (s : Iwa EvQueue) : Prop := ∃ eb ∈ s.pool.pending, eb.wfsid = s.core.wfsId

variable {s : Iwa EvQueue} {op : RapsOp}

theorem settled_of_waits {t : Iwa EvQueue} {eff : Effects} (hw : op.waits = true)
    (hok : op.step s = .ok (t, eff)) (hlink : t.link = s.link) {evs : List EventRec}
    (hpending : t.pool.pending = s.pool.pending ++ evs)
    (hevs : ∀ eb ∈ evs, eb.wfsid ≠ s.core.wfsId) :
    t.settled = s.settled ∧ ∀ eb ∈ t.pool.pending, eb.wfsid = t.core.wfsId →
      eb ∈ s.pool.pending ∧ t.core.own = s.core.own := by
  have hwait := RapsOp.step_waited hw hok
  have hown : t.core.own = s.core.own := by
    rw [own, own, hwait.wfsId, hwait.fsmState, RapsOp.step_sf hw hok]
  constructor
  · rw [Iwa.settled, hwait.wfsId, hlink, hpending, hown, ownAfter_append, ownAfter_other hevs]
    rfl
  · intro eb hmem heb
    rw [hpending, List.mem_append] at hmem
    rw [hwait.wfsId] at heb
    exact ⟨hmem.elim id fun h => absurd heb (hevs eb h), hown⟩

theorem requests_other (hb : op.between s) (hen : op.enabled s) {eb : EventRec}
    (h : eb ∈ op.requests s) : eb.wfsid ≠ s.core.wfsId := by
  have hsrc {src : WfsId} {e : WfsFsmEvent} {evdata : WfsFsmEventData} (hne : src ≠ s.core.wfsId)
      (hreq : eb ∈ requested s src.byte e evdata) : eb.wfsid ≠ s.core.wfsId := by
    rcases (mem_requested.mp hreq).2.1 with hall | hbyte
    · exact absurd hall (WfsId.byte_ne_all _)
    · exact WfsId.byte_inj.mp hbyte ▸ hne
  cases op with
  | announce k adapter src opt =>
    simp only [RapsOp.requests] at h
    split at h
    · exact hsrc hen h
    · exact absurd h List.not_mem_nil
  | raps k adapter src opt =>
    simp only [RapsOp.requests] at h
    split at h
    · exact hsrc hen h
    · split at h
      · split at h
        · exact absurd h List.not_mem_nil
        · exact hsrc hen h
      · exact absurd h List.not_mem_nil
  | setEvent | updateLink | linkIsDown | linkIsUp | openPorts | rapsStart | rapsStop
  | closePorts => exact hb.elim
  | timers | misc | peerTtl | fsmEvent => exact absurd h List.not_mem_nil

theorem rapsPeerTtl_pending (k : Kmalloc) (s : Iwa EvQueue) :
    ∃ evs, (rapsPeerTtl k s).1.pool.pending = s.pool.pending ++ evs ∧
      ∀ eb ∈ evs, eb.wfsid ≠ s.core.wfsId := by
  unfold rapsPeerTtl
  split
  · obtain ⟨t, haged, heq⟩ := wfsUpdatePeers_spec k s
    have hpool : (wfsUpdatePeers k s).1.pool = t.pool := by
      rw [heq]
      split <;> rfl
    rw [hpool, haged.pool]
    split
    · obtain ⟨evs, happ, hevs⟩ := requestExpire_appended k (s.core.expiring wfsIds) s.pool
      refine ⟨evs, happ.pending, fun eb hmem hown => ?_⟩
      have hage := (List.mem_filter.mp (hevs eb hmem).1).2
      rw [hown] at hage
      simp [ages] at hage
    · exact ⟨[], (List.append_nil _).symm, fun _ h => absurd h List.not_mem_nil⟩
  · exact ⟨[], (List.append_nil _).symm, fun _ h => absurd h List.not_mem_nil⟩

structure Between (s t : Iwa EvQueue) : Prop where
  station : StationOk t
  state : t.state = s.state
  link : t.link = s.link
  wfsId : t.core.wfsId = s.core.wfsId
  settled : t.settled = s.settled
  /-- Events of the own station that are still pending were so before, and nothing has
      happened to its state. -/
  pending : ∀ eb ∈ t.pool.pending, eb.wfsid = t.core.wfsId →
    eb ∈ s.pool.pending ∧ t.core.own = s.core.own

/-- **`wfs_fsm_run`** leaves nothing pending, and the own state settled. -/
theorem wfsFsmRun_own {t : Iwa EvQueue} {fib : List FibCall} (h : StationOk s)
    (hrun : wfsFsmRun (fun _ => s.link) s = .ok (t, fib)) :
    StationOk t ∧ t.state = s.state ∧ t.link = s.link ∧ t.core.wfsId = s.core.wfsId ∧
      t.core.own = s.settled ∧ t.pool.pending = [] := by
  obtain ⟨r, hloop, hroutes, hid⟩ := RoutesOk.foldlM_runBody (fun _ => s.link)
    (r := { core := s.core }) h.routes h.events
  have hown := foldlM_own h.routes h.events hloop
  rw [wfsFsmRun_eq, hloop] at hrun
  obtain ⟨rfl, -⟩ := Prod.mk.inj (Except.ok.inj hrun)
  exact ⟨⟨⟨hroutes.remote, hroutes.own⟩, fun _ h => absurd h List.not_mem_nil⟩, rfl, rfl, hid,
    hown, rfl⟩

theorem BetweenStep.between {t : Iwa EvQueue} (h : StationOk s) (hstep : BetweenStep s op t) :
    Between s t := by
  obtain ⟨hb, hraps⟩ := hstep
  obtain ⟨hen, eff, hok⟩ := id hraps
  have hctl := RapsOp.step_control hok
  have hstation := h.of_step hraps
  have hwaits (hw : op.waits = true) (hc : op.control s.control = s.control)
      {evs : List EventRec} (hpending : t.pool.pending = s.pool.pending ++ evs)
      (hevs : ∀ eb ∈ evs, eb.wfsid ≠ s.core.wfsId) : Between s t := by
    rw [hc] at hctl
    have hwait := RapsOp.step_waited hw hok
    obtain ⟨hsettled, hown⟩ :=
      settled_of_waits hw hok (congrArg Control.link hctl) hpending hevs
    exact ⟨hstation, congrArg Control.state hctl, congrArg Control.link hctl, hwait.wfsId,
      hsettled, hown⟩
  have hquiet (hq : op.quiet = true) (hw : op.waits = true)
      (hc : op.control s.control = s.control) : Between s t := by
    obtain ⟨evs, happ, hpre, -⟩ := (RapsOp.step_quiet hq hok).queued
    exact hwaits hw hc happ.pending fun eb hmem => requests_other hb hen (hpre.subset hmem)
  cases op with
  | fsmEvent view =>
    obtain rfl : view = fun _ => s.link := hb
    simp only [RapsOp.step] at hok
    cases hrun : rapsFsmEvent (fun _ => s.link) s with
    | error f => simp [hrun, bind, Except.bind] at hok
    | ok r =>
      simp only [hrun, bind, Except.bind, pure, Except.pure, Except.ok.injEq, Prod.mk.injEq] at hok
      obtain ⟨rfl, -⟩ := hok
      rw [rapsFsmEvent] at hrun
      split at hrun
      · obtain ⟨hok', hstate, hlink, hid, hown, hempty⟩ := wfsFsmRun_own h hrun
        refine ⟨hok', hstate, hlink, hid, ?_, ?_⟩
        · rw [Iwa.settled, hempty]
          exact hown
        · intro eb hmem
          rw [hempty] at hmem
          exact absurd hmem List.not_mem_nil
      · cases hrun
        exact ⟨h, rfl, rfl, rfl, rfl, fun _ hmem _ => ⟨hmem, rfl⟩⟩
  | peerTtl k =>
    simp only [RapsOp.step, Except.ok.injEq, Prod.mk.injEq] at hok
    obtain ⟨evs, hpending, hevs⟩ := rapsPeerTtl_pending k s
    exact hwaits rfl rfl (hok.1 ▸ hpending) hevs
  | announce | raps | timers | misc => exact hquiet rfl rfl rfl
  | setEvent | updateLink | linkIsDown | linkIsUp | openPorts | rapsStart | rapsStop
  | closePorts => exact hb.elim

theorem Between.refl (h : StationOk s) : Between s s :=
  ⟨h, rfl, rfl, rfl, rfl, fun _ hmem _ => ⟨hmem, rfl⟩⟩

theorem Between.trans {t u : Iwa EvQueue} (h : Between s t) (h' : Between t u) : Between s u := by
  refine ⟨h'.station, h'.state.trans h.state, h'.link.trans h.link, h'.wfsId.trans h.wfsId,
    h'.settled.trans h.settled, fun eb hmem heb => ?_⟩
  obtain ⟨hmem', hown'⟩ := h'.pending eb hmem heb
  obtain ⟨hmem'', hown⟩ := h.pending eb hmem' (heb.trans h'.wfsId)
  exact ⟨hmem'', hown'.trans hown⟩

theorem between_of_run {t : Iwa EvQueue} {ops : List RapsOp} (h : StationOk s)
    (hrun : Run BetweenStep s ops t) : Between s t :=
  hrun.invariant (I := fun u => Between s u)
    (fun _ _ _ hu hstep => hu.trans (hstep.between hu.station)) (.refl h)

end VmkDrivers.Wfs
