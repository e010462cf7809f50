/-
  VmkDrivers.Wfs.LinkState

  Dead ports and the channels of remote peers.

  `ixgbe_watchdog_link_is_down` queues an `E_localSF` for every peer that is
  known at that moment, and its action drops the channels on ports without
  link.  An `E_discover` enters its channel without looking at the link, so
  one that is executed after the report puts the peer back on the dead port
  and nothing takes it away.  The channels of remote peers stay off dead
  ports exactly on the runs whose queues leave no such discover standing.

  `Linked` adds to a station the ports that went down and whose report is
  still to come: the watchdog sets `adapter->link_up` first and reports
  afterwards, and other operations may come in between.
-/

import VmkDrivers.Wfs.PortRole

namespace VmkDrivers.Wfs

open VmkDrivers.Lib WfsFsmState

/-! ## Reports -/

structure Linked (π : Type) where
  iwa : Iwa π
  unreported : Port → Bool

def RapsOp.unreported {π : Type} (x : Linked π) : RapsOp → Port → Bool
  | .updateLink p up =>
    Function.update x.unreported p (!up && (x.unreported p || x.iwa.link p))
  | .linkIsDown _ p => Function.update x.unreported p false
  | _ => x.unreported

/-- Port `a` has no link, and this was reported. -/
def Linked.Dead {π : Type} (x : Linked π) (a : Port) : Prop :=
  x.iwa.link a = false ∧ x.unreported a = false

/-- Port `a` has link, or its report is still to come. -/
def Linked.Live {π : Type} (x : Linked π) (a : Port) : Prop :=
  x.iwa.link a = true ∨ x.unreported a = true

instance {π : Type} (x : Linked π) (a : Port) : Decidable (x.Dead a) :=
  inferInstanceAs (Decidable (_ ∧ _))

theorem Linked.live_iff {π : Type} {x : Linked π} {a : Port} : x.Live a ↔ ¬x.Dead a := by
  unfold Live Dead
  cases x.iwa.link a <;> cases x.unreported a <;> simp

section Sessions

variable {π : Type} [EventStore π]

/-- The operations between a start and the next stop, with event buffers available to the
    reports, the actions reading a dead port as down. -/
def RapsOp.inSession (x : Linked π) : RapsOp → Prop
  | .linkIsDown k p => (ixgbeWatchdogLinkIsDown k p x.iwa).2 = false
  | .fsmEvent view =>
    ∀ i, i < (pendingEvents x.iwa.pool).length → ∀ a, x.Dead a → view i a = false
  | .openPorts | .rapsStart _ _ | .rapsStop | .closePorts => False
  | _ => True

def LinkedStep (x : Linked π) (op : RapsOp) (y : Linked π) : Prop :=
  op.inSession x ∧ RapsStep x.iwa op y.iwa ∧ y.unreported = op.unreported x

/-- **No traffic to a dead port.** When no event is pending, the active channel of every
    remote peer is live. -/
def ActiveLive (x : Linked π) : Prop :=
  pendingEvents x.iwa.pool = [] → ∀ id, id ≠ x.iwa.core.wfsId →
    ((x.iwa.core.peer id).fsmState = idle →
      ∃ a, (x.iwa.core.peer id).channelPri = some a ∧ x.Live a) ∧
    ((x.iwa.core.peer id).fsmState = protect →
      ∃ a, (x.iwa.core.peer id).channelSec = some a ∧ x.Live a)

/-- When no event is pending, every channel of every remote peer is live. -/
def ChannelsLive (x : Linked π) : Prop :=
  pendingEvents x.iwa.pool = [] → ∀ id, id ≠ x.iwa.core.wfsId →
    ∀ pri a, (x.iwa.core.peer id).channel pri = some a → x.Live a

/-- The events `wfs_fsm_run` is about to execute leave no remote peer discovered on a dead
    port. -/
def DiscoversLive (x : Linked π) : RapsOp → Prop
  | .fsmEvent view => x.iwa.core.ctrl.flag.fsmEvent = true →
      ∀ id, id ≠ x.iwa.core.wfsId → ∀ a, x.Dead a → ∀ pri,
        exchangedBy view id a pri 0 (pendingEvents x.iwa.pool) false = false
  | _ => True

theorem LinkedStep.unique {x y y' : Linked π} {op : RapsOp} (h : LinkedStep x op y)
    (h' : LinkedStep x op y') : y = y' := by
  have hiwa := h.2.1.unique h'.2.1
  have hunrep := h.2.2.trans h'.2.2.symm
  obtain ⟨s, u⟩ := y
  obtain ⟨s', u'⟩ := y'
  show Linked.mk s u = Linked.mk s' u'
  rw [show s = s' from hiwa, show u = u' from hunrep]

end Sessions

/-! ## The invariant -/

/-- Every channel on a dead port is doomed by a pending `E_localSF`. -/
structure LinkOk (x : Linked EvQueue) : Prop where
  station : StationOk x.iwa
  opened : x.iwa.state = .opened
  doomed : ∀ id, id ≠ x.iwa.core.wfsId → ∀ pri a,
    (x.iwa.core.peer id).channel pri = some a → x.Dead a →
      HasEvent .localSF id x.iwa.pool.pending

variable {x : Linked EvQueue} {op : RapsOp} {a : Port}

theorem LinkOk.channelsLive (h : LinkOk x) : ChannelsLive x := by
  intro hempty id hid pri a ha
  rw [EvQueue.pendingEvents_eq] at hempty
  rw [Linked.live_iff]
  intro hdead
  have hdoomed := h.doomed id hid pri a ha hdead
  rw [hempty] at hdoomed
  obtain ⟨eb, hmem, _⟩ := hdoomed
  exact absurd hmem List.not_mem_nil

theorem ChannelsLive.activeLive (hok : StationOk x.iwa) (h : ChannelsLive x) : ActiveLive x := by
  intro hempty id hid
  have hpeer := hok.routes.remote id hid
  constructor
  · intro hidle
    obtain ⟨a, ha⟩ := Option.ne_none_iff_exists'.mp (hpeer.idle_iff.mp hidle)
    exact ⟨a, ha, h hempty id hid true a ha⟩
  · intro hprotect
    obtain ⟨a, ha⟩ := Option.ne_none_iff_exists'.mp (hpeer.protect_iff.mp hprotect).2
    exact ⟨a, ha, h hempty id hid false a ha⟩

theorem Waited.channel {s t : Iwa EvQueue} (h : Waited s t) (id : WfsId) (pri : Bool) :
    (t.core.peer id).channel pri = (s.core.peer id).channel pri := by
  unfold WfsPeer.channel
  rw [h.channelPri id, h.channelSec id]

/-! ## Steps -/

theorem dead_of_step {y : Linked EvQueue} (h : LinkedStep x op y)
    (hop : ∀ k p, op ≠ .linkIsDown k p) (hdead : y.Dead a) : x.Dead a := by
  obtain ⟨_, ⟨_, eff, hok⟩, hunrep⟩ := h
  have hlink := congrArg Control.link (RapsOp.step_control hok)
  obtain ⟨hdown, hrep⟩ := hdead
  rw [hunrep] at hrep
  rw [show y.iwa.link = _ from hlink] at hdown
  cases op with
  | linkIsDown k p => exact absurd rfl (hop k p)
  | updateLink p up =>
    by_cases hp : a = p
    · subst hp
      -- the port that just went down is not reported yet
      simp only [RapsOp.control, RapsOp.unreported, Function.update_self] at hdown hrep
      rw [hdown, Bool.not_false, Bool.true_and, Bool.or_eq_false_iff] at hrep
      exact ⟨hrep.2, hrep.1⟩
    · simp only [RapsOp.control, RapsOp.unreported, Function.update_of_ne hp] at hdown hrep
      exact ⟨hdown, hrep⟩
  | setEvent | linkIsUp | announce | raps | fsmEvent | timers | peerTtl | misc | openPorts
  | rapsStart | rapsStop | closePorts => exact ⟨hdown, hrep⟩

theorem localSF_of_linkIsDown {s t : Iwa EvQueue} {k : Kmalloc} {p : Port} {eff : Effects}
    (hok : StationOk s) (hopen : s.state = .opened)
    (hserved : (ixgbeWatchdogLinkIsDown k p s).2 = false)
    (hstep : (RapsOp.linkIsDown k p).step s = .ok (t, eff)) {id : WfsId} (hid : id ≠ s.core.wfsId)
    {pri : Bool} (ha : (s.core.peer id).channel pri = some a) :
    HasEvent .localSF id t.pool.pending := by
  obtain ⟨evs, happ, _, hall, _⟩ := (RapsOp.step_quiet rfl hstep).queued
  have hbuf : eff.noBuffer = false := by
    simp only [RapsOp.step, Except.ok.injEq, Prod.mk.injEq] at hstep
    rw [← hstep.2]
    exact hserved
  have hinit := (hok.routes.remote id hid).ne_init ha
  have hadm : s.core.admits .localSF id = true := by
    unfold RapsCore.admits
    rw [decide_eq_false hid]
    cases hst : (s.core.peer id).fsmState with
    | init => exact absurd hst hinit
    | idle => rfl
    | protect => rfl
  refine ⟨⟨id, .localSF, {}⟩, ?_, rfl, rfl⟩
  rw [happ.pending, hall hbuf]
  apply List.mem_append_right
  exact mem_requested.mpr ⟨hopen, .inl rfl, hadm, rfl⟩

theorem LinkOk.waits {y : Linked EvQueue} (h : LinkOk x) (hstep : LinkedStep x op y)
    (hw : op.waits = true) : LinkOk y := by
  obtain ⟨hsession, hraps, hunrep⟩ := id hstep
  obtain ⟨hen, eff, hok⟩ := id hraps
  have hwait := RapsOp.step_waited hw hok
  refine ⟨h.station.of_step hraps, ?_, ?_⟩
  · have hstate := congrArg Control.state (RapsOp.step_control hok)
    rw [show y.iwa.state = _ from hstate]
    cases op with
    | openPorts | rapsStart | rapsStop | closePorts => exact hsession.elim
    | setEvent | updateLink | linkIsDown | linkIsUp | announce | raps | fsmEvent | timers
    | peerTtl | misc => exact h.opened
  · intro id hid pri a ha hdead
    rw [hwait.wfsId] at hid
    rw [hwait.channel id pri] at ha
    by_cases hop : ∃ k p, op = .linkIsDown k p
    · obtain ⟨k, p, rfl⟩ := hop
      exact localSF_of_linkIsDown h.station h.opened hsession hok hid ha
    · have hold := dead_of_step hstep (fun k p heq => hop ⟨k, p, heq⟩) hdead
      obtain ⟨evs, hevs⟩ := hwait.pending
      rw [← hevs]
      exact (h.doomed id hid pri a ha hold).append_left evs

/-- **A run of the queue** leaves a remote peer on a dead port exactly when a discover of
    it stands. -/
theorem LinkOk.channel_iff {view : Nat → Port → Bool} {t : Iwa EvQueue} {fib : List FibCall}
    (h : LinkOk x) (hsession : (RapsOp.fsmEvent view).inSession x)
    (hflag : x.iwa.core.ctrl.flag.fsmEvent = true) (hrun : rapsFsmEvent view x.iwa = .ok (t, fib))
    {id : WfsId} (hid : id ≠ x.iwa.core.wfsId) (hdead : x.Dead a) (pri : Bool) :
    (t.core.peer id).channel pri = some a ↔
      exchangedBy view id a pri 0 x.iwa.pool.pending false = true := by
  rw [rapsFsmEvent, if_pos hflag, wfsFsmRun_eq] at hrun
  cases hloop : x.iwa.pool.pending.foldlM (runBody view) { core := x.iwa.core } with
  | error f => simp [hloop, Except.map] at hrun
  | ok r =>
    simp only [hloop, Except.map, Except.ok.injEq, Prod.mk.injEq] at hrun
    -- the `E_localSF` that dooms a channel on a dead port is executed with the port down
    have hdoomed : ∀ i eb rest, i < 0 + x.iwa.pool.pending.length →
        HasEvent .localSF id (eb :: rest) →
        (eb.wfsid = id ∧ eb.event = .localSF ∧ view i a = false) ∨
          HasEvent .localSF id rest := by
      rintro i eb rest hi ⟨e, hmem, he⟩
      rcases List.mem_cons.mp hmem with rfl | hmem
      · refine .inl ⟨he.1, he.2, hsession i ?_ a hdead⟩
        rw [EvQueue.pendingEvents_eq]
        omega
      · exact .inr ⟨e, hmem, he⟩
    have hstands : Stands a pri false (HasEvent .localSF id x.iwa.pool.pending)
        (x.iwa.core.peer id) :=
      ⟨fun ha => .inr (h.doomed id hid pri a ha hdead), fun hs => by cases hs⟩
    have hend := Stands.foldlM (HasEvent .localSF id) hloop h.station.routes h.station.events
      hid hdoomed hstands
    have hnone : ¬HasEvent .localSF id [] := by
      rintro ⟨eb, hmem, _⟩
      exact absurd hmem List.not_mem_nil
    rw [← hrun.1]
    show (r.core.peer id).channel pri = some a ↔ _
    exact ⟨fun ha => (hend.role ha).resolve_right hnone, fun hs => (hend.given hs).1⟩

/-- **One step.** It keeps dead ports without channels unless a discover is left standing
    on one. -/
theorem LinkOk.of_step {y : Linked EvQueue} (h : LinkOk x) (hstep : LinkedStep x op y) :
    (DiscoversLive x op → LinkOk y) ∧ (ChannelsLive y → DiscoversLive x op) := by
  cases op with
  | fsmEvent view =>
    obtain ⟨hsession, hraps, hunrep⟩ := id hstep
    obtain ⟨hen, eff, hok⟩ := id hraps
    have hctl := RapsOp.step_control hok
    have hlink : y.iwa.link = x.iwa.link := congrArg Control.link hctl
    have hdead : ∀ a, y.Dead a ↔ x.Dead a := by
      intro a
      unfold Linked.Dead
      rw [hlink, hunrep]
      rfl
    simp only [RapsOp.step] at hok
    cases hrun : rapsFsmEvent view x.iwa with
    | error f => simp [hrun, bind, Except.bind] at hok
    | ok r =>
      obtain ⟨t, fib⟩ := r
      simp only [hrun, bind, Except.bind, pure, Except.pure, Except.ok.injEq, Prod.mk.injEq] at hok
      have ht : t = y.iwa := hok.1
      have hempty : x.iwa.core.ctrl.flag.fsmEvent = true →
          y.iwa.pool.pending = [] ∧ y.iwa.core.wfsId = x.iwa.core.wfsId := by
        intro hflag
        obtain ⟨r, hloop, _, hwfs⟩ := RoutesOk.foldlM_runBody view
          (r := { core := x.iwa.core }) h.station.routes h.station.events
        rw [rapsFsmEvent, if_pos hflag, wfsFsmRun_eq, hloop] at hrun
        simp only [Except.map, Except.ok.injEq, Prod.mk.injEq] at hrun
        rw [← ht, ← hrun.1]
        exact ⟨rfl, hwfs⟩
      have hopened : y.iwa.state = .opened := by
        rw [show y.iwa.state = x.iwa.state from congrArg Control.state hctl]
        exact h.opened
      constructor
      · intro hlive
        refine ⟨h.station.of_step hraps, hopened, ?_⟩
        intro id hid pri a ha hd
        rw [hdead] at hd
        cases hflag : x.iwa.core.ctrl.flag.fsmEvent with
        | false =>
          -- nothing ran
          rw [rapsFsmEvent, if_neg (by simp [hflag])] at hrun
          simp only [Except.ok.injEq, Prod.mk.injEq] at hrun
          rw [← ht, ← hrun.1] at hid ha ⊢
          exact h.doomed id hid pri a ha hd
        | true =>
          obtain ⟨_, hwfs⟩ := hempty hflag
          rw [hwfs] at hid
          rw [← ht] at ha
          have hstands := (h.channel_iff hsession hflag hrun hid hd pri).mp ha
          have hno := hlive hflag id hid a hd pri
          rw [EvQueue.pendingEvents_eq] at hno
          exact absurd (hstands.symm.trans hno) (by decide)
      · intro hchannels hflag id hid a hd pri
        obtain ⟨hpend, hwfs⟩ := hempty hflag
        by_contra hstands
        rw [Bool.not_eq_false, EvQueue.pendingEvents_eq] at hstands
        have ha := (h.channel_iff hsession hflag hrun hid hd pri).mpr hstands
        rw [ht] at ha
        have hlive := hchannels (by rw [EvQueue.pendingEvents_eq]; exact hpend) id
          (hwfs ▸ hid) pri a ha
        exact Linked.live_iff.mp hlive ((hdead a).mpr hd)
  | rapsStart k ip => exact hstep.1.elim
  | setEvent | updateLink | linkIsDown | linkIsUp | announce | raps | timers | peerTtl | misc
  | openPorts | rapsStop | closePorts => exact ⟨fun _ => h.waits hstep rfl, fun _ => trivial⟩

/-! ## Runs -/

structure LinkedRep (x : Linked EvBufPool) (y : Linked EvQueue) : Prop where
  iwa : IwaRep x.iwa y.iwa
  unreported : y.unreported = x.unreported

namespace LinkedRep

variable {x : Linked EvBufPool} {y : Linked EvQueue}

theorem dead_iff (h : LinkedRep x y) (a : Port) : x.Dead a ↔ y.Dead a := by
  unfold Linked.Dead
  rw [h.iwa.link_eq, h.unreported]

theorem pendingEvents_eq (h : LinkedRep x y) :
    pendingEvents x.iwa.pool = pendingEvents y.iwa.pool := by
  rw [h.iwa.pendingEvents_eq, EvQueue.pendingEvents_eq]

theorem live_iff (h : LinkedRep x y) (a : Port) : x.Live a ↔ y.Live a := by
  rw [Linked.live_iff, Linked.live_iff, h.dead_iff]

theorem channelsLive_iff (h : LinkedRep x y) : ChannelsLive x ↔ ChannelsLive y := by
  unfold ChannelsLive
  rw [h.pendingEvents_eq, h.iwa.core_eq]
  simp only [h.live_iff]

theorem activeLive_iff (h : LinkedRep x y) : ActiveLive x ↔ ActiveLive y := by
  unfold ActiveLive
  rw [h.pendingEvents_eq, h.iwa.core_eq]
  simp only [h.live_iff]

theorem discoversLive_iff (h : LinkedRep x y) (op : RapsOp) :
    DiscoversLive x op ↔ DiscoversLive y op := by
  cases op <;> simp only [DiscoversLive, h.pendingEvents_eq, h.iwa.core_eq, h.dead_iff]

theorem inSession_iff (h : LinkedRep x y) (op : RapsOp) : op.inSession x ↔ op.inSession y := by
  cases op with
  | linkIsDown k p =>
    show _ = false ↔ _ = false
    rw [(ixgbeWatchdogLinkIsDown_rep k p h.iwa).2]
  | fsmEvent view =>
    unfold RapsOp.inSession
    rw [h.pendingEvents_eq]
    simp only [h.dead_iff]
  | setEvent | updateLink | linkIsUp | announce | raps | timers | peerTtl | misc | openPorts
  | rapsStart | rapsStop | closePorts => exact Iff.rfl

theorem step (h : LinkedRep x y) {op : RapsOp} {x' : Linked EvBufPool}
    (hstep : LinkedStep x op x') : ∃ y', LinkedStep y op y' ∧ LinkedRep x' y' := by
  obtain ⟨hsession, hraps, hunrep⟩ := hstep
  obtain ⟨t, ht, hrep⟩ := rapsStep_refines h.iwa hraps
  have hsame : op.unreported y = op.unreported x := by
    cases op <;> simp only [RapsOp.unreported, h.unreported, h.iwa.link_eq]
  refine ⟨⟨t, op.unreported y⟩, ⟨(h.inSession_iff op).mp hsession, ht, rfl⟩, hrep, ?_⟩
  rw [hunrep, hsame]

end LinkedRep

theorem channelsLive_of_run {x x' : Linked EvBufPool} {ops : List RapsOp}
    (hrun : Run LinkedStep x ops x') {y : Linked EvQueue} (hrep : LinkedRep x y)
    (h : LinkOk y) :
    Always LinkedStep ChannelsLive x ops ↔ Run (Guarded LinkedStep DiscoversLive) x ops x' := by
  have hdet : ∀ (x : Linked EvBufPool) op z z', LinkedStep x op z → LinkedStep x op z' → z = z' :=
    fun _ _ _ _ h₁ h₂ => h₁.unique h₂
  apply always_iff_guarded (I := fun x => ∃ y, LinkedRep x y ∧ LinkOk y) hdet ?_ ?_ hrun
    ⟨y, hrep, h⟩
  · rintro x ⟨y, hrep, h⟩
    exact hrep.channelsLive_iff.mpr h.channelsLive
  · rintro x op z ⟨y, hrep, h⟩ hstep
    obtain ⟨z', hstep', hrep'⟩ := hrep.step hstep
    obtain ⟨hkeep, hneed⟩ := h.of_step hstep'
    rw [hrep.discoversLive_iff op, hrep'.channelsLive_iff]
    exact ⟨fun hlive => ⟨z', hrep', hkeep hlive⟩, hneed⟩

theorem linkOk_rapsStart {s t : Iwa EvQueue} {k : Kmalloc} {ip : UInt32}
    (h : RapsStep s (.rapsStart k ip) t) (unreported : Port → Bool) :
    LinkOk ⟨t, unreported⟩ := by
  obtain ⟨hen, eff, hok⟩ := h
  simp only [RapsOp.step, Except.ok.injEq, Prod.mk.injEq] at hok
  obtain ⟨evs, pool, heq, _⟩ := ixgbeWfsRapsStart_spec k ip s
  rw [← hok.1]
  refine ⟨stationOk_rapsStart k ip s, ?_, ?_⟩
  · show (ixgbeWfsRapsStart k ip s).1.state = .opened
    rw [heq]
    exact hen.1
  · -- no remote peer has a channel
    intro id hid pri a ha
    rw [show (Linked.mk _ unreported).iwa = (ixgbeWfsRapsStart k ip s).1 from rfl, heq] at hid ha
    have hid' : id ≠ s.core.wfsId := hid
    have hpeer : (RapsCore.started s ip).peer id = {} := by
      simp [RapsCore.started, Function.update_of_ne hid']
    rw [show (Iwa.core _).peer id = {} from hpeer] at ha
    cases pri <;> exact absurd ha (by simp [WfsPeer.channel])

/-- **Dead ports.** After `ixgbe_wfs_raps_start` let announces, RAPS frames, reports of the
    link watchdog and parts of ticks come in any order.  On every run on which no
    `wfs_fsm_run` leaves an `E_discover` standing on a dead port, the active channel of
    every remote peer is live whenever no event is pending; and all channels of remote
    peers are live whenever no event is pending on these runs only. -/
theorem active_channels_live_of_run {kmalloc : Nat → Bool} {wfsId : WfsId} {macAddr : Mac}
    {wfsPort : Port → Int} {before after : List RapsOp} {s₀ s₁ : Iwa EvBufPool}
    {k : Kmalloc} {ip : UInt32} {x : Linked EvBufPool}
    (h₀ : Run RapsStep (.probed wfsId macAddr wfsPort (EvBufPool.ixgbeWfsFsmInit kmalloc).1)
      before s₀)
    (h₁ : RapsStep s₀ (.rapsStart k ip) s₁)
    (h₂ : Run LinkedStep ⟨s₁, fun _ => false⟩ after x) :
    (Run (Guarded LinkedStep DiscoversLive) ⟨s₁, fun _ => false⟩ after x →
      Always LinkedStep ActiveLive ⟨s₁, fun _ => false⟩ after) ∧
    (Always LinkedStep ChannelsLive ⟨s₁, fun _ => false⟩ after ↔
      Run (Guarded LinkedStep DiscoversLive) ⟨s₁, fun _ => false⟩ after x) := by
  obtain ⟨q, t₀, _, hrep₀⟩ := iwaRep_of_run h₀
  obtain ⟨t₁, hstart, hrep₁⟩ := rapsStep_refines hrep₀ h₁
  have hok : LinkOk ⟨t₁, fun _ => false⟩ := linkOk_rapsStart hstart _
  have hrep : LinkedRep ⟨s₁, fun _ => false⟩ ⟨t₁, fun _ => false⟩ := ⟨hrep₁, rfl⟩
  have hiff := channelsLive_of_run h₂ hrep hok
  refine ⟨fun hguarded => ?_, hiff⟩
  intro pre z hpre hz
  have hchannels := hiff.mpr hguarded pre z hpre hz
  -- the station is consistent in every state on the way
  obtain ⟨z', hz', hrepz⟩ := Run.simulate (U := LinkedStep) (R := LinkedRep)
    (fun _ _ _ _ hxy hxz => hxy.step hxz) hz hrep
  have hstation : StationOk z'.iwa :=
    hz'.invariant (I := fun y => StationOk y.iwa) (fun _ _ _ hs hst => hs.of_step hst.2.1)
      hok.station
  exact hrepz.activeLive_iff.mpr ((hrepz.channelsLive_iff.mp hchannels).activeLive hstation)

/-! ## A run with a late discover -/

instance {π : Type} [EventStore π] (x : Linked π) : (op : RapsOp) → Decidable (op.inSession x)
  | .linkIsDown _ _ => inferInstanceAs (Decidable (_ = _))
  | .fsmEvent view => inferInstanceAs (Decidable
      (∀ i, i < (pendingEvents x.iwa.pool).length → ∀ a, x.Dead a → view i a = false))
  | .openPorts | .rapsStart _ _ | .rapsStop | .closePorts => inferInstanceAs (Decidable False)
  | .setEvent .. | .updateLink .. | .linkIsUp .. | .announce .. | .raps .. | .timers
  | .peerTtl _ | .misc _ => inferInstanceAs (Decidable True)

instance {π : Type} [EventStore π] (x : Linked π) : (op : RapsOp) → Decidable (DiscoversLive x op)
  | .fsmEvent view => inferInstanceAs (Decidable (x.iwa.core.ctrl.flag.fsmEvent = true →
      ∀ id, id ≠ x.iwa.core.wfsId → ∀ a, x.Dead a → ∀ pri,
        exchangedBy view id a pri 0 (pendingEvents x.iwa.pool) false = false))
  | .setEvent .. | .updateLink .. | .linkIsDown .. | .linkIsUp .. | .announce .. | .raps ..
  | .timers | .peerTtl _ | .misc _ | .openPorts | .rapsStart .. | .rapsStop | .closePorts =>
    inferInstanceAs (Decidable True)

def Linked.next? {π : Type} [EventStore π] (x : Linked π) (op : RapsOp) : Option (Linked π) :=
  if op.inSession x then (op.next? x.iwa).map fun s => ⟨s, op.unreported x⟩ else none

theorem Linked.next?_eq_some_iff {π : Type} [EventStore π] (x : Linked π) (op : RapsOp)
    (y : Linked π) : x.next? op = some y ↔ LinkedStep x op y := by
  unfold Linked.next? LinkedStep
  by_cases hsession : op.inSession x
  · rw [if_pos hsession, Option.map_eq_some_iff]
    constructor
    · rintro ⟨s, hs, rfl⟩
      exact ⟨hsession, (RapsOp.next?_eq_some_iff _ _ _).mp hs, rfl⟩
    · rintro ⟨_, hraps, hunrep⟩
      refine ⟨y.iwa, (RapsOp.next?_eq_some_iff _ _ _).mpr hraps, ?_⟩
      rw [← hunrep]
  · rw [if_neg hsession]
    exact iff_of_false (by simp) fun h => hsession h.1

def upRun : List RapsOp := [.openPorts, .updateLink .primary true, .updateLink .secondary true]

def linkLostRun : List RapsOp :=
  [.announce (fun _ => true) .secondary 1 (announceOf true), .fsmEvent fun _ _ => true,
    .updateLink .secondary false, .linkIsDown (fun _ => true) .secondary,
    .fsmEvent fun _ a => a == .primary]

theorem active_channels_live_linkLostRun :
    ∃ s₀ s₁, Run RapsStep stationOne upRun s₀ ∧ RapsStep s₀ (.rapsStart (fun _ => true) 0) s₁ ∧
      Always LinkedStep ActiveLive ⟨s₁, fun _ => false⟩ linkLostRun := by
  have hdone : ((Run.exec (fun s op => RapsOp.next? s op) stationOne upRun).bind fun s₀ =>
      (RapsOp.next? s₀ (.rapsStart (fun _ => true) 0)).bind fun s₁ =>
        Run.exec (fun x op => if DiscoversLive x op then Linked.next? x op else none)
          ⟨s₁, fun _ => false⟩ linkLostRun).isSome = true := by
    decide +kernel
  obtain ⟨x, hx⟩ := Option.isSome_iff_exists.mp hdone
  obtain ⟨s₀, hs₀, hrest⟩ := Option.bind_eq_some_iff.mp hx
  obtain ⟨s₁, hs₁, hrun⟩ := Option.bind_eq_some_iff.mp hrest
  have h₀ : Run RapsStep stationOne upRun s₀ := rapsRun_iff_exec.mp hs₀
  have h₁ := (RapsOp.next?_eq_some_iff _ _ _).mp hs₁
  have hguarded : Run (Guarded LinkedStep DiscoversLive) ⟨s₁, fun _ => false⟩ linkLostRun x :=
    (Run.exec_eq_some_iff (guarded_eq_some_iff Linked.next?_eq_some_iff)).mp hrun
  exact ⟨s₀, s₁, h₀, h₁,
    (active_channels_live_of_run h₀ h₁ (hguarded.mono fun _ _ _ h => h.2)).1 hguarded⟩

/-- An announce of station 2 is still pending when the port it came in on is reported
    down. -/
def lateDiscoverRun : List RapsOp :=
  [.fsmEvent fun _ _ => true, .announce (fun _ => true) .secondary 1 (announceOf true),
    .updateLink .secondary false, .linkIsDown (fun _ => true) .secondary,
    .fsmEvent fun _ a => a == .primary]

/-- Station 2 was unknown to the report, so no `E_localSF` follows the discover, and the
    traffic to it goes to the dead port. -/
theorem dead_port_of_lateDiscoverRun :
    ∃ s₀ s₁ x, Run RapsStep stationOne upRun s₀ ∧
      RapsStep s₀ (.rapsStart (fun _ => true) 0) s₁ ∧
      Run LinkedStep ⟨s₁, fun _ => false⟩ lateDiscoverRun x ∧ (∀ a, x.unreported a = false) ∧
      ¬ActiveLive x := by
  have hdone : ((Run.exec (fun s op => RapsOp.next? s op) stationOne upRun).bind fun s₀ =>
      (RapsOp.next? s₀ (.rapsStart (fun _ => true) 0)).bind fun s₁ =>
        (Run.exec (fun x op => Linked.next? x op) ⟨s₁, fun _ => false⟩ lateDiscoverRun).map
          fun x => decide ((∀ a, x.unreported a = false) ∧ pendingEvents x.iwa.pool = [] ∧
            1 ≠ x.iwa.core.wfsId ∧ (x.iwa.core.peer 1).fsmState = idle ∧
            (x.iwa.core.peer 1).channelPri = some .secondary ∧ x.Dead .secondary)) =
      some true := by
    decide +kernel
  obtain ⟨s₀, hs₀, hrest⟩ := Option.bind_eq_some_iff.mp hdone
  obtain ⟨s₁, hs₁, hrest⟩ := Option.bind_eq_some_iff.mp hrest
  obtain ⟨x, hx, hprop⟩ := Option.map_eq_some_iff.mp hrest
  obtain ⟨hrep, hempty, hid, hidle, hpri, hdead⟩ := of_decide_eq_true hprop
  refine ⟨s₀, s₁, x, rapsRun_iff_exec.mp hs₀, (RapsOp.next?_eq_some_iff _ _ _).mp hs₁,
    (Run.exec_eq_some_iff Linked.next?_eq_some_iff).mp hx, hrep, ?_⟩
  intro hlive
  obtain ⟨a, ha, hup⟩ := (hlive hempty 1 hid).1 hidle
  rw [hpri, Option.some.injEq] at ha
  exact Linked.live_iff.mp hup (ha ▸ hdead)

end VmkDrivers.Wfs
