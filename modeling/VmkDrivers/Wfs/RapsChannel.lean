/-
  VmkDrivers.Wfs.RapsChannel

  Which channel a RAPS SF removes.

  `wfs_process_raps` turns the port an SF arrived on into the role of the
  other channel, and the role is applied when the event is executed, behind
  the events that were pending already.  The SF removes the channel it
  arrived on exactly when those events leave the arrival port discovered in
  the other role.
-/

import VmkDrivers.Wfs.PortRole

namespace VmkDrivers.Wfs

open VmkDrivers.Lib WfsFsmState

/-! ## One SF -/

/-- The channels on port `a` are kept. -/
def KeepsPort (a : Port) (peer peer' : WfsPeer) : Prop :=
  ∀ pri, peer.channel pri = some a → peer'.channel pri = some a

instance (a : Port) (peer peer' : WfsPeer) : Decidable (KeepsPort a peer peer') :=
  inferInstanceAs (Decidable (∀ _pri, _ = _ → _ = _))

variable {a : Port} {opt : WfsoptRaps} {evdata : WfsFsmEventData}

/-- **One SF.** Executing it keeps the channels on port `a` exactly when the port does not
    stand in the role the SF names. -/
theorem keepsPort_rapsSF_iff {link : Port → Bool} {core core' : RapsCore} {eb : EventRec}
    {fib : List FibCall} {stands : Bool} (hrun : runEvent link core eb = .ok (core', fib))
    (hid : eb.wfsid ≠ core.wfsId) (hevent : eb.event = .rapsSF) (hok : PeerOk (core.peer eb.wfsid))
    (h : Stands a eb.data.raps.failureOnPrimary stands False (core.peer eb.wfsid)) :
    KeepsPort a (core.peer eb.wfsid) (core'.peer eb.wfsid) ↔ stands = false := by
  rcases runEvent_ok hrun with ⟨hacc, rfl, _⟩ | ⟨hacc, r, hr, rfl, _⟩
  · -- a peer in `S_init` has no channel to lose
    refine iff_of_true (fun _ hp => hp) ?_
    simp only [RapsCore.accepts, decide_eq_false hid, hevent] at hacc
    by_contra hs
    have hrole := h.role_iff.mpr (by simpa using hs)
    cases hst : (core'.peer eb.wfsid).fsmState with
    | init => exact hok.ne_init hrole hst
    | idle => simp [hst, validEntry, fsm] at hacc
    | protect => simp [hst, validEntry, fsm] at hacc
  · have hpeer : (core.acted eb.wfsid r).peer eb.wfsid = r.peer := by simp [RapsCore.acted]
    have hchannel : ∀ pri, r.peer.channel pri =
        if eb.data.raps.failureOnPrimary = pri then none
        else (core.peer eb.wfsid).channel pri := by
      intro pri
      have hc := (channel_of_action pri hid hr (by simp [hevent])).1
      rw [hc, hevent, dropChannel_channel]
    rw [hpeer]
    constructor
    · intro hkeep
      by_contra hs
      have hlost := hkeep _ (h.role_iff.mpr (by simpa using hs))
      rw [hchannel, if_pos rfl] at hlost
      cases hlost
    · intro hs pri ha
      rw [hchannel, if_neg, ha]
      rintro rfl
      exact absurd (h.role_iff.mp ha) (by simp [hs])

/-! ## While an SF waits -/

theorem Stands.arrival {peer : WfsPeer} (hok : PeerOk peer)
    (hdata : rapsSFData peer a opt = some evdata) :
    Stands a evdata.raps.failureOnPrimary false False peer := by
  refine ⟨?_, fun hs => nomatch hs⟩
  simp only [Bool.false_eq_true, or_self, imp_false]
  unfold rapsSFData at hdata
  split at hdata
  · next hpri =>
    simp only [Option.some.injEq] at hdata
    subst hdata
    exact hok.distinct a hpri.symm
  · next hpri =>
    split at hdata
    · simp only [Option.some.injEq] at hdata
      subst hdata
      exact fun heq => hpri heq.symm
    · simp at hdata

theorem rapsSFData_of_queued {s s' : Iwa EvQueue} {k : Kmalloc} {src : WfsId}
    (h : RapsStep s (.raps k a src opt) s')
    (hqueued : s'.pool.pending = s.pool.pending ++ [⟨src, .rapsSF, evdata⟩]) :
    rapsSFData (s.core.peer src) a opt = some evdata ∧ s'.core.ctrl.flag.fsmEvent = true := by
  obtain ⟨_, eff, hstep⟩ := h
  obtain ⟨evs, happ, hpre, _, hflag⟩ := (RapsOp.step_quiet rfl hstep).queued
  have hevs : evs = [⟨src, .rapsSF, evdata⟩] :=
    List.append_cancel_left (happ.pending.symm.trans hqueued)
  subst hevs
  refine ⟨?_, by simpa using hflag⟩
  have hmem := hpre.subset (List.mem_singleton.mpr rfl)
  simp only [RapsOp.requests] at hmem
  split at hmem
  · have heq := (mem_requested.mp hmem).2.2.2
    simp at heq
  · split at hmem
    · split at hmem
      · simp at hmem
      · next d hd =>
        have heq := (mem_requested.mp hmem).2.2.2
        simp only [EventRec.mk.injEq, true_and] at heq
        rw [hd, heq]
    · simp at hmem

/-- **The channel an SF arrived on.** Let an SF of station `src`, received on port `a`, be
    queued behind the events pending in `s`, and let it wait until `u`, whatever arrives in
    between.  When the next `wfs_fsm_run` executes it, the channels of `src` on port `a` are
    kept if and only if the events ahead of it do not leave port `a` discovered in the role
    whose failure was reported. -/
theorem rapsSF_keeps_port_iff {kmalloc : Nat → Bool} {wfsId : WfsId} {macAddr : Mac}
    {wfsPort : Port → Int} {before mid : List RapsOp} {s s' u v : Iwa EvBufPool} {k : Kmalloc}
    {a : Port} {src : WfsId} {opt : WfsoptRaps} {evdata : WfsFsmEventData}
    {view : Nat → Port → Bool}
    (h₀ : Run RapsStep (.probed wfsId macAddr wfsPort (EvBufPool.ixgbeWfsFsmInit kmalloc).1)
      before s)
    (h₁ : RapsStep s (.raps k a src opt) s')
    (hqueued : pendingEvents s'.pool = pendingEvents s.pool ++ [⟨src, .rapsSF, evdata⟩])
    (h₂ : Run RapsStep s' mid u) (hmid : ∀ op ∈ mid, op.waits = true)
    (h₃ : RapsStep u (.fsmEvent view) v) :
    ∃ later r r' r'',
      pendingEvents u.pool = pendingEvents s.pool ++ ⟨src, .rapsSF, evdata⟩ :: later ∧
      (pendingEvents s.pool).foldlM (runBody view) { core := u.core } = .ok r ∧
      runBody view r ⟨src, .rapsSF, evdata⟩ = .ok r' ∧
      later.foldlM (runBody view) r' = .ok r'' ∧ v.core = r''.core.ranFsm ∧
      (KeepsPort a (r.core.peer src) (r'.core.peer src) ↔
        exchangedBy view src a evdata.raps.failureOnPrimary 0 (pendingEvents s.pool) false =
          false) := by
  obtain ⟨q, t₀, hrun₀, hrep₀⟩ := iwaRep_of_run h₀
  obtain ⟨t₁, hstep₁, hrep₁⟩ := rapsStep_refines hrep₀ h₁
  obtain ⟨t₂, hrun₂, hrep₂⟩ := raps_refines h₂ hrep₁
  obtain ⟨t₃, ⟨_, eff, hstep₃⟩, hrep₃⟩ := rapsStep_refines hrep₂ h₃
  rw [hrep₀.pendingEvents_eq, hrep₁.pendingEvents_eq] at hqueued
  rw [hrep₀.pendingEvents_eq, hrep₂.pendingEvents_eq, ← hrep₂.core_eq, ← hrep₃.core_eq]
  obtain ⟨hdata, hflag₁⟩ := rapsSFData_of_queued hstep₁ hqueued
  have hid : src ≠ t₀.core.wfsId := hstep₁.1
  -- the frame names a channel, so the station has been started
  have hphased := hrun₀.invariant (fun _ _ _ h hstep => h.of_step hstep)
    (phased_probed wfsId macAddr wfsPort q)
  have hok₀ : StationOk t₀ := by
    refine hphased.started.resolve_left fun hfresh => ?_
    have hpri := (hfresh.peer src).channelPri
    have hsec := (hfresh.peer src).channelSec
    simp [rapsSFData, hpri, hsec] at hdata
  have hok₂ : StationOk t₂ := (hok₀.of_step hstep₁).run hrun₂
  obtain ⟨eff₁, hok₁⟩ := hstep₁.2
  have hwait : Waited t₁ t₂ := waited_of_run hrun₂ hmid
  have hwait₀ : Waited t₀ t₂ := (RapsOp.step_waited rfl hok₁).trans hwait
  obtain ⟨later, hlater⟩ := hwait.pending
  rw [hqueued, List.append_assoc, List.singleton_append] at hlater
  -- the whole queue runs through; cut it at the SF
  have hstands : Stands a evdata.raps.failureOnPrimary false False (t₂.core.peer src) := by
    have harr := Stands.arrival (hok₀.routes.remote src hid) hdata
    refine ⟨?_, fun hs => nomatch hs⟩
    have hrole := harr.role
    simpa only [WfsPeer.channel, hwait₀.channelPri src, hwait₀.channelSec src] using hrole
  have hev : ∀ eb ∈ t₀.pool.pending ++ ⟨src, .rapsSF, evdata⟩ :: later,
      EventOk t₂.core.wfsId eb := by
    rw [hlater]
    exact hok₂.events
  have hwfs : t₂.core.wfsId = t₀.core.wfsId := hwait₀.wfsId
  simp only [RapsOp.step] at hstep₃
  cases hrun : rapsFsmEvent view t₂ with
  | error f => simp [hrun, bind, Except.bind] at hstep₃
  | ok x =>
    simp only [hrun, bind, Except.bind, pure, Except.pure, Except.ok.injEq, Prod.mk.injEq] at hstep₃
    rw [rapsFsmEvent, if_pos (hwait.fsmEvent hflag₁), wfsFsmRun_eq, ← hlater] at hrun
    obtain ⟨r, hahead, hroutes, hrid⟩ := RoutesOk.foldlM_runBody view
      (l := t₀.pool.pending) (r := { core := t₂.core }) hok₂.routes
      fun eb heb => hev eb (List.mem_append_left _ heb)
    rw [List.foldlM_append, hahead] at hrun
    cases hrest : (⟨src, .rapsSF, evdata⟩ :: later).foldlM (runBody view) r with
    | error f => simp [hrest, bind, Except.bind, Except.map] at hrun
    | ok r'' =>
      simp only [hrest, bind, Except.bind, Except.map, Except.ok.injEq] at hrun
      obtain ⟨r', hbody, hlast⟩ := foldlM_cons_ok.mp hrest
      obtain ⟨core, fib, hevent, rfl⟩ := runBody_ok hbody
      have hidr : src ≠ r.core.wfsId := by
        rw [hrid]
        exact hwfs ▸ hid
      have hrole := Stands.foldlM (fun _ => False) hahead hok₂.routes
        (fun eb heb => hev eb (List.mem_append_left _ heb)) (hwfs ▸ hid)
        (fun _ _ _ _ hno => hno.elim) hstands
      refine ⟨later, r, _, r'', hlater.symm, hahead, hbody, hlast, ?_, ?_⟩
      · rw [← hstep₃.1, ← hrun]
      · exact keepsPort_rapsSF_iff hevent hidr rfl (hroutes.remote src hidr) hrole

def sfOpt : WfsoptRaps := { request := wfsoptRapsReqSF, flush := false, dnf := true }

/-- Nothing is ahead of the SF that station 2 sends to station 1. -/
theorem rapsSF_keeps_port_discoverRun :
    ∃ s s' v r r', Run RapsStep stationOne discoverRun s ∧
      RapsStep s (.raps (fun _ => true) .secondary 1 sfOpt) s' ∧
      RapsStep s' (.fsmEvent fun _ _ => true) v ∧
      runBody (fun _ _ => true) r ⟨1, .rapsSF, {}⟩ = .ok r' ∧
      (r.core.peer 1).channelPri = some .secondary ∧
      KeepsPort .secondary (r.core.peer 1) (r'.core.peer 1) := by
  have hdone : ((Run.exec (fun s op => RapsOp.next? s op) stationOne discoverRun).bind fun s =>
      (RapsOp.next? s (.raps (fun _ => true) .secondary 1 sfOpt)).bind fun s' =>
        (RapsOp.next? s' (.fsmEvent fun _ _ => true)).map fun _ =>
          decide (pendingEvents s'.pool = [⟨1, .rapsSF, {}⟩] ∧ pendingEvents s.pool = [] ∧
            (s'.core.peer 1).channelPri = some .secondary)) = some true := by
    decide +kernel
  obtain ⟨s, hs, hrest⟩ := Option.bind_eq_some_iff.mp hdone
  obtain ⟨s', hs', hrest⟩ := Option.bind_eq_some_iff.mp hrest
  obtain ⟨v, hv, hprop⟩ := Option.map_eq_some_iff.mp hrest
  obtain ⟨hpend', hpend, hpri⟩ := of_decide_eq_true hprop
  have hrun : Run RapsStep stationOne discoverRun s := rapsRun_iff_exec.mp hs
  have hstep := (RapsOp.next?_eq_some_iff _ _ _).mp hs'
  have hfsm := (RapsOp.next?_eq_some_iff _ _ _).mp hv
  have hqueued : pendingEvents s'.pool = pendingEvents s.pool ++ [⟨1, .rapsSF, {}⟩] := by
    rw [hpend', hpend]
    rfl
  obtain ⟨later, r, r', r'', _, hahead, hbody, _, _, hiff⟩ :=
    rapsSF_keeps_port_iff hrun hstep hqueued (.nil s') (by simp) hfsm
  rw [hpend] at hahead hiff
  have hr : { core := s'.core } = r := by simpa [pure, Except.pure] using hahead
  exact ⟨s, s', v, r, r', hrun, hstep, hfsm, hbody, hr ▸ hpri, hiff.mpr rfl⟩

/-- Station 2 announces its secondary port where its primary one was known, and the announce
    is still pending when an SF follows it. -/
def exchangeRun : List RapsOp :=
  discoverRun ++ [.announce (fun _ => true) .secondary 1 (announceOf false)]

/-- The SF removes the channel it arrived on, the only one to station 2. -/
theorem rapsSF_removes_port_exchangeRun :
    ∃ s s' v r r' eb, Run RapsStep stationOne exchangeRun s ∧
      RapsStep s (.raps (fun _ => true) .secondary 1 sfOpt) s' ∧
      RapsStep s' (.fsmEvent fun _ _ => true) v ∧
      pendingEvents s'.pool = pendingEvents s.pool ++ [eb] ∧ eb.event = .rapsSF ∧
      (pendingEvents s.pool).foldlM (runBody fun _ _ => true) { core := s'.core } = .ok r ∧
      runBody (fun _ _ => true) r eb = .ok r' ∧
      ¬KeepsPort .secondary (r.core.peer 1) (r'.core.peer 1) := by
  have hdone : ((Run.exec (fun s op => RapsOp.next? s op) stationOne exchangeRun).bind fun s =>
      (RapsOp.next? s (.raps (fun _ => true) .secondary 1 sfOpt)).bind fun s' =>
        (RapsOp.next? s' (.fsmEvent fun _ _ => true)).bind fun _ =>
          ((pendingEvents s.pool).foldlM (runBody fun _ _ => true)
              { core := s'.core }).toOption.bind fun r =>
            (runBody (fun _ _ => true) r ⟨1, .rapsSF, {}⟩).toOption.map fun r' =>
              decide (pendingEvents s'.pool = pendingEvents s.pool ++ [⟨1, .rapsSF, {}⟩] ∧
                ¬KeepsPort .secondary (r.core.peer 1) (r'.core.peer 1))) = some true := by
    decide +kernel
  obtain ⟨s, hs, hrest⟩ := Option.bind_eq_some_iff.mp hdone
  obtain ⟨s', hs', hrest⟩ := Option.bind_eq_some_iff.mp hrest
  obtain ⟨v, hv, hrest⟩ := Option.bind_eq_some_iff.mp hrest
  obtain ⟨r, hr, hrest⟩ := Option.bind_eq_some_iff.mp hrest
  obtain ⟨r', hr', hprop⟩ := Option.map_eq_some_iff.mp hrest
  obtain ⟨hpend, hlost⟩ := of_decide_eq_true hprop
  have hok : ∀ {β : Type} {x : Except Fault β} {b : β}, x.toOption = some b → x = .ok b := by
    intro β x b hx
    cases x with
    | error f => simp [Except.toOption] at hx
    | ok c => simpa [Except.toOption] using hx
  exact ⟨s, s', v, r, r', _, rapsRun_iff_exec.mp hs, (RapsOp.next?_eq_some_iff _ _ _).mp hs',
    (RapsOp.next?_eq_some_iff _ _ _).mp hv, hpend, rfl, hok hr, hok hr', hlost⟩

end VmkDrivers.Wfs
