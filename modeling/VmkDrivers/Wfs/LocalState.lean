/-
  VmkDrivers.Wfs.LocalState

  The own entry of a station and its two ports.

  The entry is in `S_idle` when the station works over its primary port and in
  `S_protect` when it works over the secondary one.  The link watchdog changes
  it with `E_localSF` when a port goes down, and with `E_clear_localSF` when
  one comes up and the other is up.  No event follows a port that comes up
  alone, so the entry goes on naming the port that worked last.  It is right
  in every state exactly if that port is also the one that comes back first
  (`local_state_names_port_iff`).
-/

import VmkDrivers.Wfs.OwnEntry

namespace VmkDrivers.Wfs

open VmkDrivers.Lib WfsFsmState

/-! ## Transitions of the ports -/

/-- A station with what its port transitions so far tell of it: the port that works, or that
    worked last, the primary one if both do, and whether a port has gone down since both were
    last up. -/
structure Ported (π : Type) where
  iwa : Iwa π
  last : Port
  failed : Bool

/-- A port changes its link, which is reported, and after `mid` the queue is run; or another
    operation of the station. -/
inductive PortInput where
  | change (p : Port) (up : Bool) (k : Kmalloc) (mid : List RapsOp)
  | other (op : RapsOp)

/-- The port that works, `last` if none does. -/
def workingPort (link : Port → Bool) (last : Port) : Port :=
  if link .primary then .primary else if link .secondary then .secondary else last

def stateOf : Port → WfsFsmState
  | .primary => idle
  | .secondary => protect

section Steps

variable {π : Type} [EventStore π]

def RapsOp.onLink : RapsOp → Bool
  | .updateLink .. | .linkIsDown .. | .linkIsUp .. => true
  | _ => false

/-- An operation after `ixgbe_wfs_raps_start`.  The ports change freely as long as the own entry
    is in `S_init`. -/
def OpeningStep (s : Iwa π) (op : RapsOp) (t : Iwa π) : Prop :=
  (op.between s ∨ (op.onLink = true ∧ (s.core.peer s.core.wfsId).fsmState = init)) ∧
    RapsStep s op t

def reported (k : Kmalloc) (p : Port) (up : Bool) (s : Iwa π) : Iwa π :=
  let s := { s with link := Function.update s.link p up }
  if up then (ixgbeWatchdogLinkIsUp k p s).1 else (ixgbeWatchdogLinkIsDown k p s).1

/-- A change of a port with its report and the run of the queue that follows. -/
def ChangeStep (s : Iwa π) (p : Port) (up : Bool) (k : Kmalloc) (mid : List RapsOp)
    (t : Iwa π) : Prop :=
  s.link p = !up ∧ ∃ s' fib, Run BetweenStep (reported k p up s) mid s' ∧
    wfsFsmRun (fun _ => s'.link) s' = .ok (t, fib)

def PortStep (x : Ported π) : PortInput → Ported π → Prop
  | .change p up k mid, y => ChangeStep x.iwa p up k mid y.iwa ∧
      y.last = workingPort y.iwa.link x.last ∧
      y.failed = if up then x.failed && !x.iwa.link p.other else true
  | .other op, y => BetweenStep x.iwa op y.iwa ∧ y.last = x.last ∧ y.failed = x.failed

def reportEvent (up : Bool) : WfsFsmEvent := if up then .clearLocalSF else .localSF

/-- There are buffers for the event `e` of the stations `ids`. -/
def Buffered (k : Kmalloc) (e : WfsFsmEvent) (ids : List WfsId) (core : RapsCore) (pool : π) :
    Prop :=
  ((requestedOf core wfsidAll e {} ids).foldlM
    (fun pool eb => EventStore.enqueue pool (k eb.wfsid) eb) pool).isSome

instance (k : Kmalloc) (e : WfsFsmEvent) (ids : List WfsId) (core : RapsCore) (pool : π) :
    Decidable (Buffered k e ids core pool) :=
  inferInstanceAs (Decidable (_ = true))

/-- There are buffers for the event of a report up to the own station.  The queueing goes
    through the stations in order and ends with the first refusal. -/
def OwnBuffered (k : Kmalloc) (up : Bool) (s : Iwa π) : Prop :=
  Buffered k (reportEvent up) (wfsIds.filter (· ≤ s.core.wfsId)) s.core s.pool

instance (k : Kmalloc) (up : Bool) (s : Iwa π) : Decidable (OwnBuffered k up s) :=
  inferInstanceAs (Decidable (Buffered ..))

end Steps

/-! ## What is promised -/

/-- The own entry names a working port, the primary one if both work, and `RAPS_CTRL_SF` is
    set exactly when a port has gone down since both were last up. -/
structure NamesWorkingPort {π : Type} (x : Ported π) : Prop where
  one : ∀ p, x.iwa.link p = true → x.iwa.link p.other = false →
    x.iwa.core.own.state = stateOf p
  both : (∀ p, x.iwa.link p = true) → x.iwa.core.own.state = idle
  sf : x.iwa.core.own.sf = x.failed

/-- A port that comes up alone is the one that worked last; and for the other changes there
    are buffers up to the own station, or they change nothing it has to know. -/
def PortInput.Followed {π : Type} [EventStore π] (x : Ported π) : PortInput → Prop
  | .change p true k _ =>
    if x.iwa.link p.other then OwnBuffered k true x.iwa ∨ (x.failed = false ∧ p = .secondary)
    else p = x.last
  | .change p false k _ =>
    OwnBuffered k false x.iwa ∨ (x.iwa.link p.other = false ∧ x.failed = true)
  | .other _ => True

/-! ## A report and the run after it -/

theorem reportEvent_cases (up : Bool) :
    reportEvent up = .localSF ∨ reportEvent up = .clearLocalSF := by
  cases up
  · exact .inl rfl
  · exact .inr rfl

variable {s : Iwa EvQueue} {p : Port} {up : Bool} {op : RapsOp} {k : Kmalloc}

theorem setEventLoop_reaches (k : Kmalloc) {e : WfsFsmEvent} {own : WfsId} {ids : List WfsId}
    (hids : ids.Pairwise (· < ·)) (hadm : s.core.admits e own = true)
    (hno : ∀ eb ∈ s.pool.pending, eb.wfsid ≠ own) :
    (∃ eb ∈ (setEventLoop k wfsidAll e {} ids s).1.pool.pending, eb.wfsid = own) ↔
      own ∈ ids ∧ Buffered k e (ids.filter (· ≤ own)) s.core s.pool := by
  induction ids generalizing s with
  | nil =>
    refine iff_of_false ?_ fun h => absurd h.1 List.not_mem_nil
    rintro ⟨eb, hmem, heb⟩
    exact hno eb hmem heb
  | cons id ids ih =>
    obtain ⟨hlt, hids⟩ := List.pairwise_cons.mp hids
    -- a station behind `id` is reached only if `id` is passed
    have hle (hmem : own ∈ id :: ids) : id ≤ own := by
      rcases List.mem_cons.mp hmem with rfl | hmem
      · exact le_rfl
      · exact le_of_lt (hlt own hmem)
    rw [setEventLoop, if_neg (by simp)]
    by_cases hid : s.core.admits e id = true
    · have hvalid : ¬(!validEntry (s.core.peer id).fsmState e (id = s.core.wfsId)) = true := by
        rw [Bool.not_eq_true', Bool.not_eq_false]
        exact hid
      rw [if_neg hvalid]
      have hbuffered (h : id ≤ own) : Buffered k e ((id :: ids).filter (· ≤ own)) s.core s.pool ↔
          (((s.pool.enqueue (k id) ⟨id, e, {}⟩).bind fun q =>
            (requestedOf s.core wfsidAll e {} (ids.filter (· ≤ own))).foldlM
              (fun pool eb => EventStore.enqueue pool (k eb.wfsid) eb) q)).isSome := by
        rw [Buffered, List.filter_cons_of_pos (by simpa using h), requestedOf,
          List.filter_cons_of_pos (by simp [Addresses, hid]), List.map_cons, List.foldlM_cons]
        rfl
      simp only [EventStore.enqueue]
      cases henq : s.pool.enqueue (k id) ⟨id, e, {}⟩ with
      | none =>
        refine iff_of_false (fun h => h.elim fun eb heb => hno eb heb.1 heb.2) ?_
        rintro ⟨hmem, hb⟩
        rw [hbuffered (hle hmem), henq] at hb
        cases hb
      | some q =>
        have hq := (EvQueue.enqueue_spec henq).pending
        by_cases heq : id = own
        · subst heq
          obtain ⟨evs, pool, hloop, happ, -⟩ := setEventLoop_spec k wfsidAll e {} ids
            ({ s with pool := q }.setFlag { s.core.ctrl.flag with fsmEvent := true })
          have hrest : ids.filter (· ≤ id) = [] :=
            List.filter_eq_nil_iff.mpr fun j hj => by simpa using hlt j hj
          have hpending : pool.pending = q.pending ++ evs := happ.pending
          refine iff_of_true ⟨⟨id, e, {}⟩, ?_, rfl⟩ ⟨List.mem_cons_self, ?_⟩
          · rw [hloop]
            show _ ∈ pool.pending
            rw [hpending, hq]
            simp
          · rw [hbuffered le_rfl, henq, hrest]
            rfl
        · have hno' : ∀ eb ∈ q.pending, eb.wfsid ≠ own := by
            intro eb hmem
            rw [hq, List.mem_append, List.mem_singleton] at hmem
            rcases hmem with hmem | rfl
            · exact hno eb hmem
            · exact heq
          have hrest := ih hids (s := { s with pool := q }.setFlag
            { s.core.ctrl.flag with fsmEvent := true }) hadm hno'
          rw [hrest]
          constructor
          · rintro ⟨hmem, hb⟩
            have hmem' := List.mem_cons_of_mem id hmem
            refine ⟨hmem', ?_⟩
            rw [hbuffered (hle hmem'), henq]
            exact hb
          · rintro ⟨hmem, hb⟩
            rw [hbuffered (hle hmem), henq] at hb
            exact ⟨(List.mem_cons.mp hmem).resolve_left (Ne.symm heq), hb⟩
    · have hvalid : (!validEntry (s.core.peer id).fsmState e (id = s.core.wfsId)) = true := by
        rw [Bool.not_eq_true', ← Bool.not_eq_true]
        exact hid
      have hne : own ≠ id := fun h => hid (h ▸ hadm)
      have hsame : Buffered k e ((id :: ids).filter (· ≤ own)) s.core s.pool ↔
          Buffered k e (ids.filter (· ≤ own)) s.core s.pool := by
        rw [List.filter_cons]
        split
        · rw [Buffered, Buffered, requestedOf, List.filter_cons_of_neg (by simp [hid])]
          rfl
        · rfl
      rw [if_pos hvalid, ih hids hadm hno, hsame, List.mem_cons, or_iff_right hne]

def OwnQueued (k : Kmalloc) (p : Port) (up : Bool) (s : Iwa EvQueue) : Prop :=
  ∃ eb ∈ (reported k p up s).pool.pending, eb.wfsid = s.core.wfsId

theorem ownQueued_iff (k : Kmalloc) (hopened : s.state = .opened) (hout : s.core.own.state ≠ init)
    (hno : ¬s.OwnPending) (ho : up = true → s.link p.other = true) :
    OwnQueued k p up s ↔ OwnBuffered k up s := by
  have hadm : s.core.admits (reportEvent up) s.core.wfsId = true := by
    have hstate : (s.core.peer s.core.wfsId).fsmState ≠ init := hout
    rw [RapsCore.admits, decide_eq_true rfl]
    cases up <;> cases hs : (s.core.peer s.core.wfsId).fsmState <;>
      simp [reportEvent, validEntry, fsm, hs] at hstate ⊢
  have hreaches {s₁ : Iwa EvQueue} (hcore : s₁.core = s.core) (hpool : s₁.pool = s.pool)
      (hstate : s₁.state = .opened) :
      (∃ eb ∈ (ixgbeWfsFsmSetEvent k wfsidAll (reportEvent up) {} s₁).1.pool.pending,
        eb.wfsid = s.core.wfsId) ↔ OwnBuffered k up s := by
    have hids : wfsIds.Pairwise (· < ·) := List.pairwise_lt_finRange 8
    have hno' : ∀ eb ∈ s₁.pool.pending, eb.wfsid ≠ s.core.wfsId := by
      rw [hpool]
      exact fun eb hmem heb => hno ⟨eb, hmem, heb⟩
    rw [ixgbeWfsFsmSetEvent, if_neg (not_not.mpr hstate),
      setEventLoop_reaches k hids (hcore ▸ hadm) hno', hcore, hpool]
    exact and_iff_right (mem_wfsIds _)
  cases up with
  | false =>
    rw [OwnQueued, reported, if_neg (by decide), ixgbeWatchdogLinkIsDown]
    refine hreaches ?_ ?_ ?_ <;> split <;> first | rfl | exact hopened
  | true =>
    have hother : Function.update s.link p true p.other = true := by
      rw [Function.update_of_ne p.other_ne, ho rfl]
    rw [OwnQueued, reported, if_pos rfl, ixgbeWatchdogLinkIsUp]
    cases s.linkUp with
    | true =>
      simp only [Bool.not_true, Bool.false_eq_true, if_false, hother, if_true]
      exact hreaches rfl rfl hopened
    | false =>
      simp only [Bool.not_false, hother, if_true]
      exact hreaches rfl rfl hopened

structure Reported (p : Port) (up : Bool) (s t : Iwa EvQueue) : Prop where
  station : StationOk t
  state : t.state = s.state
  link : t.link = Function.update s.link p up
  wfsId : t.core.wfsId = s.core.wfsId
  own : t.core.own = s.core.own
  pending : ∃ evs, t.pool.pending = s.pool.pending ++ evs ∧
    (∀ eb ∈ evs, eb.event = reportEvent up) ∧ (up = true → s.link p.other = false → evs = [])

open RapsOp

theorem Reported.of_quiet {t : Iwa EvQueue} (h : StationOk s)
    (hstep : RapsStep { s with link := Function.update s.link p up } op t) 
    (hq : op.quiet = true) (hw : op.waits = true)
    (hcontrol : op.control ⟨s.state, s.rapsTimer, Function.update s.link p up⟩ =
      ⟨s.state, s.rapsTimer, Function.update s.link p up⟩)
    (hreq : ∀ eb ∈ op.requests { s with link := Function.update s.link p up },
      eb.event = reportEvent up ∧ (up = true → s.link p.other = true)) : Reported p up s t := by
  obtain ⟨-, eff, hok⟩ := id hstep
  have hctl := (step_control hok).trans hcontrol
  have hwait := step_waited hw hok
  have hlink : RapsStep s (.updateLink p up) { s with link := Function.update s.link p up } :=
    ⟨trivial, {}, rfl⟩
  obtain ⟨evs, happ, hpre, -⟩ := (step_quiet hq hok).queued
  refine ⟨(h.of_step hlink).of_step hstep, congrArg Control.state hctl, congrArg Control.link hctl,
    hwait.wfsId, ?_, evs, happ.pending, fun eb hmem => (hreq eb (hpre.subset hmem)).1, ?_⟩
  · rw [RapsCore.own, hwait.wfsId, hwait.fsmState, step_sf hw hok]
    rfl
  · intro hpup hdown
    refine List.eq_nil_iff_forall_not_mem.mpr fun eb hmem => ?_
    have hother := (hreq eb (hpre.subset hmem)).2 hpup
    rw [hdown] at hother
    cases hother

theorem reported_spec (h : StationOk s) (k : Kmalloc) (p : Port) (up : Bool) :
    Reported p up s (reported k p up s) := by
  cases up with
  | true =>
    have hstep : RapsStep { s with link := Function.update s.link p true } (.linkIsUp k p)
        (reported k p true s) := ⟨trivial, _, rfl⟩
    refine .of_quiet h hstep rfl rfl rfl ?_
    intro eb hmem
    simp only [requests, Function.update_of_ne p.other_ne] at hmem
    split at hmem
    · next hother =>
      obtain ⟨-, -, -, heb⟩ := mem_requested.mp hmem
      exact ⟨congrArg EventRec.event heb, fun _ => hother⟩
    · exact absurd hmem List.not_mem_nil
  | false =>
    have hstep : RapsStep { s with link := Function.update s.link p false } (.linkIsDown k p)
        (reported k p false s) := ⟨trivial, _, rfl⟩
    refine .of_quiet h hstep rfl rfl ?_ ?_
    · simp only [RapsOp.control, Function.update_idem]
    · intro eb hmem
      obtain ⟨-, -, -, heb⟩ := mem_requested.mp hmem
      exact ⟨congrArg EventRec.event heb, fun hup => by cases hup⟩

structure Changed (k : Kmalloc) (p : Port) (up : Bool) (s t : Iwa EvQueue) : Prop where
  station : StationOk t
  state : t.state = s.state
  link : t.link = Function.update s.link p up
  wfsId : t.core.wfsId = s.core.wfsId
  drained : ¬t.OwnPending
  queued : OwnQueued k p up s →
    t.core.own = ownNext (Function.update s.link p up) s.core.own (reportEvent up)
  refused : ¬OwnQueued k p up s → t.core.own = s.core.own
  alone : up = true → s.link p.other = false → ¬OwnQueued k p up s

theorem ChangeStep.changed {t : Iwa EvQueue} {mid : List RapsOp} (h : StationOk s)
    (hdrained : ¬s.OwnPending) (hstep : ChangeStep s p up k mid t) : Changed k p up s t := by
  obtain ⟨-, s', fib, hmid, hrun⟩ := hstep
  have hrep := reported_spec h k p up
  have hbetween := between_of_run hrep.station hmid
  obtain ⟨hok, hstate, hlink, hid, hown, hempty⟩ := wfsFsmRun_own hbetween.station hrun
  obtain ⟨evs, hpending, hevs, halone⟩ := hrep.pending
  have hqueued : OwnQueued k p up s ↔ ∃ eb ∈ evs, eb.wfsid = s.core.wfsId := by
    rw [OwnQueued, hpending]
    constructor
    · rintro ⟨eb, hmem, heb⟩
      rcases List.mem_append.mp hmem with hold | hnew
      · exact absurd ⟨eb, hold, heb⟩ hdrained
      · exact ⟨eb, hnew, heb⟩
    · rintro ⟨eb, hmem, heb⟩
      exact ⟨eb, List.mem_append_right _ hmem, heb⟩
  -- what was pending before the report belongs to other stations
  have hsettled : t.core.own =
      ownAfter s.core.wfsId (Function.update s.link p up) evs s.core.own := by
    rw [hown, hbetween.settled, Iwa.settled, hrep.wfsId, hrep.link, hrep.own, hpending,
      ownAfter_append, ownAfter_other fun eb hmem heb => hdrained ⟨eb, hmem, heb⟩]
  refine ⟨hok, hstate.trans (hbetween.state.trans hrep.state),
    hlink.trans (hbetween.link.trans hrep.link), hid.trans (hbetween.wfsId.trans hrep.wfsId),
    ?_, ?_, ?_, ?_⟩
  · rintro ⟨eb, hmem, -⟩
    rw [hempty] at hmem
    exact absurd hmem List.not_mem_nil
  · intro hq
    exact hsettled.trans (ownAfter_same (reportEvent_cases up) hevs (hqueued.mp hq) _)
  · intro hq
    rw [hsettled]
    exact ownAfter_other (fun eb hmem heb => hq (hqueued.mpr ⟨eb, hmem, heb⟩)) _
  · intro hup hdown hq
    obtain ⟨eb, hmem, -⟩ := hqueued.mp hq
    rw [halone hup hdown] at hmem
    exact absurd hmem List.not_mem_nil

/-! ## Opening -/

/-- The own station has been discovered, or nothing but its discovery is pending. -/
structure Opening (s : Iwa EvQueue) : Prop where
  station : StationOk s
  opened : s.state = .opened
  fresh : s.core.own = ⟨init, false⟩ ∧
      (∀ eb ∈ s.pool.pending, eb.wfsid = s.core.wfsId → eb.event = .discover) ∨
    s.core.own = ⟨idle, false⟩ ∧ ¬s.OwnPending

theorem settled_of_discover (hown : s.core.own = ⟨init, false⟩)
    (hev : ∀ eb ∈ s.pool.pending, eb.wfsid = s.core.wfsId → eb.event = .discover) :
    s.settled = ⟨init, false⟩ ∨ s.settled = ⟨idle, false⟩ := by
  rw [Iwa.settled, hown]
  generalize s.pool.pending = l at hev
  have hidle (l : List EventRec)
      (hev : ∀ eb ∈ l, eb.wfsid = s.core.wfsId → eb.event = .discover) :
      ownAfter s.core.wfsId s.link l ⟨idle, false⟩ = ⟨idle, false⟩ := by
    unfold ownAfter
    induction l with
    | nil => rfl
    | cons eb l ih =>
      have hrest := ih fun eb' h' => hev eb' (by simp [h'])
      rw [List.foldl_cons]
      split
      · next hid =>
        rw [hev eb (by simp) hid]
        exact hrest
      · exact hrest
  induction l with
  | nil => exact .inl rfl
  | cons eb l ih =>
    have hl : ∀ eb' ∈ l, eb'.wfsid = s.core.wfsId → eb'.event = .discover :=
      fun eb' h' => hev eb' (by simp [h'])
    unfold ownAfter at ih hidle ⊢
    rw [List.foldl_cons]
    split
    · next hid =>
      rw [hev eb (by simp) hid]
      exact .inr (hidle l hl)
    · exact ih hl

theorem requests_onLink (hop : op.onLink = true)
    (hinit : (s.core.peer s.core.wfsId).fsmState = init) {eb : EventRec} (h : eb ∈ op.requests s) :
    eb.wfsid ≠ s.core.wfsId := by
  intro hid
  have hno {e : WfsFsmEvent} (he : e = .localSF ∨ e = .clearLocalSF)
      (hreq : eb ∈ requested s wfsidAll e {}) : False := by
    have hadm := (mem_requested.mp hreq).2.2.1
    rw [RapsCore.admits, hid, hinit] at hadm
    rcases he with rfl | rfl <;> simp [validEntry, fsm] at hadm
  cases op with
  | updateLink => exact absurd h List.not_mem_nil
  | linkIsDown k p => exact hno (.inl rfl) h
  | linkIsUp k p =>
    simp only [requests] at h
    split at h
    · exact hno (.inr rfl) h
    · exact absurd h List.not_mem_nil
  | setEvent | announce | raps | fsmEvent | timers | peerTtl | misc | openPorts | rapsStart
  | rapsStop | closePorts => cases hop

theorem Opening.of_between {t : Iwa EvQueue} (h : Opening s) (hb : Between s t) : Opening t := by
  refine ⟨hb.station, hb.state.trans h.opened, ?_⟩
  by_cases hp : t.OwnPending
  · obtain ⟨eb, hmem, heb⟩ := id hp
    obtain ⟨hmem', hown⟩ := hb.pending eb hmem heb
    rcases h.fresh with ⟨hinit, hev⟩ | ⟨-, hno⟩
    · refine .inl ⟨hown.trans hinit, fun eb' h' hid' => ?_⟩
      exact hev eb' (hb.pending eb' h' hid').1 (hid'.trans hb.wfsId)
    · exact absurd ⟨eb, hmem', heb.trans hb.wfsId⟩ hno
  · have hsettled : t.core.own = s.settled :=
      (ownAfter_other (fun eb hmem heb => hp ⟨eb, hmem, heb⟩) _).symm.trans hb.settled
    have hnone : ∀ eb ∈ t.pool.pending, eb.wfsid = t.core.wfsId → eb.event = .discover :=
      fun eb hmem heb => absurd ⟨eb, hmem, heb⟩ hp
    rcases h.fresh with ⟨hinit, hev⟩ | ⟨hidle, hno⟩
    · rcases settled_of_discover hinit hev with hs | hs
      · exact .inl ⟨hsettled.trans hs, hnone⟩
      · exact .inr ⟨hsettled.trans hs, hp⟩
    · refine .inr ⟨hsettled.trans ?_, hp⟩
      exact (ownAfter_other (fun eb hmem heb => hno ⟨eb, hmem, heb⟩) _).trans hidle

theorem Opening.of_step {t : Iwa EvQueue} (h : Opening s) (hstep : OpeningStep s op t) :
    Opening t := by
  obtain ⟨hop | ⟨hop, hinit⟩, hraps⟩ := hstep
  · exact h.of_between (BetweenStep.between h.station ⟨hop, hraps⟩)
  · obtain ⟨-, eff, hok⟩ := id hraps
    have hq : op.quiet = true ∧ op.waits = true := by
      cases op <;> simp [onLink] at hop <;> exact ⟨rfl, rfl⟩
    have hwait := step_waited hq.2 hok
    obtain ⟨evs, happ, hpre, -⟩ := (step_quiet hq.1 hok).queued
    have hown : t.core.own = s.core.own := by
      rw [RapsCore.own, hwait.wfsId, hwait.fsmState, step_sf hq.2 hok]
      rfl
    have hstate : t.state = s.state := by
      refine (congrArg Control.state (step_control hok)).trans ?_
      cases op <;> first | rfl | cases hop
    refine ⟨h.station.of_step hraps, hstate.trans h.opened, .inl ?_⟩
    rcases h.fresh with ⟨hfresh, hev⟩ | ⟨hidle, -⟩
    · refine ⟨hown.trans hfresh, fun eb hmem heb => ?_⟩
      rw [hwait.wfsId] at heb
      rw [happ.pending, List.mem_append] at hmem
      exact hmem.elim (fun hold => hev eb hold heb)
        fun hnew => absurd heb (requests_onLink hop hinit (hpre.subset hnew))
    · have hstate := congrArg OwnState.state hidle
      rw [RapsCore.own, hinit] at hstate
      cases hstate

theorem opening_rapsStart {t : Iwa EvQueue} {ip : UInt32} (h : RapsStep s (.rapsStart k ip) t) :
    Opening t := by
  obtain ⟨⟨hopened, -⟩, eff, hok⟩ := h
  simp only [step, Except.ok.injEq, Prod.mk.injEq] at hok
  obtain ⟨evs, pool, heq, happ, hevs⟩ := ixgbeWfsRapsStart_spec k ip s
  rw [← hok.1]
  refine ⟨stationOk_rapsStart k ip s, by rw [heq]; exact hopened, .inl ?_⟩
  rw [heq]
  refine ⟨?_, fun eb hmem _ => ?_⟩
  · simp [RapsCore.own, Iwa.queued, Iwa.setFlag, Iwa.setCtrl, RapsCore.started, localPeer]
  · have hmem' : eb ∈ pool.pending := hmem
    rw [happ.pending, List.nil_append] at hmem'
    rw [hevs eb hmem']

/-! ## Following the ports -/

/-- The own entry names the port that worked last, and knows whether a port has failed. -/
structure PortInv (x : Ported EvQueue) : Prop where
  station : StationOk x.iwa
  opened : x.iwa.state = .opened
  drained : ¬x.iwa.OwnPending
  own : x.iwa.core.own = ⟨stateOf x.last, x.failed⟩
  working : workingPort x.iwa.link x.last = x.last
  recovered : (∀ p, x.iwa.link p = true) → x.failed = false

theorem stateOf_inj {q : Port} : stateOf p = stateOf q ↔ p = q := by
  cases p <;> cases q <;> simp [stateOf]

theorem PortInv.names {x : Ported EvQueue} (h : PortInv x) : NamesWorkingPort x := by
  have hworking := h.working
  refine ⟨fun p hup hdown => ?_, fun hboth => ?_, congrArg OwnState.sf h.own⟩
  · rw [h.own]
    cases p
    · rw [← hworking, workingPort, if_pos hup]
    · rw [← hworking, workingPort, if_neg (by simpa [Port.other] using hdown), if_pos hup]
  · rw [h.own, ← hworking, workingPort, if_pos (hboth .primary)]
    rfl

section Ports

variable {link : Port → Bool} {last p : Port}

theorem workingPort_both (h : ∀ p, link p = true) : workingPort link last = .primary := by
  rw [workingPort, if_pos (h .primary)]

theorem workingPort_alone (hp : link p = true) (ho : link p.other = false) :
    workingPort link last = p := by
  cases p <;> simp only [Port.other] at ho <;> simp [workingPort, hp, ho]

theorem workingPort_none (hp : link p = false) (ho : link p.other = false) :
    workingPort link last = last := by
  cases p <;> simp only [Port.other] at ho <;> simp [workingPort, hp, ho]

theorem workingPort_idem : workingPort link (workingPort link last) = workingPort link last := by
  unfold workingPort
  split
  · rfl
  · split <;> rfl

theorem forall_port_iff (p : Port) :
    (∀ q, link q = true) ↔ link p = true ∧ link p.other = true := by
  constructor
  · exact fun h => ⟨h p, h p.other⟩
  · rintro ⟨hp, ho⟩ q
    rcases Port.eq_or_eq_other p q with rfl | rfl
    · exact hp
    · exact ho

theorem ownNext_both (h : ∀ p, link p = true) (failed : Bool) :
    ownNext link ⟨stateOf last, failed⟩ .clearLocalSF = ⟨idle, false⟩ := by
  cases last <;> simp [ownNext, stateOf, h]

theorem ownNext_alone (hp : link p = true) (ho : link p.other = false) (failed : Bool) :
    ownNext link ⟨stateOf last, failed⟩ .localSF = ⟨stateOf p, true⟩ := by
  cases p <;> simp only [Port.other] at ho <;> cases last <;> simp [ownNext, stateOf, hp, ho]

theorem ownNext_none (hp : link p = false) (ho : link p.other = false) (failed : Bool) :
    ownNext link ⟨stateOf last, failed⟩ .localSF = ⟨stateOf last, true⟩ := by
  cases p <;> simp only [Port.other] at ho <;> cases last <;> simp [ownNext, stateOf, hp, ho]

end Ports

theorem NamesWorkingPort.own {π : Type} {x : Ported π} (h : NamesWorkingPort x) {last p : Port}
    (hlast : x.last = workingPort x.iwa.link last) (hp : x.iwa.link p = true) :
    x.iwa.core.own = ⟨stateOf x.last, x.failed⟩ := by
  have hstate : x.iwa.core.own.state = stateOf x.last := by
    cases ho : x.iwa.link p.other with
    | true =>
      have hboth := (forall_port_iff p).mpr ⟨hp, ho⟩
      rw [h.both hboth, hlast, workingPort_both hboth]
      rfl
    | false => rw [h.one p hp ho, hlast, workingPort_alone hp ho]
  rw [← hstate, ← h.sf]

section Change

variable {x y : Ported EvQueue} {p : Port} {k : Kmalloc} {mid : List RapsOp} {up : Bool}

theorem PortInv.ownQueued_iff (h : PortInv x) (k : Kmalloc)
    (ho : up = true → x.iwa.link p.other = true) :
    OwnQueued k p up x.iwa ↔ OwnBuffered k up x.iwa := by
  refine Wfs.ownQueued_iff k h.opened ?_ h.drained ho
  rw [h.own]
  show stateOf x.last ≠ init
  cases x.last <;> decide

theorem PortInv.recover (h : PortInv x) (hstep : PortStep x (.change p true k mid) y)
    (ho : x.iwa.link p.other = true) :
    y.iwa.core.own = ⟨stateOf y.last, y.failed⟩ ↔
      OwnBuffered k true x.iwa ∨ (x.failed = false ∧ p = .secondary) := by
  rw [← h.ownQueued_iff k fun _ => ho]
  obtain ⟨hchange, hlast, hfailed⟩ := hstep
  have hc := hchange.changed h.station h.drained
  have hboth : ∀ q, Function.update x.iwa.link p true q = true :=
    (forall_port_iff p).mpr ⟨Function.update_self .., by
      rw [Function.update_of_ne p.other_ne, ho]⟩
  have hlast' : x.last = p.other := by
    rw [← h.working]
    refine workingPort_alone ho ?_
    rw [Port.other_other]
    exact hchange.1
  rw [hlast, hc.link, workingPort_both hboth, hfailed, if_pos rfl, ho, Bool.not_true,
    Bool.and_false]
  by_cases hq : OwnQueued k p true x.iwa
  · refine iff_of_true ?_ (.inl hq)
    rw [hc.queued hq, h.own]
    exact ownNext_both hboth _
  · rw [hc.refused hq, h.own, hlast', OwnState.mk.injEq, stateOf_inj]
    constructor
    · rintro ⟨hp, hf⟩
      refine .inr ⟨hf, ?_⟩
      rw [← Port.other_other p, hp]
      rfl
    · rintro (hq' | ⟨hf, rfl⟩)
      · exact absurd hq' hq
      · exact ⟨rfl, hf⟩

theorem PortInv.comeUp (h : PortInv x) (hstep : PortStep x (.change p true k mid) y)
    (ho : x.iwa.link p.other = false) :
    y.iwa.core.own = ⟨stateOf y.last, y.failed⟩ ↔ p = x.last := by
  obtain ⟨hchange, hlast, hfailed⟩ := hstep
  have hc := hchange.changed h.station h.drained
  have halone : workingPort (Function.update x.iwa.link p true) x.last = p :=
    workingPort_alone (Function.update_self ..) (by rw [Function.update_of_ne p.other_ne, ho])
  rw [hc.refused (hc.alone rfl ho), h.own, hlast, hc.link, halone, hfailed, if_pos rfl, ho,
    Bool.not_false, Bool.and_true, OwnState.mk.injEq, stateOf_inj]
  exact ⟨fun hp => hp.1.symm, fun hp => ⟨hp.symm, rfl⟩⟩

theorem PortInv.failOver (h : PortInv x) (hstep : PortStep x (.change p false k mid) y)
    (ho : x.iwa.link p.other = true) :
    y.iwa.core.own = ⟨stateOf y.last, y.failed⟩ ↔ OwnBuffered k false x.iwa := by
  rw [← h.ownQueued_iff (p := p) k (fun hup => by cases hup)]
  obtain ⟨hchange, hlast, hfailed⟩ := hstep
  have hc := hchange.changed h.station h.drained
  have hdown : Function.update x.iwa.link p false p.other.other = false := by
    rw [Port.other_other, Function.update_self]
  have hother : Function.update x.iwa.link p false p.other = true := by
    rw [Function.update_of_ne p.other_ne, ho]
  rw [hlast, hc.link, workingPort_alone hother hdown, hfailed, if_neg (by decide)]
  by_cases hq : OwnQueued k p false x.iwa
  · refine iff_of_true ?_ hq
    rw [hc.queued hq, h.own]
    exact ownNext_alone hother hdown _
  · -- before, both ports were up, so no failure was known
    refine iff_of_false ?_ hq
    rw [hc.refused hq, h.own, h.recovered ((forall_port_iff p).mpr ⟨hchange.1, ho⟩)]
    exact fun heq => by cases (OwnState.mk.injEq .. ▸ heq).2

theorem PortInv.goDown (h : PortInv x) (hstep : PortStep x (.change p false k mid) y)
    (ho : x.iwa.link p.other = false) :
    y.last = x.last ∧ y.iwa.core.own.state = stateOf x.last ∧
      (y.iwa.core.own.sf = y.failed ↔ OwnBuffered k false x.iwa ∨ x.failed = true) := by
  rw [← h.ownQueued_iff (p := p) k (fun hup => by cases hup)]
  obtain ⟨hchange, hlast, hfailed⟩ := hstep
  have hc := hchange.changed h.station h.drained
  have hdown : Function.update x.iwa.link p false p = false := Function.update_self ..
  have hother : Function.update x.iwa.link p false p.other = false := by
    rw [Function.update_of_ne p.other_ne, ho]
  rw [hlast, hc.link, workingPort_none hdown hother, hfailed, if_neg (by decide)]
  by_cases hq : OwnQueued k p false x.iwa
  · rw [hc.queued hq, h.own, show reportEvent false = .localSF from rfl,
      ownNext_none hdown hother]
    exact ⟨rfl, rfl, iff_of_true rfl (.inl hq)⟩
  · rw [hc.refused hq, h.own]
    exact ⟨rfl, rfl, fun hf => .inr hf, fun hor => hor.resolve_left hq⟩

theorem PortInv.followed_iff (h : PortInv x) (hstep : PortStep x (.change p up k mid) y) :
    y.iwa.core.own = ⟨stateOf y.last, y.failed⟩ ↔ PortInput.Followed x (.change p up k mid) := by
  cases up with
  | true =>
    simp only [PortInput.Followed]
    split
    · next ho => exact h.recover hstep ho
    · next ho => exact h.comeUp hstep (eq_false_of_ne_true ho)
  | false =>
    simp only [PortInput.Followed]
    cases ho : x.iwa.link p.other with
    | true => simpa using h.failOver hstep ho
    | false =>
      obtain ⟨hlast, hstate, hsf⟩ := h.goDown hstep ho
      rw [hlast, ← hstate]
      constructor
      · intro heq
        exact (hsf.mp (congrArg OwnState.sf heq)).imp_right fun hf => ⟨rfl, hf⟩
      · intro hor
        have hboth := hsf.mpr (hor.imp_right And.right)
        rw [← hboth]

/-- **One change.** The invariant is kept if it is followed, and it is followed if the own
    entry is right afterwards. -/
theorem PortInv.change (h : PortInv x) (hstep : PortStep x (.change p up k mid) y) :
    (PortInput.Followed x (.change p up k mid) → PortInv y) ∧
      (NamesWorkingPort y → PortInput.Followed x (.change p up k mid)) := by
  have hiff := h.followed_iff hstep
  obtain ⟨hchange, hlast, hfailed⟩ := id hstep
  have hc := hchange.changed h.station h.drained
  constructor
  · intro hf
    refine ⟨hc.station, hc.state.trans h.opened, hc.drained, hiff.mpr hf, ?_, fun hboth => ?_⟩
    · rw [hlast, workingPort_idem]
    · cases up with
      | true =>
        have ho := hboth p.other
        rw [hc.link, Function.update_of_ne p.other_ne] at ho
        rw [hfailed, if_pos rfl, ho, Bool.not_true, Bool.and_false]
      | false =>
        have hp := hboth p
        rw [hc.link, Function.update_self] at hp
        cases hp
  · intro hnames
    refine hiff.mp ?_
    cases hup : y.iwa.link p with
    | true => exact hnames.own hlast hup
    | false =>
      cases ho : y.iwa.link p.other with
      | true => exact hnames.own hlast ho
      | false =>
        -- both ports are down, and only the flag tells anything
        rw [hc.link, Function.update_self] at hup
        rw [hc.link, Function.update_of_ne p.other_ne] at ho
        subst hup
        obtain ⟨hlast', hstate, -⟩ := h.goDown hstep ho
        rw [hlast', ← hstate, ← hnames.sf]

end Change

theorem PortInv.of_step {x y : Ported EvQueue} {op : PortInput} (h : PortInv x)
    (hstep : PortStep x op y) :
    (op.Followed x → PortInv y) ∧ (NamesWorkingPort y → op.Followed x) := by
  cases op with
  | change p up k mid => exact h.change hstep
  | other op =>
    obtain ⟨hbetween, hlast, hfailed⟩ := hstep
    have hb := hbetween.between h.station
    refine ⟨fun _ => ?_, fun _ => trivial⟩
    have hdrained : ¬y.iwa.OwnPending := by
      rintro ⟨eb, hmem, heb⟩
      exact h.drained ⟨eb, (hb.pending eb hmem heb).1, heb.trans hb.wfsId⟩
    refine ⟨hb.station, hb.state.trans h.opened, hdrained, ?_, ?_, ?_⟩
    · have hx : x.iwa.settled = x.iwa.core.own :=
        ownAfter_other (fun eb hmem heb => h.drained ⟨eb, hmem, heb⟩) _
      have hy : y.iwa.settled = y.iwa.core.own :=
        ownAfter_other (fun eb hmem heb => hdrained ⟨eb, hmem, heb⟩) _
      rw [← hy, hb.settled, hx, h.own, hlast, hfailed]
    · rw [hlast, hb.link]
      exact h.working
    · rw [hfailed, hb.link]
      exact h.recovered

variable {s : Iwa EvQueue}

theorem portInv_of_opening (h : Opening s) (hout : s.core.own.state ≠ init)
    (hport : ¬(s.link .primary = false ∧ s.link .secondary = true)) :
    PortInv ⟨s, .primary, false⟩ := by
  rcases h.fresh with ⟨hinit, -⟩ | ⟨hidle, hdrained⟩
  · exact absurd (congrArg OwnState.state hinit) hout
  · refine ⟨h.station, h.opened, hdrained, hidle, ?_, fun _ => rfl⟩
    show workingPort s.link .primary = .primary
    unfold workingPort
    split
    · rfl
    · next hp => rw [if_neg fun hsec => hport ⟨eq_false_of_ne_true hp, hsec⟩]

theorem port_of_names (h : Opening s) (hout : s.core.own.state ≠ init)
    (hnames : NamesWorkingPort ⟨s, .primary, false⟩) :
    ¬(s.link .primary = false ∧ s.link .secondary = true) := by
  rintro ⟨hp, hsec⟩
  have hprotect := hnames.one .secondary hsec hp
  rcases h.fresh with ⟨hinit, -⟩ | ⟨hidle, -⟩
  · exact absurd (congrArg OwnState.state hinit) hout
  · rw [hidle] at hprotect
    cases hprotect

/-! ## Runs -/

section Unique

variable {π : Type} [EventStore π]

theorem ChangeStep.unique {s t t' : Iwa π} {p : Port} {up : Bool} {k : Kmalloc}
    {mid : List RapsOp} (h : ChangeStep s p up k mid t) (h' : ChangeStep s p up k mid t') :
    t = t' := by
  obtain ⟨-, u, fib, hmid, hrun⟩ := h
  obtain ⟨-, u', fib', hmid', hrun'⟩ := h'
  obtain rfl := hmid.unique (fun _ _ _ _ h₁ h₂ => h₁.2.unique h₂.2) hmid'
  exact congrArg Prod.fst (Except.ok.inj (hrun.symm.trans hrun'))

theorem PortStep.unique {x y y' : Ported π} {op : PortInput} (h : PortStep x op y)
    (h' : PortStep x op y') : y = y' := by
  obtain ⟨s, last, failed⟩ := y
  obtain ⟨s', last', failed'⟩ := y'
  cases op with
  | change p up k mid =>
    obtain ⟨hchange, hlast, hfailed⟩ := h
    obtain ⟨hchange', hlast', hfailed'⟩ := h'
    obtain rfl : s = s' := hchange.unique hchange'
    exact congrArg₂ (Ported.mk s) (hlast.trans hlast'.symm) (hfailed.trans hfailed'.symm)
  | other op =>
    obtain ⟨hraps, hlast, hfailed⟩ := h
    obtain ⟨hraps', hlast', hfailed'⟩ := h'
    obtain rfl : s = s' := hraps.2.unique hraps'.2
    exact congrArg₂ (Ported.mk s) (hlast.trans hlast'.symm) (hfailed.trans hfailed'.symm)

end Unique

section Refine

variable {s s' : Iwa EvBufPool} {t : Iwa EvQueue} {k : Kmalloc}

theorem RapsOp.between_rep (op : RapsOp) (h : IwaRep s t) : op.between s ↔ op.between t := by
  cases op <;> simp only [between, h.link_eq]

theorem betweenStep_refines {op : RapsOp} (h : IwaRep s t) (hs : BetweenStep s op s') :
    ∃ t', BetweenStep t op t' ∧ IwaRep s' t' := by
  obtain ⟨t', ht, hrep⟩ := rapsStep_refines h hs.2
  exact ⟨t', ⟨(op.between_rep h).mp hs.1, ht⟩, hrep⟩

theorem openingStep_refines {op : RapsOp} (h : IwaRep s t) (hs : OpeningStep s op s') :
    ∃ t', OpeningStep t op t' ∧ IwaRep s' t' := by
  obtain ⟨t', ht, hrep⟩ := rapsStep_refines h hs.2
  refine ⟨t', ⟨hs.1.imp (op.between_rep h).mp fun hop => ?_, ht⟩, hrep⟩
  rw [h.core_eq]
  exact hop

theorem reported_rep (k : Kmalloc) (p : Port) (up : Bool) (h : IwaRep s t) :
    IwaRep (reported k p up s) (reported k p up t) := by
  have hlink : IwaRep { s with link := Function.update s.link p up }
      { t with link := Function.update t.link p up } := by
    obtain ⟨q, hq, rfl⟩ := h
    exact ⟨q, hq, rfl⟩
  cases up with
  | true => exact (ixgbeWatchdogLinkIsUp_rep k p hlink).1
  | false => exact (ixgbeWatchdogLinkIsDown_rep k p hlink).1

theorem changeStep_refines {p : Port} {up : Bool} {mid : List RapsOp} (h : IwaRep s t)
    (hs : ChangeStep s p up k mid s') : ∃ t', ChangeStep t p up k mid t' ∧ IwaRep s' t' := by
  obtain ⟨hlink, u, fib, hmid, hrun⟩ := hs
  obtain ⟨u', hmid', hrep⟩ := hmid.simulate (U := BetweenStep) (R := IwaRep)
    (fun _ _ _ _ hst hstep => betweenStep_refines hst hstep) (reported_rep k p up h)
  have hout := wfsFsmRun_rep (fun _ => u.link) hrep
  rw [hrun] at hout
  cases hrun' : wfsFsmRun (fun _ => u.link) u' with
  | error f => rw [hrun'] at hout; exact hout.elim
  | ok r =>
    rw [hrun'] at hout
    refine ⟨r.1, ⟨by rw [h.link_eq]; exact hlink, u', r.2, hmid', ?_⟩, hout.1⟩
    rw [hrep.link_eq]
    exact hrun'

theorem buffered_rep {evs : List EventRec} {p : EvBufPool} {q : EvQueue} (h : PoolRep p q) :
    (evs.foldlM (fun pool eb => EventStore.enqueue pool (k eb.wfsid) eb) p).isSome =
      (evs.foldlM (fun pool eb => EventStore.enqueue pool (k eb.wfsid) eb) q).isSome := by
  induction evs generalizing p q with
  | nil => rfl
  | cons eb evs ih =>
    have hrel := h.enqueue (k eb.wfsid) eb
    rw [List.foldlM_cons, List.foldlM_cons]
    simp only [EventStore.enqueue] at ih ⊢
    cases hp : p.enqueue (k eb.wfsid) eb <;> cases hq : q.enqueue (k eb.wfsid) eb <;>
      rw [hp, hq] at hrel
    · rfl
    · cases hrel
    · cases hrel
    · cases hrel with
      | some hpq => exact ih hpq

theorem ownBuffered_iff (h : IwaRep s t) (k : Kmalloc) (up : Bool) :
    OwnBuffered k up s ↔ OwnBuffered k up t := by
  unfold OwnBuffered Buffered
  rw [h.core_eq, buffered_rep h.pool_rep]

end Refine

structure PortedRep (x : Ported EvBufPool) (y : Ported EvQueue) : Prop where
  iwa : IwaRep x.iwa y.iwa
  last : y.last = x.last
  failed : y.failed = x.failed

namespace PortedRep

variable {x : Ported EvBufPool} {y : Ported EvQueue}

theorem step (h : PortedRep x y) {op : PortInput} {x' : Ported EvBufPool}
    (hstep : PortStep x op x') : ∃ y', PortStep y op y' ∧ PortedRep x' y' := by
  cases op with
  | change p up k mid =>
    obtain ⟨hchange, hlast, hfailed⟩ := hstep
    obtain ⟨t, ht, hrep⟩ := changeStep_refines h.iwa hchange
    refine ⟨⟨t, x'.last, x'.failed⟩, ⟨ht, ?_, ?_⟩, hrep, rfl, rfl⟩
    · rw [h.last, hrep.link_eq]
      exact hlast
    · rw [h.failed, h.iwa.link_eq]
      exact hfailed
  | other op =>
    obtain ⟨hbetween, hlast, hfailed⟩ := hstep
    obtain ⟨t, ht, hrep⟩ := betweenStep_refines h.iwa hbetween
    exact ⟨⟨t, x'.last, x'.failed⟩, ⟨ht, hlast.trans h.last.symm, hfailed.trans h.failed.symm⟩,
      hrep, rfl, rfl⟩

theorem names_iff (h : PortedRep x y) : NamesWorkingPort x ↔ NamesWorkingPort y := by
  constructor
  · rintro ⟨hone, hboth, hsf⟩
    exact ⟨by rw [h.iwa.link_eq, h.iwa.core_eq]; exact hone,
      by rw [h.iwa.link_eq, h.iwa.core_eq]; exact hboth,
      by rw [h.failed, h.iwa.core_eq]; exact hsf⟩
  · rintro ⟨hone, hboth, hsf⟩
    rw [h.iwa.link_eq, h.iwa.core_eq] at hone hboth
    rw [h.failed, h.iwa.core_eq] at hsf
    exact ⟨hone, hboth, hsf⟩

theorem followed_iff (h : PortedRep x y) (op : PortInput) : op.Followed x ↔ op.Followed y := by
  cases op with
  | change p up k mid =>
    cases up <;> simp only [PortInput.Followed, ownBuffered_iff h.iwa, h.iwa.link_eq, h.last,
      h.failed]
  | other => exact Iff.rfl

end PortedRep

theorem names_iff_followed {x x' : Ported EvBufPool} {ops : List PortInput}
    (hrun : Run PortStep x ops x') {y : Ported EvQueue} (hrep : PortedRep x y)
    (h : PortInv y) :
    Always PortStep NamesWorkingPort x ops ↔
      Run (Guarded PortStep fun x op => op.Followed x) x ops x' := by
  have hdet : ∀ (x : Ported EvBufPool) op z z', PortStep x op z → PortStep x op z' → z = z' :=
    fun _ _ _ _ h₁ h₂ => h₁.unique h₂
  apply always_iff_guarded (I := fun x => ∃ y, PortedRep x y ∧ PortInv y) hdet ?_ ?_ hrun
    ⟨y, hrep, h⟩
  · rintro x ⟨y, hrep, h⟩
    exact hrep.names_iff.mpr h.names
  · rintro x op z ⟨y, hrep, h⟩ hstep
    obtain ⟨z', hstep', hrep'⟩ := hrep.step hstep
    obtain ⟨hkeep, hneed⟩ := h.of_step hstep'
    rw [hrep.followed_iff op, hrep'.names_iff]
    exact ⟨fun hfollowed => ⟨z', hrep', hkeep hfollowed⟩, hneed⟩

/-- **The own entry.** Let the ports of a discovered station change in any order, each change
    reported and its event executed, among received frames and ticks.  The own entry names a
    working port and `RAPS_CTRL_SF` tells of failures in every state exactly if at the start not
    only the secondary port is up and every change is followed. -/
theorem local_state_names_port_iff {kmalloc : Nat → Bool} {wfsId : WfsId} {macAddr : Mac}
    {wfsPort : Port → Int} {before opening : List RapsOp} {ops : List PortInput}
    {s₀ s₁ s₂ : Iwa EvBufPool} {k : Kmalloc} {ip : UInt32} {y : Ported EvBufPool}
    (h₀ : Run RapsStep (.probed wfsId macAddr wfsPort (EvBufPool.ixgbeWfsFsmInit kmalloc).1)
      before s₀)
    (h₁ : RapsStep s₀ (.rapsStart k ip) s₁) (h₂ : Run OpeningStep s₁ opening s₂)
    (hout : s₂.core.own.state ≠ init) (h₃ : Run PortStep ⟨s₂, .primary, false⟩ ops y) :
    Always PortStep NamesWorkingPort ⟨s₂, .primary, false⟩ ops ↔
      ¬(s₂.link .primary = false ∧ s₂.link .secondary = true) ∧
        Run (Guarded PortStep fun x op => op.Followed x) ⟨s₂, .primary, false⟩ ops y := by
  obtain ⟨q, t₀, -, hrep₀⟩ := iwaRep_of_run h₀
  obtain ⟨t₁, hstart, hrep₁⟩ := rapsStep_refines hrep₀ h₁
  obtain ⟨t₂, hopening, hrep₂⟩ := h₂.simulate (U := OpeningStep) (R := IwaRep)
    (fun _ _ _ _ hst hs => openingStep_refines hst hs) hrep₁
  have hopen : Opening t₂ :=
    hopening.invariant (fun _ _ _ ho hs => ho.of_step hs) (opening_rapsStart hstart)
  have hrep : PortedRep ⟨s₂, .primary, false⟩ ⟨t₂, .primary, false⟩ := ⟨hrep₂, rfl, rfl⟩
  have hout' : t₂.core.own.state ≠ init := by rwa [hrep₂.core_eq]
  rw [← hrep₂.link_eq]
  constructor
  · intro halways
    have hport : ¬(t₂.link .primary = false ∧ t₂.link .secondary = true) :=
      port_of_names hopen hout' (hrep.names_iff.mp (halways [] _ List.nil_prefix (.nil _)))
    exact ⟨hport, (names_iff_followed h₃ hrep (portInv_of_opening hopen hout' hport)).mp halways⟩
  · rintro ⟨hport, hguarded⟩
    exact (names_iff_followed h₃ hrep (portInv_of_opening hopen hout' hport)).mpr hguarded

/-! ## Two failures -/

instance {π : Type} [EventStore π] (x : Ported π) : (op : PortInput) → Decidable (op.Followed x)
  | .change p true k _ => inferInstanceAs (Decidable (if x.iwa.link p.other then
      OwnBuffered k true x.iwa ∨ (x.failed = false ∧ p = .secondary) else p = x.last))
  | .change p false k _ => inferInstanceAs (Decidable
      (OwnBuffered k false x.iwa ∨ (x.iwa.link p.other = false ∧ x.failed = true)))
  | .other _ => inferInstanceAs (Decidable True)

def Ported.next? {π : Type} [EventStore π] (x : Ported π) : PortInput → Option (Ported π)
  | .change p up k [] =>
    if x.iwa.link p = !up then
      let s := reported k p up x.iwa
      match wfsFsmRun (fun _ => s.link) s with
      | .ok (t, _) => some
          ⟨t, workingPort t.link x.last, if up then x.failed && !x.iwa.link p.other else true⟩
      | .error _ => none
    else none
  | _ => none

theorem Ported.next?_sound {π : Type} [EventStore π] (x : Ported π) (op : PortInput)
    (y : Ported π) (h : x.next? op = some y) : PortStep x op y := by
  unfold Ported.next? at h
  split at h
  · next p up k =>
    split at h
    · next hlink =>
      dsimp only at h
      split at h
      · next t fib hrun =>
        cases h
        exact ⟨⟨hlink, _, fib, .nil _, hrun⟩, rfl, rfl⟩
      · cases h
    · cases h
  · cases h

def Iwa.linkUp? {π : Type} [EventStore π] (s : Iwa π) (op : RapsOp) : Option (Iwa π) :=
  if op.onLink = true ∧ (s.core.peer s.core.wfsId).fsmState = init then op.next? s else none

theorem Iwa.linkUp?_sound {π : Type} [EventStore π] (s : Iwa π) (op : RapsOp) (t : Iwa π)
    (h : s.linkUp? op = some t) : OpeningStep s op t := by
  unfold Iwa.linkUp? at h
  split at h
  · next hop => exact ⟨.inr hop, (RapsOp.next?_eq_some_iff _ _ _).mp h⟩
  · cases h

def linksUp : List RapsOp :=
  [.updateLink .primary true, .linkIsUp (fun _ => true) .primary, .updateLink .secondary true,
    .linkIsUp (fun _ => true) .secondary]

def startedStation : Option (Iwa EvBufPool) :=
  (RapsOp.next? stationOne .openPorts).bind fun s₀ =>
    (RapsOp.next? s₀ (.rapsStart (fun _ => true) 0)).bind fun s₁ =>
      (Run.exec Iwa.linkUp? s₁ linksUp).bind fun s =>
        if ∀ p, s.link p = true then RapsOp.next? s (.fsmEvent fun _ _ => true) else none

theorem startedStation_spec {s₂ : Iwa EvBufPool} (h : startedStation = some s₂) :
    ∃ s₀ s₁, Run RapsStep stationOne [.openPorts] s₀ ∧
      RapsStep s₀ (.rapsStart (fun _ => true) 0) s₁ ∧
      Run OpeningStep s₁ (linksUp ++ [.fsmEvent fun _ _ => true]) s₂ := by
  obtain ⟨s₀, h₀, h⟩ := Option.bind_eq_some_iff.mp h
  obtain ⟨s₁, h₁, h⟩ := Option.bind_eq_some_iff.mp h
  obtain ⟨s, hs, h⟩ := Option.bind_eq_some_iff.mp h
  split at h
  · next hup =>
    refine ⟨s₀, s₁, .single ((RapsOp.next?_eq_some_iff _ _ _).mp h₀),
      (RapsOp.next?_eq_some_iff _ _ _).mp h₁,
      (Run.of_exec Iwa.linkUp?_sound hs).append (.single ⟨.inl ?_, ?_⟩)⟩
    · exact funext fun _ => funext fun p => (hup p).symm
    · exact (RapsOp.next?_eq_some_iff _ _ _).mp h
  · cases h

def change (p : Port) (up : Bool) : PortInput := .change p up (fun _ => true) []

def recoverRun : List PortInput :=
  [change .primary false, change .secondary false, change .secondary true, change .primary true]

theorem local_state_names_port_recoverRun :
    ∃ s₂ y, startedStation = some s₂ ∧ Run PortStep ⟨s₂, .primary, false⟩ recoverRun y ∧
      Always PortStep NamesWorkingPort ⟨s₂, .primary, false⟩ recoverRun := by
  have hdone : (startedStation.bind fun s₂ =>
      if s₂.core.own.state ≠ init ∧
          ¬(s₂.link .primary = false ∧ s₂.link .secondary = true) then
        Run.exec (fun x op => if op.Followed x then Ported.next? x op else none)
          ⟨s₂, .primary, false⟩ recoverRun
      else none).isSome = true := by
    decide +kernel
  obtain ⟨y, hy⟩ := Option.isSome_iff_exists.mp hdone
  obtain ⟨s₂, hs₂, hrest⟩ := Option.bind_eq_some_iff.mp hy
  obtain ⟨s₀, s₁, h₀, h₁, h₂⟩ := startedStation_spec hs₂
  split at hrest
  · next hstart =>
    have hguarded : Run (Guarded PortStep fun x op => op.Followed x) ⟨s₂, .primary, false⟩
        recoverRun y := by
      refine Run.of_exec (fun x op z hz => ?_) hrest
      split at hz
      · next hf => exact ⟨hf, Ported.next?_sound _ _ _ hz⟩
      · cases hz
    have hrun := hguarded.mono fun _ _ _ h => h.2
    exact ⟨s₂, y, hs₂, hrun,
      (local_state_names_port_iff h₀ h₁ h₂ hstart.1 hrun).mpr ⟨hstart.2, hguarded⟩⟩
  · cases hrest

def wrongPortRun : List PortInput :=
  [change .primary false, change .secondary false, change .primary true]

/-- No event follows its coming back, so the own entry goes on naming the other port. -/
theorem local_state_of_wrongPortRun :
    ∃ s₀ s₁ s₂ y, Run RapsStep stationOne [.openPorts] s₀ ∧
      RapsStep s₀ (.rapsStart (fun _ => true) 0) s₁ ∧
      Run OpeningStep s₁ (linksUp ++ [.fsmEvent fun _ _ => true]) s₂ ∧
      s₂.core.own.state ≠ init ∧ Run PortStep ⟨s₂, .primary, false⟩ wrongPortRun y ∧
      y.iwa.link .primary = true ∧ y.iwa.link .secondary = false ∧
      y.iwa.core.own.state = protect ∧ ¬NamesWorkingPort y := by
  have hdone : (startedStation.bind fun s₂ =>
      (Run.exec Ported.next? ⟨s₂, .primary, false⟩ wrongPortRun).map fun y =>
        decide (s₂.core.own.state ≠ init ∧ y.iwa.link .primary = true ∧
          y.iwa.link .secondary = false ∧ y.iwa.core.own.state = protect)) = some true := by
    decide +kernel
  obtain ⟨s₂, hs₂, hrest⟩ := Option.bind_eq_some_iff.mp hdone
  obtain ⟨y, hy, hprop⟩ := Option.map_eq_some_iff.mp hrest
  obtain ⟨hout, hpri, hsec, hstate⟩ := of_decide_eq_true hprop
  obtain ⟨s₀, s₁, h₀, h₁, h₂⟩ := startedStation_spec hs₂
  refine ⟨s₀, s₁, s₂, y, h₀, h₁, h₂, hout, Run.of_exec Ported.next?_sound hy, hpri, hsec, hstate,
    fun hnames => ?_⟩
  rw [hnames.one .primary hpri hsec] at hstate
  cases hstate

end VmkDrivers.Wfs
