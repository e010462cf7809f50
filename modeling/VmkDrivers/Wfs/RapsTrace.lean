/-
  VmkDrivers.Wfs.RapsTrace

  What happens to the RAPS timers along a run of a station.

  `timerTrace` lists, in order, the events of the own station that
  `wfs_fsm_run` executes, the ticks of the timers with the messages they
  send, and the restarts.  The three timers are a machine of their own that
  takes these as its steps (`ClockStep`), and every run of a station drives
  it along its trace (`clockRun_of_run`).
-/

import VmkDrivers.Wfs.PeerState
import VmkDrivers.Wfs.RapsClock

namespace VmkDrivers.Wfs

open VmkDrivers.Lib

/-! ## Traces -/

/-- What happens to the timers of `raps_ctrl`. -/
inductive TimerEvent where
  /-- `wfs_fsm_run` executes an event of the own station. -/
  | executed (e : WfsFsmEvent)
  /-- A tick of the timers, with the messages it sends. -/
  | tick (tx : List TxCall)
  /-- `ixgbe_wfs_raps_start` zeroes `raps_ctrl`. -/
  | start
deriving DecidableEq

def TimerEvent.isTick : TimerEvent → Bool
  | .tick _ => true
  | _ => false

def tickCount (l : List TimerEvent) : Nat := l.countP TimerEvent.isTick

/-- The calls of `ixgbe_wfs_send_raps(e)`, tick by tick. -/
def roundsOf (e : WfsFsmEvent) : List TimerEvent → List Nat
  | [] => []
  | .tick tx :: l => tx.count (.raps e) :: roundsOf e l
  | _ :: l => roundsOf e l

/-- What the loop of `wfs_fsm_run` executes on one buffer. -/
def RapsCore.executes (core : RapsCore) (eb : EventRec) : List TimerEvent :=
  if eb.wfsid = core.wfsId ∧ core.accepts eb = true then [.executed eb.event] else []

/-- The body of the loop of `wfs_fsm_run`, with a record of what it executes. -/
def recordBody (view : Nat → Port → Bool) (x : RunState × List TimerEvent) (eb : EventRec) :
    Except Fault (RunState × List TimerEvent) := do
  let r ← runBody view x.1 eb
  pure (r, x.2 ++ x.1.core.executes eb)

section Trace

variable {π : Type} [EventStore π]

def executedEvents (view : Nat → Port → Bool) (s : Iwa π) : List TimerEvent :=
  match EventStore.walk (recordBody view) ({ core := s.core }, []) s.pool with
  | .ok (x, _) => x.2
  | .error _ => []

def RapsOp.timerEvents (s : Iwa π) : RapsOp → List TimerEvent
  | .fsmEvent view => if s.core.ctrl.flag.fsmEvent then executedEvents view s else []
  | .timers => [.tick (rapsTimers s.core.ctrl).2]
  | .rapsStart _ _ => [.start]
  | _ => []

def timerTrace : Iwa π → List RapsOp → List TimerEvent
  | _, [] => []
  | s, op :: ops =>
    match op.next? s with
    | some t => op.timerEvents s ++ timerTrace t ops
    | none => []

theorem timerTrace_cons {s t : Iwa π} {op : RapsOp} (h : RapsStep s op t) (ops : List RapsOp) :
    timerTrace s (op :: ops) = op.timerEvents s ++ timerTrace t ops := by
  simp only [timerTrace, (RapsOp.next?_eq_some_iff s op t).mpr h]

end Trace

theorem tickCount_append (l l' : List TimerEvent) :
    tickCount (l ++ l') = tickCount l + tickCount l' := List.countP_append

@[simp] theorem tickCount_cons (ev : TimerEvent) (l : List TimerEvent) :
    tickCount (ev :: l) = tickCount l + if ev.isTick then 1 else 0 := List.countP_cons

/-! ## The clock -/

def ClockStep (c : RapsCtrl) : TimerEvent → RapsCtrl → Prop
  | .executed e, d => d = c.executed e
  | .tick tx, d => rapsTimers c = (d, tx)
  | .start, d => d = {}

theorem clockStep_unique (c : RapsCtrl) (ev : TimerEvent) (d d' : RapsCtrl)
    (h : ClockStep c ev d) (h' : ClockStep c ev d') : d = d' := by
  cases ev with
  | executed e => exact h.trans h'.symm
  | tick tx => exact congrArg Prod.fst ((show rapsTimers c = _ from h).symm.trans h')
  | start => exact h.trans h'.symm

/-- **Phase rule.** What a tick takes one further and every other step keeps is after a run as many
    further as it has ticks, and each tick of the run sends what its phase says. -/
theorem phased_run {P : RapsCtrl → Nat → Prop} {allowed : TimerEvent → Prop} {e : WfsFsmEvent}
    {f : Nat → Nat}
    (htick : ∀ c d tx k, P c k → rapsTimers c = (d, tx) → P d (k + 1) ∧ tx.count (.raps e) = f k)
    (hexec : ∀ c e' k, P c k → allowed (.executed e') → P (c.executed e') k)
    (hstart : ∀ c k, P c k → allowed .start → P {} k)
    {c d : RapsCtrl} {mid : List TimerEvent} {k : Nat} (h : P c k) (hmid : ∀ ev ∈ mid, allowed ev)
    (hrun : Run ClockStep c mid d) :
    P d (k + tickCount mid) ∧ roundsOf e mid = (List.range' k (tickCount mid)).map f := by
  induction hrun generalizing k with
  | nil c => exact ⟨h, rfl⟩
  | @cons c b d ev mid hs _ ih =>
    have hrest : ∀ ev ∈ mid, allowed ev := fun ev' hev => hmid ev' (List.mem_cons_of_mem _ hev)
    have hallowed := hmid ev List.mem_cons_self
    cases ev with
    | tick tx =>
      obtain ⟨hphase, hcount⟩ := htick c b tx k h hs
      obtain ⟨hend, hrounds⟩ := ih hphase hrest
      have htc : tickCount (.tick tx :: mid) = tickCount mid + 1 := tickCount_cons _ _
      rw [htc]
      constructor
      · rw [← Nat.add_assoc, Nat.add_right_comm]
        exact hend
      · rw [List.range'_succ, List.map_cons, ← hrounds, ← hcount]
        rfl
    | start =>
      obtain rfl : b = {} := hs
      exact ih (hstart c k h hallowed) hrest
    | executed e' =>
      obtain rfl : b = c.executed e' := hs
      exact ih (hexec c e' k h hallowed) hrest

variable {fib : List FibCall} {view : Nat → Port → Bool} {t : Iwa EvQueue}

theorem runEvent_clock {link : Port → Bool} {core core' : RapsCore} {eb : EventRec}
    (h : runEvent link core eb = .ok (core', fib)) :
    Run ClockStep core.ctrl.clock (core.executes eb) core'.ctrl.clock := by
  unfold RapsCore.executes
  rcases runEvent_ok h with ⟨hacc, rfl, -⟩ | ⟨hacc, r, hact, rfl, -⟩
  · rw [if_neg (by simp [hacc])]
    exact .nil _
  · simp only [RapsCore.acted]
    by_cases hid : eb.wfsid = core.wfsId
    · rw [if_pos ⟨hid, hacc⟩]
      rw [RapsCore.accepts, hid, decide_eq_true rfl] at hacc
      rw [RapsCore.act, hid] at hact
      rw [action_executed hacc hact, RapsCtrl.clock_executed]
      exact .single rfl
    · rw [if_neg fun h => hid h.1, action_clock hid hact]
      exact .nil _

theorem foldlM_recordBody {l : List EventRec} {r r' : RunState} (evs : List TimerEvent)
    (h : l.foldlM (runBody view) r = .ok r') :
    ∃ evs', l.foldlM (recordBody view) (r, evs) = .ok (r', evs ++ evs') ∧
      Run ClockStep r.core.ctrl.clock evs' r'.core.ctrl.clock ∧
      ∀ ev ∈ evs', ∃ e, ev = .executed e := by
  induction l generalizing r evs with
  | nil =>
    simp only [List.foldlM_nil, pure, Except.pure, Except.ok.injEq] at h
    subst h
    exact ⟨[], by simp [pure, Except.pure], .nil _, fun _ h => absurd h List.not_mem_nil⟩
  | cons eb l ih =>
    rw [List.foldlM_cons] at h
    cases hbody : runBody view r eb with
    | error f => simp [hbody, bind, Except.bind] at h
    | ok r₁ =>
      simp only [hbody, bind, Except.bind] at h
      obtain ⟨evs', hfold, hclock, hexec⟩ := ih (evs ++ r.core.executes eb) h
      obtain ⟨core, fib, hrun, rfl⟩ := runBody_ok hbody
      refine ⟨r.core.executes eb ++ evs', ?_, (runEvent_clock hrun).append hclock, ?_⟩
      · rw [List.foldlM_cons]
        simp only [recordBody, hbody, bind, Except.bind, pure, Except.pure]
        rw [hfold, List.append_assoc]
      · intro ev hev
        rcases List.mem_append.mp hev with hev | hev
        · unfold RapsCore.executes at hev
          split at hev
          · exact ⟨_, List.mem_singleton.mp hev⟩
          · exact absurd hev List.not_mem_nil
        · exact hexec ev hev

theorem rapsFsmEvent_clockRun {s s' : Iwa EvBufPool} (hrep : IwaRep s t)
    (h : rapsFsmEvent view s = .ok (s', fib)) :
    Run ClockStep s.core.ctrl.clock (RapsOp.timerEvents s (.fsmEvent view)) s'.core.ctrl.clock ∧
      ∀ ev ∈ RapsOp.timerEvents s (.fsmEvent view), ∃ e, ev = .executed e := by
  obtain ⟨q, hq, rfl⟩ := hrep
  obtain ⟨p', -, hwalk⟩ := hq.walk
  simp only [rapsFsmEvent, wfsFsmRun, EventStore.walk, hwalk] at h
  simp only [RapsOp.timerEvents, executedEvents, EventStore.walk, hwalk]
  split at h
  · next hflag =>
    rw [if_pos hflag]
    cases hloop : q.pending.foldlM (runBody view) { core := s.core } with
    | error f => simp [hloop, Except.map, bind, Except.bind] at h
    | ok r =>
      simp only [hloop, Except.map, bind, Except.bind, pure, Except.pure, Except.ok.injEq,
        Prod.mk.injEq] at h
      obtain ⟨evs, hfold, hclock, hexec⟩ := foldlM_recordBody [] hloop
      rw [hfold, ← h.1]
      exact ⟨hclock, hexec⟩
  · next hflag =>
    rw [if_neg hflag]
    obtain ⟨rfl, -⟩ := Prod.mk.inj (Except.ok.inj h)
    exact ⟨.nil _, fun _ h => absurd h List.not_mem_nil⟩

/-- **One operation** drives the timers along what it does to them. -/
theorem clockRun_of_step {s s' : Iwa EvBufPool} {op : RapsOp} (hrep : IwaRep s t)
    (h : RapsStep s op s') :
    Run ClockStep s.core.ctrl.clock (op.timerEvents s) s'.core.ctrl.clock := by
  obtain ⟨-, eff, hok⟩ := h
  have hwaits (hw : op.waits = true) (ht : op ≠ .timers) (hnil : op.timerEvents s = []) :
      Run ClockStep s.core.ctrl.clock (op.timerEvents s) s'.core.ctrl.clock := by
    rw [hnil, RapsOp.step_clock hw ht hok]
    exact .nil _
  cases op with
  | fsmEvent view =>
    simp only [RapsOp.step] at hok
    cases hrun : rapsFsmEvent view s with
    | error f => simp [hrun, bind, Except.bind] at hok
    | ok r =>
      simp only [hrun, bind, Except.bind, pure, Except.pure, Except.ok.injEq, Prod.mk.injEq] at hok
      rw [← hok.1]
      exact (rapsFsmEvent_clockRun hrep hrun).1
  | timers =>
    simp only [RapsOp.step, Except.ok.injEq, Prod.mk.injEq] at hok
    rw [← hok.1]
    exact .single (rapsTimers_clock s.core.ctrl)
  | rapsStart k ip =>
    simp only [RapsOp.step, Except.ok.injEq, Prod.mk.injEq] at hok
    rw [← hok.1, ixgbeWfsRapsStart_clock]
    exact .single rfl
  | setEvent | updateLink | linkIsDown | linkIsUp | announce | raps | peerTtl | misc | openPorts
  | rapsStop | closePorts => exact hwaits rfl (by simp) rfl

theorem timerEvents_noTick {s s' : Iwa EvBufPool} {op : RapsOp} (hrep : IwaRep s t)
    (h : RapsStep s op s') (hop : op ≠ .timers) : ∀ ev ∈ op.timerEvents s, ev.isTick = false := by
  intro ev hev
  cases op with
  | timers => exact absurd rfl hop
  | fsmEvent view =>
    obtain ⟨-, eff, hok⟩ := h
    simp only [RapsOp.step] at hok
    cases hrun : rapsFsmEvent view s with
    | error f => simp [hrun, bind, Except.bind] at hok
    | ok r =>
      obtain ⟨e, rfl⟩ := (rapsFsmEvent_clockRun hrep hrun).2 ev hev
      rfl
  | rapsStart k ip =>
    obtain rfl := List.mem_singleton.mp hev
    rfl
  | setEvent | updateLink | linkIsDown | linkIsUp | announce | raps | peerTtl | misc | openPorts
  | rapsStop | closePorts => exact absurd hev List.not_mem_nil

/-- **Every run** of a station drives its timers along its trace. -/
theorem clockRun_of_run {s s' : Iwa EvBufPool} {ops : List RapsOp} (hrun : Run RapsStep s ops s')
    (hrep : IwaRep s t) :
    Run ClockStep s.core.ctrl.clock (timerTrace s ops) s'.core.ctrl.clock := by
  induction hrun generalizing t with
  | nil s => exact .nil _
  | @cons s u s' op ops hstep _ ih =>
    obtain ⟨t', -, hrep'⟩ := rapsStep_refines hrep hstep
    rw [timerTrace_cons hstep]
    exact (clockRun_of_step hrep hstep).append (ih hrep')

end VmkDrivers.Wfs
