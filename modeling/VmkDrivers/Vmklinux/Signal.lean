/-
  VmkDrivers.Vmklinux.Signal

  Signals to a task that sleeps in `schedule` (`linux_signal.c`,
  `linux_task.c`).

  One task sets its state and calls `schedule`, any number of others send it
  signals.  A step is one section under `taskLock`, or a read of `task->state` or
  `te->flags` without it.  A sender that reads `te->flags` after the task has
  tested for signals, and before it has marked itself suspended, does not wake
  it (`signal_missed`); where none does, a signal always wakes the task
  (`signal_wakes`).
-/

import VmkDrivers.Lib.Activities
import VmkDrivers.Vmklinux.Task

namespace VmkDrivers.Vmklinux

open VmkDrivers.Lib

def linuxSigMax : Nat := 32

/-- Where the task is: in the driver, in `schedule` behind its test for signals, or waiting in
    `LinuxTask_WaitEvent`. -/
inductive SleepPhase where
  | driver
  | tested
  | waiting
deriving DecidableEq, Repr

structure Sleeper where
  te : LinuxTask := {}
  phase : SleepPhase := .driver
deriving DecidableEq, Repr

/-- What `LinuxSignalSendByTask` has still to do, behind its section: read `task->state`, read
    `te->flags`, wake the task. -/
inductive Sender where
  | readState
  | readFlags
  | resume
deriving DecidableEq, Repr

inductive SleepEvent where
  | setState (state : TaskState)
  | schedule
  | waitEvent
  | wakeup
  | flushSignals
  | siginitsetinv (mask : BitVec 64)
  | sendSig (sig : Nat)
deriving DecidableEq, Repr

namespace Sleeper

variable (d : Sleeper)

/-- `schedule`, up to `LinuxTask_Suspend`. -/
def schedule : Sleeper :=
  if d.te.signalPending && (d.te.state = .interruptible || d.te.state = .running) then d
  -- `yield`
  else if d.te.state = .running then d
  else { d with phase := .tested }

def enter (r : LinuxTask × Bool) : Sleeper where
  te := r.1
  phase := if r.2 then .waiting else .driver

def begin (d : Sleeper) : SleepEvent → Option (Sleeper × List Sender)
  | .setState state =>
    if d.phase = .driver then some ({ d with te := { d.te with state } }, []) else none
  | .schedule => if d.phase = .driver then some (d.schedule, []) else none
  | .waitEvent => if d.phase = .tested then some (enter d.te.waitEvent, []) else none
  | .wakeup => if d.phase = .waiting then some (enter d.te.wokenUp, []) else none
  | .flushSignals =>
    if d.phase = .driver then some ({ d with te := d.te.flushSignals }, []) else none
  | .siginitsetinv mask =>
    if d.phase = .driver then some ({ d with te := d.te.siginitsetinv mask }, []) else none
  | .sendSig sig =>
    if 0 < sig ∧ sig < linuxSigMax then
      some ({ d with te := d.te.addSignal sig },
        if (d.te.addSignal sig).signalPending then [.readState] else [])
    else none

/-- `LinuxSignalSendByTask` behind its section. -/
def send (d : Sleeper) : Sender → Unit → Option (Except Empty (Sleeper × List Sender))
  | .readState, _ => some (.ok (d, if d.te.state = .interruptible then [.readFlags] else []))
  | .readFlags, _ => some (.ok (d, if d.te.suspended then [.resume] else []))
  | .resume, _ => some (.ok ({ d with te := d.te.sendEvent }, []))

end Sleeper

def sleepProgram : Program Sleeper Sender SleepEvent Unit Empty where
  begin := Sleeper.begin
  move := Sleeper.send

abbrev SleepState := Except Empty (Pool Sleeper Sender)

abbrev SleepLabel := PoolEvent Sender SleepEvent Unit

abbrev SleepStep : SleepState → SleepLabel → SleepState → Prop := sleepProgram.Step

def SleepState.init : SleepState := .ok ⟨{}, 0⟩

/-! ## A signal wakes the task -/

/-- The sender will call `LinuxTask_Resume` as things are. -/
def Sender.WillResume (te : LinuxTask) : Sender → Prop
  | .readState => te.state = .interruptible ∧ te.suspended = true
  | .readFlags => te.suspended = true
  | .resume => True

/-- A task that is blocked while a signal is pending is being woken. -/
def Woken (w : Pool Sleeper Sender) : Prop :=
  w.shared.phase = .waiting → w.shared.te.state = .interruptible →
    w.shared.te.signalPending = true →
      w.shared.te.resume = true ∨ ∃ p ∈ w.active, p.WillResume w.shared.te

/-- A sender reads `te->flags` of a task that has tested for signals and is not suspended yet only
    when the task is woken by another one, or has no signal to be woken for. -/
def FlagsRead (s : SleepState) (e : SleepLabel) : Prop :=
  match s with
  | .ok w => e = .move .readFlags () → w.shared.phase = .tested →
      w.shared.te.state = .interruptible → w.shared.te.signalPending = true →
        w.shared.te.resume = true ∨ w.active.erase .readFlags ≠ 0
  | .error _ => True

instance (s : SleepState) (e : SleepLabel) : Decidable (FlagsRead s e) :=
  match s with
  | .ok w => inferInstanceAs (Decidable (e = .move .readFlags () → w.shared.phase = .tested →
      w.shared.te.state = .interruptible → w.shared.te.signalPending = true →
        w.shared.te.resume = true ∨ w.active.erase .readFlags ≠ 0))
  | .error _ => .isTrue trivial

/-- From the test on, somebody is on the way to wake the task for a signal. -/
structure SleepInv (d : Sleeper) (ws : Multiset Sender) : Prop where
  suspended : d.phase = .waiting → d.te.suspended = true
  woken : d.phase ≠ .driver → d.te.state = .interruptible → d.te.signalPending = true →
    d.te.resume = true ∨ ws ≠ 0

section Sleeping

variable {d d' : Sleeper} {ws rest : Multiset Sender} {ps : List Sender}

theorem SleepInv.driver (h : d.phase = .driver) : SleepInv d ws :=
  ⟨fun hwaiting => (by rw [h] at hwaiting; cases hwaiting), fun hne => absurd h hne⟩

theorem SleepInv.enter {te : LinuxTask} (hwoken : te.state = .interruptible →
    te.signalPending = true → te.resume = true ∨ ws ≠ 0) :
    SleepInv (Sleeper.enter te.waitEvent) ws := by
  cases hwait : te.waitEvent with
  | mk te' waits =>
    cases waits with
    | false => exact .driver rfl
    | true =>
      obtain ⟨-, rfl⟩ := LinuxTask.waitEvent_waits hwait
      exact ⟨fun _ => rfl, fun _ => hwoken⟩

theorem SleepInv.schedule (h : d.phase = .driver) : SleepInv d.schedule ws := by
  unfold Sleeper.schedule
  split
  · exact .driver h
  · next hpending =>
    split
    · exact .driver h
    · -- the test has found no signal
      refine ⟨nofun, fun _ hstate hsignal => ?_⟩
      exact absurd (by simp [show d.te.state = .interruptible from hstate,
        show d.te.signalPending = true from hsignal]) hpending

theorem begin_sleep {ev : SleepEvent} (h : SleepInv d ws)
    (hbegin : d.begin ev = some (d', ps)) : SleepInv d' (ps + ws) := by
  cases ev with
  | setState state | flushSignals | siginitsetinv mask =>
    obtain ⟨hphase, heq⟩ := Option.ite_none_right_eq_some.mp hbegin
    cases heq
    exact .driver hphase
  | schedule =>
    obtain ⟨hphase, heq⟩ := Option.ite_none_right_eq_some.mp hbegin
    cases heq
    exact .schedule hphase
  | waitEvent =>
    obtain ⟨hphase, heq⟩ := Option.ite_none_right_eq_some.mp hbegin
    cases heq
    rw [Multiset.coe_nil, zero_add]
    exact .enter (h.woken (by rw [hphase]; nofun))
  | wakeup =>
    obtain ⟨hphase, heq⟩ := Option.ite_none_right_eq_some.mp hbegin
    cases heq
    rw [Multiset.coe_nil, zero_add]
    exact .enter (h.woken (by rw [hphase]; nofun))
  | sendSig sig =>
    obtain ⟨-, heq⟩ := Option.ite_none_right_eq_some.mp hbegin
    cases heq
    refine ⟨h.suspended, fun _ _ hsignal => .inr ?_⟩
    rw [if_pos (show (d.te.addSignal sig).signalPending = true from hsignal)]
    exact Multiset.singleton_add .readState ws ▸ Multiset.cons_ne_zero

theorem send_sleep {p : Sender} (h : SleepInv d (p ::ₘ rest))
    (hguard : FlagsRead (.ok ⟨d, p ::ₘ rest⟩) (.move p ())) :
    ∃ d' ps, d.send p () = some (.ok (d', ps)) ∧ SleepInv d' (ps + rest) := by
  have hleft : ∀ p : Sender, (([p] : List Sender) : Multiset Sender) + rest ≠ 0 := fun p =>
    Multiset.singleton_add p rest ▸ Multiset.cons_ne_zero
  cases p with
  | readState =>
    refine ⟨d, _, rfl, h.suspended, fun _ hstate _ => .inr ?_⟩
    rw [if_pos hstate]
    exact hleft .readFlags
  | readFlags =>
    refine ⟨d, _, rfl, h.suspended, fun hphase hstate hsignal => ?_⟩
    cases hsuspended : d.te.suspended with
    | true => exact .inr (hleft .resume)
    | false =>
      -- the task has not marked itself, so that it is behind the test
      have htested : d.phase = .tested := by
        cases hd : d.phase with
        | driver => exact absurd hd hphase
        | tested => rfl
        | waiting =>
          rw [h.suspended hd] at hsuspended
          cases hsuspended
      have hother := hguard rfl htested hstate hsignal
      rw [Multiset.erase_cons_head] at hother
      simpa using hother
  | resume => exact ⟨_, _, rfl, h.suspended, fun _ _ _ => .inl rfl⟩

theorem SleepInv.wakes {w : Pool Sleeper Sender} (h : SleepInv w.shared w.active) : Woken w := by
  intro hphase hstate hsignal
  have hsuspended := h.suspended hphase
  refine (h.woken (by rw [hphase]; nofun) hstate hsignal).imp_right fun hne => ?_
  obtain ⟨p, hp⟩ := Multiset.exists_mem_of_ne_zero hne
  refine ⟨p, hp, ?_⟩
  cases p with
  | readState => exact ⟨hstate, hsuspended⟩
  | readFlags => exact hsuspended
  | resume => trivial

/-- **Signals**: where no sender reads `te->flags` between the test for signals and the mark, or
    others wake the task, a task that is blocked while a signal is pending is being woken. -/
theorem signal_wakes {s : SleepState} {es : List SleepLabel}
    (hrun : Run (Guarded SleepStep FlagsRead) .init es s) : ∃ w, s = .ok w ∧ Woken w := by
  have hinv : ∃ w, s = .ok w ∧ SleepInv w.shared w.active := by
    refine hrun.invariant (I := fun s => ∃ w, s = .ok w ∧ SleepInv w.shared w.active) ?_
      ⟨_, rfl, .driver rfl⟩
    rintro _ e t ⟨w, rfl, h⟩ ⟨hguard, hstep⟩
    rcases Program.step_cases hstep with ⟨v, ev, u, ps, hv, rfl, hbegin, rfl⟩ |
      ⟨v, p, b, rest, o, hv, rfl, hmove, rfl⟩
    · cases hv
      exact ⟨_, rfl, begin_sleep h hbegin⟩
    · cases hv
      obtain ⟨d', ps, hsend, h'⟩ := send_sleep h hguard
      obtain rfl := Option.some.inj (hmove.symm.trans hsend)
      exact ⟨_, rfl, h'⟩
  obtain ⟨w, rfl, h⟩ := hinv
  exact ⟨w, rfl, h.wakes⟩

end Sleeping

def wokenRun : List SleepLabel :=
  [.begin (.setState .interruptible), .begin .schedule, .begin .waitEvent, .begin (.sendSig 9),
    .move .readState (), .move .readFlags ()]

theorem signal_wakes_wokenRun : ∃ s, Run (Guarded SleepStep FlagsRead) .init wokenRun s ∧
    ∃ w, s = .ok w ∧ w.shared.phase = .waiting ∧ w.shared.te.signalPending = true ∧ Woken w := by
  have hexec : ∃ w, Run.exec (fun s e => if FlagsRead s e then sleepProgram.next? s e else none)
      SleepState.init wokenRun = some (.ok w) ∧ w.shared.phase = .waiting ∧
      w.shared.te.signalPending = true := ⟨_, rfl, rfl, by decide⟩
  obtain ⟨w, hw, hphase, hsignal⟩ := hexec
  have hsound : ∀ s e t, (if FlagsRead s e then sleepProgram.next? s e else none) = some t →
      Guarded SleepStep FlagsRead s e t := fun s e t h =>
    (guarded_eq_some_iff (T := SleepStep) (fun _ _ _ => Iff.rfl) s e t).mp h
  have hrun : Run (Guarded SleepStep FlagsRead) .init wokenRun (.ok w) := Run.of_exec hsound hw
  obtain ⟨w', hw', hwoken⟩ := signal_wakes hrun
  cases hw'
  exact ⟨_, hrun, w, rfl, hphase, hsignal, hwoken⟩

/-- The signal is sent behind the test, and `te->flags` is read before the mark. -/
def missedRun : List SleepLabel :=
  [.begin (.setState .interruptible), .begin .schedule, .begin (.sendSig 9), .move .readState (),
    .move .readFlags (), .begin .waitEvent]

theorem signal_missed : ∃ w, Run SleepStep .init missedRun (.ok w) ∧ ¬Woken w ∧ w.active = 0 := by
  have hexec : ∃ w, Run.exec sleepProgram.next? SleepState.init missedRun = some (.ok w) ∧
      w.shared.phase = .waiting ∧ w.shared.te.state = .interruptible ∧
      w.shared.te.signalPending = true ∧ w.shared.te.resume = false ∧ w.active = 0 :=
    ⟨_, rfl, rfl, rfl, by decide, rfl, rfl⟩
  obtain ⟨w, hw, hphase, hstate, hsignal, hresume, hactive⟩ := hexec
  refine ⟨w, Run.of_exec (fun _ _ _ h => h) hw, fun hwoken => ?_, hactive⟩
  rcases hwoken hphase hstate hsignal with h | ⟨p, hp, -⟩
  · rw [hresume] at h
    cases h
  · rw [hactive] at hp
    exact Multiset.notMem_zero p hp

end VmkDrivers.Vmklinux
