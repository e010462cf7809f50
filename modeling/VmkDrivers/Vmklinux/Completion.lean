/-
  VmkDrivers.Vmklinux.Completion

  Completions (`linux_waitqueue.c`) and the tasks that wait for one
  (`linux_task.c`): `complete`, `wait_for_completion` and
  `wait_for_completion_timeout`.

  Any number of tasks are under way, each in one wait at a time.  A step is one
  section under the lock of the completion or under `taskLock`, an expiry of the
  timer of a wait, or what a task does between two of them.  A task that is
  blocked may wake up at any time, and a timer may expire before `jiffies` have
  advanced.

  What becomes of the calls is written down: how many completions there were,
  how many waits consumed one, and what the waits returned.
-/

import VmkDrivers.Lib.Transition
import VmkDrivers.Vmklinux.Task

namespace VmkDrivers.Vmklinux

open VmkDrivers.Lib

/-- `MAX_SCHEDULE_TIMEOUT`, that is `LONG_MAX`. -/
def maxScheduleTimeout : Int := 2 ^ 63 - 1

/-- Where a task is: in no wait, in `wait_for_common` before its lock, in `__schedule_timeout` at
    its start, before `LinuxTask_WaitEvent`, waiting in it, and behind `schedule`, and back in
    `do_wait_for_common` before its lock. -/
inductive WaitPhase where
  | idle
  | lock
  | scheduleTimeout
  | waitEvent
  | blocked
  | awake
  | relock
deriving DecidableEq, Repr

structure Waiter where
  te : LinuxTask := {}
  phase : WaitPhase := .idle
  /-- `timeout` of `do_wait_for_common`, and of `__schedule_timeout`. -/
  timeout : Int := 0
  expires : BitVec 64 := 0
  /-- `wait_timer` is pending, and its handlers that are under way. -/
  timer : Bool := false
  handlers : Nat := 0
  /-- What the wait was called with, and when. -/
  asked : Int := 0
  start : Nat := 0
deriving DecidableEq, Repr

structure WaitResult where
  asked : Int
  ret : Int
  consumed : Bool
  elapsed : Nat
deriving DecidableEq, Repr

/-- `struct completion` with the tasks. -/
structure CompletionData where
  /-- `done`, an `unsigned int`. -/
  done : Nat := 0
  /-- The tasks of `wait.task_list`. -/
  taskList : List Nat := []
  /-- `complete` has the lock, and is to wake this task. -/
  waking : Option Nat := none
  tasks : Nat → Waiter := fun _ => {}
  jiffies : Nat := 0
  completes : Nat := 0
  consumed : Nat := 0
  results : List WaitResult := []

namespace Waiter

variable (w : Waiter)

/-- `__set_current_state(TASK_UNINTERRUPTIBLE)` -/
def setUninterruptible : Waiter := { w with te := { w.te with state := .uninterruptible } }

/-- `__schedule_timeout`, up to `schedule`. -/
def scheduleTimeout (jiffies : Nat) : Waiter :=
  if w.timeout = maxScheduleTimeout then { w with phase := .waitEvent }
  else if w.timeout < 0 then { w with phase := .relock, timeout := 0 }
  else
    { w with
      phase := .waitEvent
      expires := BitVec.ofInt 64 w.timeout + BitVec.ofNat 64 jiffies
      timer := true }

/-- The task waits in `LinuxTask_WaitEvent`, or is behind it. -/
def enter (r : LinuxTask × Bool) : Waiter :=
  { w with te := r.1, phase := if r.2 then .blocked else .awake }

/-- `schedule`, of a task that no signal concerns. -/
def schedule : Waiter :=
  if w.te.state = .running then { w with phase := .awake } else w.enter w.te.waitEvent

/-- `timeout - jiffies` -/
def diff (jiffies : Nat) : Int := (w.expires - BitVec.ofNat 64 jiffies).toInt

/-- The timer has expired, but `jiffies` have not advanced fully. -/
def Again (jiffies : Nat) : Prop :=
  w.timeout ≠ maxScheduleTimeout ∧ w.timer = false ∧ 0 < w.diff jiffies

instance (jiffies : Nat) : Decidable (w.Again jiffies) := inferInstanceAs (Decidable (_ ∧ _))

/-- `__schedule_timeout` behind `schedule`.  `del_timer_sync` waits for a handler under way. -/
def awake (jiffies : Nat) : Option Waiter :=
  if w.timeout = maxScheduleTimeout then some { w with phase := .relock }
  else if w.timer = false ∧ w.handlers ≠ 0 then none
  -- "set the state back in preparation for blocking again"
  else if w.Again jiffies then some { w.setUninterruptible with phase := .waitEvent, timer := true }
  else some { w with phase := .relock, timeout := max 0 (w.diff jiffies), timer := false }

end Waiter

namespace CompletionData

variable (d : CompletionData)

def setTask (t : Nat) (w : Waiter) : CompletionData :=
  { d with tasks := Function.update d.tasks t w }

/-- `complete` takes the lock: the first of the list is to be woken, and the scan ends with it. -/
def complete : CompletionData :=
  { d with
    done := (d.done + 1) % 2 ^ 32
    completes := d.completes + 1
    waking := d.taskList.head?.filter fun t => (d.tasks t).te.state ≠ .running }

/-- `wake_up_process`, and the lock is dropped. -/
def wakeUpProcess (t : Nat) : CompletionData :=
  { d.setTask t { d.tasks t with te := (d.tasks t).te.sendEvent } with waking := none }

/-- A call of `wait_for_common`. -/
def waitForCommon (t : Nat) (timeout : Int) : CompletionData :=
  d.setTask t { d.tasks t with phase := .lock, timeout, asked := timeout, start := d.jiffies }

def leave (t : Nat) (ret : Int) (consumed : Bool) : CompletionData :=
  { d.setTask t { d.tasks t with phase := .idle } with
    results := d.results ++
      [⟨(d.tasks t).asked, ret, consumed, d.jiffies - (d.tasks t).start⟩] }

/-- `completion->done--` and `timeout ?: 1` -/
def consume (t : Nat) : CompletionData :=
  { d with done := d.done - 1, consumed := d.consumed + 1 }.leave t
    (if (d.tasks t).timeout = 0 then 1 else (d.tasks t).timeout) true

/-- The task goes to sleep in the loop of `do_wait_for_common`. -/
def sleep (t : Nat) : CompletionData :=
  d.setTask t { (d.tasks t).setUninterruptible with phase := .scheduleTimeout }

/-- `do_wait_for_common`, up to where the lock is dropped. -/
def lock (t : Nat) : CompletionData :=
  if d.done = 0 then { d with taskList := d.taskList ++ [t] }.sleep t else d.consume t

/-- The end of the loop of `do_wait_for_common`. -/
def relock (t : Nat) : CompletionData :=
  if d.done = 0 ∧ (d.tasks t).timeout ≠ 0 then d.sleep t
  else
    let d : CompletionData := { d with taskList := d.taskList.erase t }
    if d.done = 0 then d.leave t (d.tasks t).timeout false else d.consume t

def goOn (t : Nat) : Option CompletionData :=
  let w := d.tasks t
  match w.phase with
  | .idle => none
  | .lock => if d.waking = none then some (d.lock t) else none
  | .scheduleTimeout => some (d.setTask t (w.scheduleTimeout d.jiffies))
  | .waitEvent => some (d.setTask t w.schedule)
  | .blocked => some (d.setTask t (w.enter w.te.wokenUp))
  | .awake => (w.awake d.jiffies).map (d.setTask t)
  | .relock => if d.waking = none then some (d.relock t) else none

end CompletionData

/-- A call, a step of `complete` or of a task, an expiry, or a tick of the clock. -/
inductive CompletionEvent where
  | complete
  | wakeUpProcess
  | waitForCompletion (t : Nat)
  | waitForCompletionTimeout (t : Nat) (timeout : BitVec 64)
  | goOn (t : Nat)
  | expire (t : Nat)
  | waitTimeout (t : Nat)
  | tick
deriving DecidableEq, Repr

namespace CompletionData

def next? (d : CompletionData) : CompletionEvent → Option CompletionData
  | .complete => if d.waking = none then some d.complete else none
  | .wakeUpProcess => d.waking.map d.wakeUpProcess
  | .waitForCompletion t =>
    if (d.tasks t).phase = .idle then some (d.waitForCommon t maxScheduleTimeout) else none
  | .waitForCompletionTimeout t timeout =>
    if (d.tasks t).phase = .idle then some (d.waitForCommon t timeout.toInt) else none
  | .goOn t => d.goOn t
  | .expire t =>
    let w := d.tasks t
    if w.timer then some (d.setTask t { w with timer := false, handlers := w.handlers + 1 })
    else none
  | .waitTimeout t =>
    let w := d.tasks t
    -- `__wait_timeout`
    if w.handlers = 0 then none
    else some (d.setTask t { w with te := w.te.sendEvent, handlers := w.handlers - 1 })
  | .tick => some { d with jiffies := d.jiffies + 1 }

end CompletionData

def CompletionStep (d : CompletionData) (e : CompletionEvent) (d' : CompletionData) : Prop :=
  d.next? e = some d'

end VmkDrivers.Vmklinux
