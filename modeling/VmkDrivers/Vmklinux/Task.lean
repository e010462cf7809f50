/-
  VmkDrivers.Vmklinux.Task

  The tasks of vmklinux (`linux_task.c`, `linux_signal.c`): how a world waits
  for an event in `LinuxTask_WaitEvent`, and how it is sent one.

  Each function here is one section under `taskLock`.
-/

import Mathlib

namespace VmkDrivers.Vmklinux

/-- `TASK_RUNNING`, `TASK_INTERRUPTIBLE` and `TASK_UNINTERRUPTIBLE` -/
inductive TaskState where
  | running
  | interruptible
  | uninterruptible
deriving DecidableEq, Repr

/-- `struct task_struct` in its `LinuxTaskExt`. -/
structure LinuxTask where
  state : TaskState := .running
  /-- `LTE_RESUME` of `events` and `LT_SUSPENDED` of `flags`. -/
  resume : Bool := false
  suspended : Bool := false
  /-- `pending.signal.sig[0]` and `blocked.sig[0]` -/
  pending : BitVec 64 := 0
  blocked : BitVec 64 := 0
deriving DecidableEq, Repr

namespace LinuxTask

variable (te : LinuxTask)

/-- `LinuxTask_Resume`, the section of `LinuxTask_SendEvent`. -/
def sendEvent : LinuxTask := { te with resume := true }

/-- `LinuxTask_WaitEvent` from where it has the lock, up to where it waits (true) or returns. -/
def waitEvent : LinuxTask × Bool :=
  if te.resume then ({ te with resume := false, state := .running }, false)
  else ({ te with suspended := true }, true)

/-- `LinuxTask_WaitEvent` when the wait is over. -/
def wokenUp : LinuxTask × Bool := { te with suspended := false }.waitEvent

/-- `LinuxSignalPendingInt` -/
def signalPending : Bool := te.pending &&& ~~~te.blocked != 0

/-- `task->pending.signal.sig[0] |= (1UL << (sig - 1))` -/
def addSignal (sig : Nat) : LinuxTask := { te with pending := te.pending ||| 1 <<< (sig - 1) }

def flushSignals : LinuxTask := { te with pending := 0 }

def siginitsetinv (mask : BitVec 64) : LinuxTask := { te with blocked := ~~~mask }

@[simp] theorem sendEvent_state : te.sendEvent.state = te.state := rfl
@[simp] theorem sendEvent_resume : te.sendEvent.resume = true := rfl
@[simp] theorem sendEvent_suspended : te.sendEvent.suspended = te.suspended := rfl
@[simp] theorem sendEvent_signalPending : te.sendEvent.signalPending = te.signalPending := rfl

theorem waitEvent_waits {te te' : LinuxTask} (h : te.waitEvent = (te', true)) :
    te.resume = false ∧ te' = { te with suspended := true } := by
  rw [waitEvent] at h
  split at h
  · cases h
  · next hresume => exact ⟨Bool.eq_false_iff.mpr hresume, (congrArg Prod.fst h).symm⟩

end LinuxTask

end VmkDrivers.Vmklinux
