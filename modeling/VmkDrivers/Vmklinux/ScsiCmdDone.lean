/-
  VmkDrivers.Vmklinux.ScsiCmdDone

  The completion of the SCSI commands of one adapter (`linux_scsi.c`).

  A command belongs to the driver, to a call, or to a list of completed ones, and
  `VMK_FLAGS_NEED_CMDDONE` says that its completion is still to come.  With
  `VMK_FLAGS_DELAY_CMDDONE` a completion is postponed, and whoever has set the flag
  completes the command again after clearing it: `SCSILinuxAbortCommands`, or the
  worker to which `SCSILinuxCmdTimedOut` leaves the command.

  Two things are wrong there.  All commands that time out go through the one
  `linuxSCSIIO_work`, so that the worker misses one which another command overtakes.
  And `VMK_FLAGS_CMDDONE_ATTEMPTED` is never cleared: `SCSILinuxAbortCommands` looks at
  it before it delays a command, and `SCSILinuxCmdTimedOut` does not, so that the worker
  can complete a command which the call of an earlier abort is about to complete.

  The memory of commands is one of numbered slots, used again when a command has been
  put back, and a timer may still call for the command that had the slot before.  A
  command of the vmkernel is one call of `SCSILinuxQueueCommand`.  What the abort handler
  of the driver returns changes nothing but the value of `SCSILinuxAbortCommands`; it
  completes commands as the driver does elsewhere.  The counts of active commands, the
  dropping of commands in debug builds and requests of task management are left out.
-/

import VmkDrivers.Lib.Activities
import VmkDrivers.Vmklinux.Scsi

namespace VmkDrivers.Vmklinux

open VmkDrivers.Lib

/-! ## Commands and calls -/

/-- `struct scsi_cmnd` -/
structure Scmd where
  vmkCmd : Nat := 0
  device : Nat := 0
  needCmdDone : Bool := false
  delayCmdDone : Bool := false
  cmdDoneAttempted : Bool := false
  ioTimeout : Bool := false
deriving DecidableEq, Repr

structure CmdState where
  scmds : Nat → Scmd := fun _ => {}
  /-- The slots that are in use. -/
  live : List Nat := []
  /-- `eh_timeout` of the slot is pending. -/
  timer : Nat → Bool := fun _ => false
  cmdList : Nat → List Nat := fun _ => []
  /-- `sdev->list_lock` is held from one step to the next. -/
  listLocked : Nat → Bool := fun _ => false
  workScmd : Nat := 0
  workQueued : Bool := false
  /-- The thread of `linuxSCSIWQ` is in `SCSIProcessCmdTimedOut`. -/
  workerRuns : Bool := false
  /-- The lists of completed commands, together. -/
  doneCmds : List Nat := []
  /-- The slots for which `SCSILinuxCmdDone` has found its completion delayed. -/
  postponed : List Nat := []
  /-- The commands of the vmkernel, and what has become of them. -/
  started : List Nat := []
  refused : List Nat := []
  delivered : List Nat := []

namespace CmdState

variable (s : CmdState)

def modify (n : Nat) (f : Scmd → Scmd) : CmdState :=
  { s with scmds := Function.update s.scmds n (f (s.scmds n)) }

/-- `scsi_get_command`, and what is filled in. -/
def getCommand (v d n : Nat) : CmdState :=
  { s with
    scmds := Function.update s.scmds n { vmkCmd := v, device := d }
    live := n :: s.live
    cmdList := Function.update s.cmdList d (s.cmdList d ++ [n]) }

/-- `scsi_put_command` -/
def putCommand (n : Nat) : CmdState :=
  { s with
    live := s.live.erase n
    cmdList := Function.update s.cmdList (s.scmds n).device
      ((s.cmdList (s.scmds n).device).erase n) }

def refuse (v : Nat) : CmdState := { s with refused := v :: s.refused }

def deliver (v : Nat) : CmdState := { s with delivered := v :: s.delivered }

def setNeed (n : Nat) : CmdState := s.modify n fun c => { c with needCmdDone := true }

/-- `scsi_add_timer` for the I/O timeout. -/
def addTimer (n : Nat) : CmdState :=
  { s.modify n fun c => { c with ioTimeout := true } with timer := Function.update s.timer n true }

/-- `scsi_delete_timer` -/
def deleteTimer (n : Nat) : CmdState := { s with timer := Function.update s.timer n false }

def setLock (d : Nat) (locked : Bool) : CmdState :=
  { s with listLocked := Function.update s.listLocked d locked }

def postpone (n : Nat) : CmdState :=
  { s.modify n fun c => { c with cmdDoneAttempted := true } with postponed := n :: s.postponed }

def clearNeed (n : Nat) : CmdState := s.modify n fun c => { c with needCmdDone := false }

/-- `SCSILinuxScheduleCompletion` -/
def scheduleCompletion (n : Nat) : CmdState := { s with doneCmds := s.doneCmds ++ [n] }

def setDelay (n : Nat) : CmdState := s.modify n fun c => { c with delayCmdDone := true }

def clearDelay (n : Nat) : CmdState :=
  { s.modify n fun c => { c with delayCmdDone := false } with postponed := s.postponed.erase n }

end CmdState

/-- What `SCSILinuxCmdDone` returns to. -/
inductive CmdDoneCaller where
  /-- The driver, or `SCSILinuxQueueCommand`. -/
  | driver
  | worker
  /-- The last loop of `SCSILinuxAbortCommands` for a device. -/
  | abort (d : Nat) (todo : List Nat)
deriving DecidableEq, Repr

/-- Where a call of `SCSILinuxCmdDone` has come to. -/
inductive CmdDonePc where
  | start
  | deleteTimer
  /-- The timer has been deleted. -/
  | check
  | schedule
deriving DecidableEq, Repr

/-- Where a call of `SCSILinuxCmdTimedOut` has come to. -/
inductive TimedOutPc where
  | start
  /-- The command is delayed, and `linuxSCSIIO_work` comes next. -/
  | assign
  | initWork
  | queueWork
deriving DecidableEq, Repr

/-- Where `SCSIProcessCmdTimedOut` has come to. -/
inductive WorkerPc where
  | start
  /-- `SCSILinuxAbortCommand` -/
  | aborting (n : Nat)
  | finish
deriving DecidableEq, Repr

/-- Where a call of `SCSILinuxAbortCommands` has come to. -/
inductive AbortPc where
  | start
  /-- The first loop, with what is on `abort_list`. -/
  | scan (todo abortList : List Nat)
  /-- `SCSILinuxAbortCommand` for each of them. -/
  | aborting (abortList : List Nat)
  /-- The last loop. -/
  | complete (todo : List Nat)
deriving DecidableEq, Repr

inductive CmdActivity where
  /-- `SCSILinuxQueueCommand`, before it has a command. -/
  | queue (v d : Nat) (pc : QueuePc)
  /-- It comes to the lock of the host. -/
  | locked (n : Nat)
  /-- It is decided without the lock. -/
  | decided (n : Nat) (verdict : QueueVerdict)
  | putBack (n : Nat)
  /-- `queuecommand` has returned an error. -/
  | driverRefused (n : Nat)
  | timerDeleted (n : Nat)
  /-- The driver has the command. -/
  | driver (n : Nat)
  | cmdDone (n : Nat) (pc : CmdDonePc) (caller : CmdDoneCaller)
  | timedOut (n : Nat) (pc : TimedOutPc)
  | worker (pc : WorkerPc)
  /-- `SCSILinuxAbortCommands` -/
  | abort (d : Nat) (pc : AbortPc)
  /-- `SCSILinuxProcessCompletions` has taken the command. -/
  | process (n : Nat)
  /-- The vmkernel is told. -/
  | deliver (v : Nat)
deriving DecidableEq, Repr

inductive CmdEvent where
  | queueCommand (v d : Nat) (req : QueueRequest)
  | abortCommands (d : Nat)
  /-- The timer of the slot expires. -/
  | expire (n : Nat)
  /-- `linuxSCSIWQ` runs its work. -/
  | work
  | processCompletion (n : Nat)
deriving DecidableEq, Repr

structure CmdAnswer where
  shostState : ShostState := .running
  view : QueueView := {}
  /-- The slot that is free. -/
  slot : Nat := 0
  /-- The adapter has an I/O timeout. -/
  ioTimeout : Bool := false
  /-- `queuecommand` returns 0. -/
  accepts : Bool := true
  /-- `vmk_ScsiQueryTaskMgmt` says that the command is to be aborted. -/
  selected : Bool := true
deriving DecidableEq, Repr

inductive CmdFault where
  /-- `VMK_NOT_REACHED` in `SCSILinuxCmdDone` -/
  | doubleCompletion
  /-- `INIT_WORK` of a work that is queued. -/
  | queuedWork
  /-- A command of which `VMK_FLAGS_NEED_CMDDONE` is clear after the driver has refused it. -/
  | doneByDriver
deriving DecidableEq, Repr

abbrev CmdResult := Except CmdFault (CmdState × List CmdActivity)

/-- `SCSILinuxCmdDone` returns. -/
def CmdDoneCaller.resume : CmdDoneCaller → List CmdActivity
  | .driver => []
  | .worker => [.worker .finish]
  | .abort d todo => [.abort d (.complete todo)]

/-- `SCSILinuxQueueCommand` has a command, and decides. -/
def CmdState.decide (s : CmdState) (n : Nat) (b : CmdAnswer) : QueueVerdict → CmdResult
  | .noMemory | .wouldBlock | .gone => .ok (s, [.putBack n])
  | .complete => .ok (s.setNeed n, [.cmdDone n .start .driver])
  | .issue =>
    let s := if b.ioTimeout then (s.setNeed n).addTimer n else s.setNeed n
    .ok (s, if b.accepts then [.driver n] else [.driverRefused n])

/-- `SCSILinuxCmdDone` looks at the flags. -/
def CmdState.checkDone (s : CmdState) (n : Nat) (caller : CmdDoneCaller) : CmdResult :=
  if (s.scmds n).needCmdDone = false then .error .doubleCompletion
  else if (s.scmds n).delayCmdDone then .ok (s.postpone n, caller.resume)
  else .ok (s.clearNeed n, [.cmdDone n .schedule caller])

/-- One step of an activity; `none` if it has to wait. -/
def CmdActivity.step (s : CmdState) (b : CmdAnswer) : CmdActivity → Option CmdResult
  | .queue v d pc =>
    match pc, pc.step b.shostState b.view with
    | .noCommand, .inr .gone => some (.ok (s, [.deliver v]))
    | .noCommand, .inr _ => some (.ok (s.refuse v, []))
    | _, .inl .noCommand => some (.ok (s, [.queue v d .noCommand]))
    | _, o =>
      -- a command is linked under the lock of the device's list
      if b.slot ∈ s.live ∨ s.listLocked d then none
      else
        some (.ok (s.getCommand v d b.slot, match o with
          | .inl _ => [.locked b.slot]
          | .inr verdict => [.decided b.slot verdict]))
  | .locked n => some (s.decide n b (queueLocked b.shostState b.view))
  | .decided n verdict => some (s.decide n b verdict)
  | .putBack n =>
    if s.listLocked (s.scmds n).device then none
    else some (.ok ((s.putCommand n).refuse (s.scmds n).vmkCmd, []))
  | .driverRefused n =>
    some (.ok (if (s.scmds n).ioTimeout then s.deleteTimer n else s, [.timerDeleted n]))
  | .timerDeleted n =>
    some (if (s.scmds n).needCmdDone then .ok (s, [.cmdDone n .start .driver])
      else .error .doneByDriver)
  | .driver n => some (.ok (s, [.cmdDone n .start .driver]))
  | .cmdDone n .start caller =>
    some (if (s.scmds n).ioTimeout then .ok (s, [.cmdDone n .deleteTimer caller])
      else s.checkDone n caller)
  | .cmdDone n .deleteTimer caller => some (.ok (s.deleteTimer n, [.cmdDone n .check caller]))
  | .cmdDone n .check caller => some (s.checkDone n caller)
  | .cmdDone n .schedule caller => some (.ok (s.scheduleCompletion n, caller.resume))
  | .timedOut n .start =>
    let c := s.scmds n
    let s := s.modify n fun c => { c with ioTimeout := false }
    -- a command that is aborted already is not aborted once more
    some (.ok (if c.needCmdDone ∧ c.delayCmdDone = false then
      (s.setDelay n, [.timedOut n .assign]) else (s, [])))
  | .timedOut n .assign => some (.ok ({ s with workScmd := n }, [.timedOut n .initWork]))
  | .timedOut n .initWork =>
    -- `INIT_WORK` of a work item that is on its queue
    some (if s.workQueued then .error .queuedWork else .ok (s, [.timedOut n .queueWork]))
  | .timedOut _ .queueWork => some (.ok ({ s with workQueued := true }, []))
  | .worker .start => some (.ok (s, [.worker (.aborting s.workScmd)]))
  | .worker (.aborting n) =>
    some (.ok (s.clearDelay n,
      -- the driver was done with it while the worker aborted it
      if (s.scmds n).cmdDoneAttempted then [.cmdDone n .start .worker] else [.worker .finish]))
  | .worker .finish => some (.ok ({ s with workerRuns := false }, []))
  | .abort d .start =>
    if s.listLocked d then none
    else some (.ok (s.setLock d true, [.abort d (.scan (s.cmdList d) [])]))
  | .abort d (.scan [] abortList) =>
    some (.ok (s.setLock d false, [.abort d (.aborting abortList)]))
  | .abort d (.scan (n :: todo) abortList) =>
    let c := s.scmds n
    -- only what the driver still has, and nobody else aborts
    some (.ok (if c.needCmdDone ∧ c.cmdDoneAttempted = false ∧ b.selected ∧
        c.delayCmdDone = false then
      ({ s.setDelay n with cmdList := Function.update s.cmdList d ((s.cmdList d).erase n) },
        [.abort d (.scan todo (abortList ++ [n]))])
      else (s, [.abort d (.scan todo abortList)])))
  | .abort d (.aborting abortList) =>
    if s.listLocked d then none
    else some (.ok (s.setLock d true, [.abort d (.complete abortList)]))
  | .abort d (.complete []) => some (.ok (s.setLock d false, []))
  | .abort d (.complete (n :: todo)) =>
    some (.ok ({ s.clearDelay n with
        cmdList := Function.update s.cmdList d (s.cmdList d ++ [n]) },
      if (s.scmds n).cmdDoneAttempted then [.cmdDone n .start (.abort d todo)]
      else [.abort d (.complete todo)]))
  | .process n =>
    if s.listLocked (s.scmds n).device then none
    else some (.ok (s.putCommand n, [.deliver (s.scmds n).vmkCmd]))
  | .deliver v => some (.ok (s.deliver v, []))

def cmdProgram : Program CmdState CmdActivity CmdEvent CmdAnswer CmdFault where
  begin s
    | .queueCommand v d req =>
      if v ∈ s.started then none
      else some ({ s with started := v :: s.started }, [.queue v d (.getCommand req)])
    | .abortCommands d => some (s, [.abort d .start])
    | .expire n => if s.timer n then some (s.deleteTimer n, [.timedOut n .start]) else none
    | .work =>
      if s.workQueued ∧ s.workerRuns = false then
        some ({ s with workQueued := false, workerRuns := true }, [.worker .start])
      else none
    | .processCompletion n =>
      if n ∈ s.doneCmds then some ({ s with doneCmds := s.doneCmds.erase n }, [.process n])
      else none
  move s p b := p.step s b

abbrev CmdPool := Except CmdFault (Pool CmdState CmdActivity)

abbrev CmdStep : CmdPool → PoolEvent CmdActivity CmdEvent CmdAnswer → CmdPool → Prop :=
  cmdProgram.Step

/-! ## Who holds a command -/

inductive CmdToken where
  /-- The slot has its completion to come. -/
  | need (n : Nat)
  /-- The slot is in use without. -/
  | idle (n : Nat)
  /-- `SCSILinuxAbortCommands` has delayed the completion of the slot. -/
  | aborts (n : Nat)
  /-- `SCSILinuxCmdTimedOut` has, and `linuxSCSIIO_work` is not involved. -/
  | expired (n : Nat)
  /-- `linuxSCSIIO_work` is in use, and not queued. -/
  | work
  /-- The command has no slot. -/
  | call (v : Nat)
deriving DecidableEq, Repr

open CmdToken

def CmdDoneCaller.tokens : CmdDoneCaller → Multiset CmdToken
  | .abort _ todo => todo.map aborts
  | .driver | .worker => 0

def CmdDonePc.token (n : Nat) : CmdDonePc → CmdToken
  | .schedule => .idle n
  | .start | .deleteTimer | .check => .need n

def TimedOutPc.tokens (n : Nat) : TimedOutPc → Multiset CmdToken
  | .start => 0
  | .assign => {.expired n}
  | .initWork | .queueWork => {.work}

def WorkerPc.tokens : WorkerPc → Multiset CmdToken
  | .start => {.work}
  | .aborting n => {.expired n}
  | .finish => 0

def AbortPc.tokens : AbortPc → Multiset CmdToken
  | .start => 0
  | .scan _ abortList | .aborting abortList => abortList.map aborts
  | .complete todo => todo.map aborts

def CmdActivity.tokens : CmdActivity → Multiset CmdToken
  | .queue v _ _ | .deliver v => {.call v}
  | .locked n | .decided n _ | .putBack n | .process n => {.idle n}
  | .driverRefused n | .timerDeleted n | .driver n => {.need n}
  | .cmdDone n pc caller => pc.token n ::ₘ caller.tokens
  | .timedOut n pc => pc.tokens n
  | .worker pc => pc.tokens
  | .abort _ pc => pc.tokens

def cmdTokens (ps : Multiset CmdActivity) : Multiset CmdToken := total CmdActivity.tokens ps

/-- How often the work of `linuxSCSIIO_work` is to be done, or being set up. -/
def CmdState.works (s : CmdState) (T : Multiset CmdToken) : Nat :=
  T.count .work + s.workQueued.toNat

/-- How many are going to clear `VMK_FLAGS_DELAY_CMDDONE` of a slot. -/
def CmdState.owners (s : CmdState) (T : Multiset CmdToken) (n : Nat) : Nat :=
  T.count (.aborts n) + T.count (.expired n) + if s.workScmd = n then s.works T else 0

/-! ## What is promised -/

/-- An accepted command is with the driver, in a call, postponed, or on a list of completed ones,
    and then delivered. -/
def CmdState.AccountedFor (s : CmdState) (T : Multiset CmdToken) (v : Nat) : Prop :=
  v ∈ s.delivered ∨ v ∈ s.refused ∨ .call v ∈ T ∨
    ∃ n ∈ s.live, (s.scmds n).vmkCmd = v ∧
      (.need n ∈ T ∨ .idle n ∈ T ∨ n ∈ s.doneCmds ∨ n ∈ s.postponed)

structure CmdSafe (s : CmdState) (ps : Multiset CmdActivity) : Prop where
  once : s.delivered.Nodup
  refused : ∀ v ∈ s.refused, v ∉ s.delivered
  accounted : ∀ v ∈ s.started, s.AccountedFor (cmdTokens ps) v
  /-- A postponed completion is owned by one abort or timeout. -/
  owned : ∀ n ∈ s.postponed, s.owners (cmdTokens ps) n = 1

/-- A command that times out finds `linuxSCSIIO_work` out of use, and none that the worker is done
    with is in the call of `SCSILinuxCmdDone` of an earlier abort. -/
def CompletesOnce : CmdPool → PoolEvent CmdActivity CmdEvent CmdAnswer → Prop
  | .ok s, .move (.timedOut _ .assign) _ => s.shared.works (cmdTokens s.active) = 0
  | .ok s, .move (.worker (.aborting n)) _ =>
    (s.shared.scmds n).cmdDoneAttempted → n ∈ s.shared.postponed
  | _, _ => True

instance (s : CmdPool) (e : PoolEvent CmdActivity CmdEvent CmdAnswer) :
    Decidable (CompletesOnce s e) := by
  unfold CompletesOnce
  split <;> infer_instance

/-! ## The invariant -/

structure SlotView where
  cmd : Scmd
  need : Nat
  idle : Nat
  aborts : Nat
  expired : Nat
  /-- By way of `linuxSCSIIO_work`. -/
  works : Nat
  postponed : Nat
  done : Nat
  live : Nat

def CmdState.slot (s : CmdState) (T : Multiset CmdToken) (n : Nat) : SlotView where
  cmd := s.scmds n
  need := T.count (.need n)
  idle := T.count (.idle n)
  aborts := T.count (.aborts n)
  expired := T.count (.expired n)
  works := if s.workScmd = n then s.works T else 0
  postponed := s.postponed.count n
  done := s.doneCmds.count n
  live := s.live.count n

structure SlotInv (w : SlotView) : Prop where
  live_le : w.live ≤ 1
  /-- A slot in use is held once. -/
  held : w.need + w.idle + w.postponed + w.done = w.live
  need : w.cmd.needCmdDone = true ↔ 0 < w.need + w.postponed
  delay : w.aborts + w.expired + w.works = w.cmd.delayCmdDone.toNat
  delay_need : w.cmd.delayCmdDone = true → w.cmd.needCmdDone = true
  postponed : 0 < w.postponed → w.cmd.delayCmdDone = true ∧ w.cmd.cmdDoneAttempted = true
  /-- `SCSILinuxAbortCommands` delays no command that has been completed before. -/
  aborts : 0 < w.aborts → w.cmd.cmdDoneAttempted = true → 0 < w.postponed

def CmdState.places (s : CmdState) (T : Multiset CmdToken) (v : Nat) : Nat :=
  T.count (.call v) + (s.live.map fun n => (s.scmds n).vmkCmd).count v + s.delivered.count v +
    s.refused.count v

structure CmdInv (s : CmdState) (T : Multiset CmdToken) : Prop where
  slots : ∀ n, SlotInv (s.slot T n)
  works_le : s.works T ≤ 1
  places : ∀ v, s.places T v = s.started.count v
  started : s.started.Nodup

/-! ## What the steps do -/

open CmdState

section Effects

variable {s s' : CmdState} {T T' : Multiset CmdToken} {n v d : Nat} {x : CmdToken}

theorem CmdState.works_cons (s : CmdState) (x : CmdToken) (T : Multiset CmdToken) :
    s.works (x ::ₘ T) = s.works T + if .work = x then 1 else 0 := by
  simp only [works, Multiset.count_cons]
  omega

/-- Only one slot changes, and the commands of the vmkernel stay where they are. -/
structure SlotMove (n : Nat) (s : CmdState) (T : Multiset CmdToken) (s' : CmdState)
    (T' : Multiset CmdToken) : Prop where
  others : ∀ m, m ≠ n → s'.slot T' m = s.slot T m
  works : s.works T ≤ 1 → s'.works T' ≤ 1
  calls : ∀ v, T'.count (.call v) = T.count (.call v)
  vmkCmd : (s'.scmds n).vmkCmd = (s.scmds n).vmkCmd
  kept : (s'.live, s'.delivered, s'.refused, s'.started) =
    (s.live, s.delivered, s.refused, s.started)

theorem CmdInv.atSlot (h : CmdInv s T) (hmove : SlotMove n s T s' T')
    (hslot : s.works T ≤ 1 → SlotInv (s.slot T n) → SlotInv (s'.slot T' n)) : CmdInv s' T' := by
  have hkept := hmove.kept
  simp only [Prod.mk.injEq] at hkept
  obtain ⟨hlive, hdelivered, hrefused, hstarted⟩ := hkept
  refine ⟨?_, hmove.works h.works_le, ?_, ?_⟩
  · intro m
    by_cases hm : m = n
    · rw [hm]
      exact hslot h.works_le (h.slots n)
    · rw [hmove.others m hm]
      exact h.slots m
  · intro v
    have hsame : (fun m => (s'.scmds m).vmkCmd) = fun m => (s.scmds m).vmkCmd := by
      funext m
      by_cases hm : m = n
      · rw [hm, hmove.vmkCmd]
      · have hcmd : s'.scmds m = s.scmds m := congrArg SlotView.cmd (hmove.others m hm)
        rw [hcmd]
    have hplaces := h.places v
    rw [CmdState.places] at hplaces ⊢
    rw [hmove.calls, hsame, hlive, hdelivered, hrefused, hstarted]
    exact hplaces
  · rw [hstarted]
    exact h.started

theorem CmdInv.setNeed (h : CmdInv s (.idle n ::ₘ T)) : CmdInv (s.setNeed n) (.need n ::ₘ T) := by
  refine h.atSlot (n := n) ?_ ?_
  · constructor <;>
      simp +contextual [slot, works, CmdState.setNeed, CmdState.modify]
  · rintro - ⟨hlive, hheld, hneed, hdelay, hdelayNeed, hpostponed, haborts⟩
    simp [slot, works, CmdState.setNeed, CmdState.modify] at *
    constructor <;> grind

theorem CmdInv.clearNeed (h : CmdInv s (.need n ::ₘ T))
    (hdelayed : (s.scmds n).delayCmdDone = false) :
    CmdInv (s.clearNeed n) (.idle n ::ₘ T) := by
  refine h.atSlot (n := n) ?_ ?_
  · constructor <;>
      simp +contextual [slot, works, CmdState.clearNeed, CmdState.modify]
  · rintro - ⟨hlive, hheld, hneed, hdelay, hdelayNeed, hpostponed, haborts⟩
    simp [slot, works, CmdState.clearNeed, CmdState.modify] at *
    constructor <;> grind

theorem CmdInv.postpone (h : CmdInv s (.need n ::ₘ T))
    (hdelayed : (s.scmds n).delayCmdDone = true) : CmdInv (s.postpone n) T := by
  refine h.atSlot (n := n) ?_ ?_
  · constructor <;>
      simp +contextual [slot, works, CmdState.postpone, CmdState.modify, eq_comm]
  · rintro - ⟨hlive, hheld, hneed, hdelay, hdelayNeed, hpostponed, haborts⟩
    simp [slot, works, CmdState.postpone, CmdState.modify] at *
    constructor <;> grind

theorem CmdInv.scheduleCompletion (h : CmdInv s (.idle n ::ₘ T)) :
    CmdInv (s.scheduleCompletion n) T := by
  refine h.atSlot (n := n) ?_ ?_
  · constructor <;>
      simp +contextual [slot, works, CmdState.scheduleCompletion, eq_comm]
  · rintro - ⟨hlive, hheld, hneed, hdelay, hdelayNeed, hpostponed, haborts⟩
    simp [slot, works, CmdState.scheduleCompletion] at *
    constructor <;> grind

theorem CmdInv.takeDone (h : CmdInv s T) (hn : n ∈ s.doneCmds) :
    CmdInv { s with doneCmds := s.doneCmds.erase n } (.idle n ::ₘ T) := by
  have hcount := List.count_pos_iff.mpr hn
  refine h.atSlot (n := n) ?_ ?_
  · constructor <;>
      simp +contextual [slot, works, List.count_erase_of_ne]
  · rintro - ⟨hlive, hheld, hneed, hdelay, hdelayNeed, hpostponed, haborts⟩
    simp [slot, works] at *
    constructor <;> grind

theorem CmdInv.setDelay (h : CmdInv s T)
    (hx : x = .aborts n ∧ (s.scmds n).cmdDoneAttempted = false ∨ x = .expired n)
    (hneeded : (s.scmds n).needCmdDone = true) (hfree : (s.scmds n).delayCmdDone = false) :
    CmdInv (s.setDelay n) (x ::ₘ T) := by
  rcases hx with ⟨rfl, hattempted⟩ | rfl
  all_goals
    refine h.atSlot (n := n) ?_ ?_
    · constructor <;>
        simp +contextual [slot, works, CmdState.setDelay, CmdState.modify]
    · rintro - ⟨hlive, hheld, hneed, hdelay, hdelayNeed, hpostponed, haborts⟩
      simp [slot, works, CmdState.setDelay, CmdState.modify] at *
      constructor <;> grind

theorem CmdInv.clearDelay (h : CmdInv s (x ::ₘ T)) (hx : x = .aborts n ∨ x = .expired n)
    (hattempted : (s.scmds n).cmdDoneAttempted = false) : CmdInv (s.clearDelay n) T := by
  have hone := Bool.toNat_le (s.scmds n).delayCmdDone
  rcases hx with rfl | rfl
  all_goals
    refine h.atSlot (n := n) ?_ ?_
    · constructor <;>
        simp +contextual [slot, works, CmdState.clearDelay, CmdState.modify,
          List.count_erase_of_ne, eq_comm]
    · rintro - ⟨hlive, hheld, hneed, hdelay, hdelayNeed, hpostponed, haborts⟩
      simp [slot, works, CmdState.clearDelay, CmdState.modify] at *
      constructor <;> grind

theorem CmdInv.resumeDone (h : CmdInv s (x ::ₘ T)) (hx : x = .aborts n ∨ x = .expired n)
    (hpost : n ∈ s.postponed) : CmdInv (s.clearDelay n) (.need n ::ₘ T) := by
  have hone := Bool.toNat_le (s.scmds n).delayCmdDone
  have hcount := List.count_pos_iff.mpr hpost
  rcases hx with rfl | rfl
  all_goals
    refine h.atSlot (n := n) ?_ ?_
    · constructor <;>
        simp +contextual [slot, works, CmdState.clearDelay, CmdState.modify, List.count_erase_of_ne]
    · rintro - ⟨hlive, hheld, hneed, hdelay, hdelayNeed, hpostponed, haborts⟩
      simp [slot, works, CmdState.clearDelay, CmdState.modify] at *
      constructor <;> grind

theorem CmdInv.assign (h : CmdInv s (.expired n ::ₘ T)) (hfree : s.works T = 0) :
    CmdInv { s with workScmd := n } (.work ::ₘ T) := by
  have hnone : T.count .work + s.workQueued.toNat = 0 := hfree
  refine h.atSlot (n := n) ⟨?_, ?_, by simp, rfl, rfl⟩ ?_
  · intro m hm
    simp [slot, works, hm, Ne.symm hm]
    omega
  · simp only [works, Multiset.count_cons_self]
    omega
  · rintro - ⟨hlive, hheld, hneed, hdelay, hdelayNeed, hpostponed, haborts⟩
    simp only [slot, works, Multiset.count_cons, reduceCtorEq, if_true, if_false, add_zero] at *
    constructor <;> grind

theorem CmdInv.readWork (h : CmdInv s (.work ::ₘ T)) : CmdInv s (.expired s.workScmd ::ₘ T) := by
  refine h.atSlot (n := s.workScmd) ?_ ?_
  · constructor <;> simp +contextual [slot, works, eq_comm]
    omega
  · rintro hworks ⟨hlive, hheld, hneed, hdelay, hdelayNeed, hpostponed, haborts⟩
    simp [slot, works] at *
    constructor <;> grind

theorem CmdInv.same (h : CmdInv s T) (hslots : ∀ n, s'.slot T' n = s.slot T n)
    (hworks : s'.works T' = s.works T) (hcalls : ∀ v, T'.count (.call v) = T.count (.call v))
    (hkept : (s'.live, s'.delivered, s'.refused, s'.started) =
      (s.live, s.delivered, s.refused, s.started)) : CmdInv s' T' := by
  have hcmd : s'.scmds 0 = s.scmds 0 := congrArg SlotView.cmd (hslots 0)
  apply h.atSlot (n := 0) ⟨fun m _ => hslots m, by simp [hworks], hcalls, by rw [hcmd], hkept⟩
  rw [hslots]
  exact fun _ hslot => hslot

theorem CmdInv.aside (h : CmdInv s T) (timer : Nat → Bool) (cmdList : Nat → List Nat)
    (listLocked : Nat → Bool) (workerRuns : Bool) :
    CmdInv { s with timer, cmdList, listLocked, workerRuns } T :=
  h.same (fun _ => rfl) rfl (fun _ => rfl) rfl

theorem CmdInv.queueWork (h : CmdInv s (.work ::ₘ T)) : CmdInv { s with workQueued := true } T := by
  have hworks := h.works_le
  have hnone : (Multiset.count .work (.work ::ₘ T)) + s.workQueued.toNat ≤ 1 := hworks
  rw [Multiset.count_cons_self] at hnone
  have heq : works { s with workQueued := true } T = s.works (.work ::ₘ T) := by
    simp only [works, Multiset.count_cons_self, Bool.toNat_true]
    omega
  apply h.same
  · simp [slot, heq]
  · exact heq
  · simp
  · rfl

theorem CmdInv.startWork (h : CmdInv s T) (hqueued : s.workQueued = true) :
    CmdInv { s with workQueued := false, workerRuns := true } (.work ::ₘ T) := by
  have heq : works { s with workQueued := false, workerRuns := true } (.work ::ₘ T) =
      s.works T := by
    simp [works, hqueued]
  apply h.same
  · simp [slot, heq]
  · exact heq
  · simp
  · rfl

theorem CmdInv.setTimeout (h : CmdInv s T) (b : Bool) :
    CmdInv (s.modify n fun c => { c with ioTimeout := b }) T := by
  refine h.atSlot (n := n) ⟨?_, id, fun _ => rfl, by simp [CmdState.modify], rfl⟩ ?_
  · intro m hm
    simp [slot, works, CmdState.modify, hm]
    rfl
  · rintro - ⟨hlive, hheld, hneed, hdelay, hdelayNeed, hpostponed, haborts⟩
    simp only [slot, works, CmdState.modify, Function.update_self] at *
    exact ⟨hlive, hheld, hneed, hdelay, hdelayNeed, hpostponed, haborts⟩

theorem CmdInv.getCommand (h : CmdInv s (.call v ::ₘ T)) (hn : n ∉ s.live) :
    CmdInv (s.getCommand v d n) (.idle n ::ₘ T) := by
  have hcount := List.count_eq_zero.mpr hn
  refine ⟨?_, ?_, ?_, h.started⟩
  · intro m
    obtain ⟨hlive, hheld, hneed, hdelay, hdelayNeed, hpostponed, haborts⟩ := h.slots m
    by_cases hm : m = n
    · subst hm
      simp [slot, works, CmdState.getCommand] at *
      constructor <;> grind
    · simp only [slot, works, CmdState.getCommand, Function.update_of_ne hm,
        Multiset.count_cons, List.count_cons_of_ne (Ne.symm hm), reduceCtorEq,
        idle.injEq, hm, if_false, add_zero] at *
      exact ⟨hlive, hheld, hneed, hdelay, hdelayNeed, hpostponed, haborts⟩
  · have hworks := h.works_le
    rw [works_cons] at hworks ⊢
    exact hworks
  · intro w
    have hplaces := h.places w
    have hmap : (s.live.map fun m => ((s.getCommand v d n).scmds m).vmkCmd) =
        s.live.map fun m => (s.scmds m).vmkCmd := by
      apply List.map_congr_left
      intro m hm
      have hne : m ≠ n := fun heq => hn (heq ▸ hm)
      simp [CmdState.getCommand, hne]
    simp only [CmdState.places, Multiset.count_cons, reduceCtorEq, if_false, add_zero] at hplaces ⊢
    have hlive : (s.getCommand v d n).live = n :: s.live := rfl
    have hfirst : ((s.getCommand v d n).scmds n).vmkCmd = v := by simp [CmdState.getCommand]
    rw [hlive, List.map_cons, hmap, hfirst, List.count_cons]
    simp only [call.injEq] at hplaces
    simp only [CmdState.getCommand, beq_iff_eq, eq_comm (a := v)]
    omega

theorem CmdInv.putCommand (h : CmdInv s (.idle n ::ₘ T)) :
    CmdInv (s.putCommand n) (.call (s.scmds n).vmkCmd ::ₘ T) := by
  have hmem : n ∈ s.live := by
    have hheld : _ = s.live.count n := (h.slots n).held
    simp only [slot, Multiset.count_cons_self] at hheld
    apply List.count_pos_iff.mp
    omega
  refine ⟨?_, ?_, ?_, h.started⟩
  · intro m
    obtain ⟨hlive, hheld, hneed, hdelay, hdelayNeed, hpostponed, haborts⟩ := h.slots m
    by_cases hm : m = n
    · subst hm
      simp [slot, works, CmdState.putCommand] at *
      constructor <;> grind
    · simp only [slot, works, CmdState.putCommand, Multiset.count_cons,
        List.count_erase_of_ne hm, reduceCtorEq, idle.injEq, hm, if_false, add_zero] at *
      exact ⟨hlive, hheld, hneed, hdelay, hdelayNeed, hpostponed, haborts⟩
  · have hworks := h.works_le
    rw [works_cons] at hworks ⊢
    exact hworks
  · intro w
    have hplaces := h.places w
    have hperm := ((List.perm_cons_erase hmem).map fun m => (s.scmds m).vmkCmd).count_eq w
    rw [List.map_cons, List.count_cons] at hperm
    simp only [CmdState.places, Multiset.count_cons, reduceCtorEq, if_false, add_zero] at hplaces ⊢
    simp only [call.injEq, CmdState.putCommand, beq_iff_eq, eq_comm (a := w)] at hperm ⊢
    omega

theorem CmdInv.replace (h : CmdInv s T) (hslots : ∀ n, s'.slot T' n = s.slot T n)
    (hworks : s'.works T' = s.works T)
    (hplaces : ∀ v, s.places T v = s.started.count v → s'.places T' v = s'.started.count v)
    (hstarted : s'.started.Nodup) : CmdInv s' T' := by
  refine ⟨?_, ?_, fun v => hplaces v (h.places v), hstarted⟩
  · intro m
    rw [hslots]
    exact h.slots m
  · rw [hworks]
    exact h.works_le

theorem CmdInv.refuse (h : CmdInv s (.call v ::ₘ T)) : CmdInv (s.refuse v) T := by
  refine h.replace ?_ ?_ ?_ h.started
  · intro m
    simp [slot, works, CmdState.refuse]
    rfl
  · simp [works, CmdState.refuse]
  · intro w hw
    simp only [CmdState.places, CmdState.refuse, Multiset.count_cons, List.count_cons,
      call.injEq, beq_iff_eq, eq_comm (a := v)] at hw ⊢
    omega

theorem CmdInv.deliver (h : CmdInv s (.call v ::ₘ T)) : CmdInv (s.deliver v) T := by
  refine h.replace ?_ ?_ ?_ h.started
  · intro m
    simp [slot, works, CmdState.deliver]
    rfl
  · simp [works, CmdState.deliver]
  · intro w hw
    simp only [CmdState.places, CmdState.deliver, Multiset.count_cons, List.count_cons,
      call.injEq, beq_iff_eq, eq_comm (a := v)] at hw ⊢
    omega

theorem CmdInv.begin (h : CmdInv s T) (hv : v ∉ s.started) :
    CmdInv { s with started := v :: s.started } (.call v ::ₘ T) := by
  refine h.replace ?_ ?_ ?_ (List.nodup_cons.mpr ⟨hv, h.started⟩)
  · simp [slot, works]
  · simp [works]
  · intro w hw
    simp only [CmdState.places, Multiset.count_cons, List.count_cons,
      call.injEq, beq_iff_eq, eq_comm (a := v)] at hw ⊢
    omega

end Effects

/-! ## Every step -/

section Steps

variable {s : CmdState} {rest : Multiset CmdActivity} {b : CmdAnswer} {n : Nat} {p : CmdActivity}
  {caller : CmdDoneCaller} {active : Multiset CmdActivity}

theorem cmdTokens_nil (rest : Multiset CmdActivity) :
    cmdTokens (([] : List CmdActivity) + rest) = cmdTokens rest := by
  rw [Multiset.coe_nil, zero_add]

theorem cmdTokens_cons (p : CmdActivity) (rest : Multiset CmdActivity) :
    cmdTokens (p ::ₘ rest) = p.tokens + cmdTokens rest :=
  total_cons ..

theorem cmdTokens_single (p : CmdActivity) (rest : Multiset CmdActivity) :
    cmdTokens (([p] : List CmdActivity) + rest) = p.tokens + cmdTokens rest := by
  rw [Multiset.coe_singleton, Multiset.singleton_add, cmdTokens_cons]

theorem cmdTokens_resume (caller : CmdDoneCaller) (rest : Multiset CmdActivity) :
    cmdTokens (caller.resume + rest) = caller.tokens + cmdTokens rest := by
  cases caller with
  | driver => exact (cmdTokens_nil rest).trans (zero_add _).symm
  | worker => exact cmdTokens_single _ rest
  | abort d todo => exact cmdTokens_single _ rest

def CmdKept (rest : Multiset CmdActivity) (o : CmdResult) : Prop :=
  ∃ t ps, o = .ok (t, ps) ∧ CmdInv t (cmdTokens (ps + rest))

theorem CmdKept.single (h : CmdInv s (p.tokens + cmdTokens rest)) :
    CmdKept rest (.ok (s, [p])) := by
  refine ⟨s, [p], rfl, ?_⟩
  rw [cmdTokens_single]
  exact h

theorem CmdKept.nil (h : CmdInv s (cmdTokens rest)) : CmdKept rest (.ok (s, [])) := by
  refine ⟨s, [], rfl, ?_⟩
  rw [cmdTokens_nil]
  exact h

theorem CmdKept.resume (h : CmdInv s (caller.tokens + cmdTokens rest)) :
    CmdKept rest (.ok (s, caller.resume)) := by
  refine ⟨s, caller.resume, rfl, ?_⟩
  rw [cmdTokens_resume]
  exact h

theorem CmdInv.checkDone (h : CmdInv s (.need n ::ₘ (caller.tokens + cmdTokens rest))) :
    CmdKept rest (s.checkDone n caller) := by
  have hneed : (s.scmds n).needCmdDone = true := by
    apply (h.slots n).need.mpr
    simp only [slot, Multiset.count_cons_self]
    omega
  rw [CmdState.checkDone, if_neg (by simp [hneed])]
  split
  · next hdelay => exact .resume (h.postpone hdelay)
  · next hdelay =>
    apply CmdKept.single
    have hclear := h.clearNeed (by simpa using hdelay)
    exact (Multiset.cons_add ..) ▸ hclear

theorem CmdInv.decide (h : CmdInv s (.idle n ::ₘ cmdTokens rest)) (verdict : QueueVerdict) :
    CmdKept rest (s.decide n b verdict) := by
  cases verdict with
  | noMemory => exact .single h
  | wouldBlock => exact .single h
  | gone => exact .single h
  | complete => exact .single h.setNeed
  | issue =>
    have htimer : CmdInv (if b.ioTimeout then (s.setNeed n).addTimer n else s.setNeed n)
        (.need n ::ₘ cmdTokens rest) := by
      split
      · have htimeout := h.setNeed.setTimeout (n := n) true
        exact htimeout.aside ..
      · exact h.setNeed
    simp only [CmdState.decide]
    generalize (if b.ioTimeout then (s.setNeed n).addTimer n else s.setNeed n) = t at htimer ⊢
    split
    · exact .single htimer
    · exact .single htimer

theorem scan_tokens_append (d n : Nat) (todo abortList : List Nat) (T : Multiset CmdToken) :
    (CmdActivity.abort d (.scan todo (abortList ++ [n]))).tokens + T =
      .aborts n ::ₘ ((CmdActivity.abort d (.scan (n :: todo) abortList)).tokens + T) := by
  simp only [CmdActivity.tokens, AbortPc.tokens, List.map_append, List.map_cons, List.map_nil,
    ← Multiset.coe_add, Multiset.coe_singleton]
  rw [add_right_comm, add_comm, Multiset.singleton_add]

theorem CmdInv.move {o : CmdResult} (h : CmdInv s (cmdTokens (p ::ₘ rest)))
    (hguard : CompletesOnce (.ok ⟨s, p ::ₘ rest⟩) (.move p b)) (hmove : p.step s b = some o) :
    CmdKept rest o := by
  rw [cmdTokens_cons] at h
  cases p with
  | queue v d pc =>
    have hcall : CmdInv s (.call v ::ₘ cmdTokens rest) := h
    simp only [CmdActivity.step] at hmove
    split at hmove
    · cases hmove
      exact .single h
    · cases hmove
      exact .nil hcall.refuse
    · cases hmove
      exact .single h
    · split at hmove
      · cases hmove
      · next hfree =>
        rw [not_or] at hfree
        cases hmove
        split
        · exact .single (hcall.getCommand hfree.1)
        · exact .single (hcall.getCommand hfree.1)
  | locked n =>
    cases hmove
    exact CmdInv.decide h _
  | decided n verdict =>
    cases hmove
    exact CmdInv.decide h verdict
  | putBack n =>
    have hput : CmdInv (s.putCommand n) (.call (s.scmds n).vmkCmd ::ₘ cmdTokens rest) :=
      CmdInv.putCommand h
    obtain ⟨-, ⟨⟩⟩ := Option.ite_none_left_eq_some.mp hmove
    exact .nil hput.refuse
  | driverRefused n =>
    cases hmove
    split
    · exact .single (h.aside ..)
    · exact .single h
  | timerDeleted n =>
    -- nobody else can have completed the command
    have hneed : (s.scmds n).needCmdDone = true := by
      apply (h.slots n).need.mpr
      simp only [slot, CmdActivity.tokens, Multiset.singleton_add, Multiset.count_cons_self]
      omega
    simp only [CmdActivity.step, hneed, if_true] at hmove
    cases hmove
    exact .single h
  | driver n =>
    cases hmove
    exact .single h
  | cmdDone n pc caller =>
    have htokens : (CmdActivity.cmdDone n pc caller).tokens + cmdTokens rest =
        pc.token n ::ₘ (caller.tokens + cmdTokens rest) := Multiset.cons_add ..
    rw [htokens] at h
    cases pc with
    | start =>
      simp only [CmdActivity.step] at hmove
      cases hmove
      split
      · exact .single (htokens ▸ h)
      · exact CmdInv.checkDone h
    | deleteTimer =>
      cases hmove
      have hsame : CmdInv (s.deleteTimer n) (.need n ::ₘ (caller.tokens + cmdTokens rest)) :=
        h.aside ..
      exact .single (htokens ▸ hsame)
    | check =>
      cases hmove
      exact CmdInv.checkDone h
    | schedule =>
      cases hmove
      exact .resume (CmdInv.scheduleCompletion h)
  | timedOut n pc =>
    cases pc with
    | start =>
      have hnone : CmdInv s (cmdTokens rest) := (zero_add (cmdTokens rest)) ▸ h
      have htimeout := hnone.setTimeout (n := n) false
      cases hmove
      split
      · next hneed =>
        apply CmdKept.single
        apply htimeout.setDelay (.inr rfl)
        · simpa [CmdState.modify] using hneed.1
        · simpa [CmdState.modify] using hneed.2
      · exact .nil htimeout
    | assign =>
      have hfree : s.works (.expired n ::ₘ cmdTokens rest) = 0 := by
        have hworks : s.works (cmdTokens (.timedOut n .assign ::ₘ rest)) = 0 := hguard
        rwa [cmdTokens_cons] at hworks
      rw [works_cons] at hfree
      cases hmove
      exact .single (CmdInv.assign h (by omega))
    | initWork =>
      -- the work is this one's, so it is not queued
      have hworks : s.works (.work ::ₘ cmdTokens rest) ≤ 1 := h.works_le
      simp only [works, Multiset.count_cons_self] at hworks
      have hqueued : s.workQueued = false := by
        cases hq : s.workQueued with
        | false => rfl
        | true =>
          rw [hq, Bool.toNat_true] at hworks
          omega
      simp only [CmdActivity.step, hqueued, Bool.false_eq_true, if_false] at hmove
      cases hmove
      exact .single h
    | queueWork =>
      cases hmove
      exact .nil (CmdInv.queueWork h)
  | worker pc =>
    cases pc with
    | start =>
      cases hmove
      exact .single (CmdInv.readWork h)
    | aborting n =>
      cases hmove
      have howned : CmdInv s (.expired n ::ₘ cmdTokens rest) := h
      split
      · next hattempted =>
        have hneed := howned.resumeDone (.inr rfl) (hguard hattempted)
        exact .single hneed
      · next hattempted =>
        have hclear := howned.clearDelay (.inr rfl) (by simpa using hattempted)
        exact .single ((zero_add (cmdTokens rest)).symm ▸ hclear)
    | finish =>
      cases hmove
      have hnone : CmdInv s (cmdTokens rest) := (zero_add (cmdTokens rest)) ▸ h
      exact .nil (hnone.aside ..)
  | abort d pc =>
    cases pc with
    | start =>
      obtain ⟨-, ⟨⟩⟩ := Option.ite_none_left_eq_some.mp hmove
      exact .single (h.aside ..)
    | scan todo abortList =>
      cases todo with
      | nil =>
        cases hmove
        exact .single (h.aside ..)
      | cons n todo =>
        cases hmove
        split
        · next hcond =>
          have hdelay := h.setDelay (.inl ⟨rfl, hcond.2.1⟩) hcond.1 hcond.2.2.2
          have hlist : CmdInv { s.setDelay n with
              cmdList := Function.update s.cmdList d ((s.cmdList d).erase n) } _ :=
            hdelay.aside ..
          apply CmdKept.single
          rw [scan_tokens_append]
          exact hlist
        · exact .single h
    | aborting abortList =>
      obtain ⟨-, ⟨⟩⟩ := Option.ite_none_left_eq_some.mp hmove
      exact .single (h.aside ..)
    | complete todo =>
      cases todo with
      | nil =>
        cases hmove
        have hnone : CmdInv s (cmdTokens rest) := (zero_add (cmdTokens rest)) ▸ h
        exact .nil (hnone.aside ..)
      | cons n todo =>
        have howned : CmdInv s (.aborts n ::ₘ
            ((AbortPc.complete todo).tokens + cmdTokens rest)) := by
          rw [← Multiset.cons_add]
          exact h
        cases hmove
        split
        · next hattempted =>
          -- the command had not been completed when it was delayed
          have hpost : n ∈ s.postponed := by
            apply List.count_pos_iff.mp
            apply (howned.slots n).aborts _ hattempted
            simp only [slot, Multiset.count_cons_self]
            omega
          have hneed := howned.resumeDone (.inl rfl) hpost
          have hlist : CmdInv { s.clearDelay n with
              cmdList := Function.update s.cmdList d (s.cmdList d ++ [n]) } _ :=
            hneed.aside ..
          apply CmdKept.single
          have htokens : (CmdActivity.cmdDone n .start (.abort d todo)).tokens +
              cmdTokens rest = .need n ::ₘ ((AbortPc.complete todo).tokens + cmdTokens rest) := by
            rw [← Multiset.cons_add]
            rfl
          rw [htokens]
          exact hlist
        · next hattempted =>
          have hclear := howned.clearDelay (.inl rfl) (by simpa using hattempted)
          exact .single (hclear.aside ..)
  | process n =>
    have hput : CmdInv (s.putCommand n) (.call (s.scmds n).vmkCmd ::ₘ cmdTokens rest) :=
      CmdInv.putCommand h
    obtain ⟨-, ⟨⟩⟩ := Option.ite_none_left_eq_some.mp hmove
    exact .single hput
  | deliver v =>
    have hcall : CmdInv s (.call v ::ₘ cmdTokens rest) := h
    cases hmove
    exact .nil hcall.deliver

theorem CmdInv.start {e : CmdEvent} {t : CmdState} {ps : List CmdActivity}
    (h : CmdInv s (cmdTokens active)) (hbegin : cmdProgram.begin s e = some (t, ps)) :
    CmdInv t (cmdTokens (ps + active)) := by
  cases e with
  | queueCommand v d req =>
    simp only [cmdProgram] at hbegin
    split at hbegin
    · cases hbegin
    · next hnew =>
      cases hbegin
      rw [cmdTokens_single]
      exact h.begin hnew
  | abortCommands d =>
    cases hbegin
    rw [cmdTokens_single]
    exact (zero_add (cmdTokens active)).symm ▸ h
  | expire n =>
    simp only [cmdProgram] at hbegin
    split at hbegin
    · cases hbegin
      rw [cmdTokens_single]
      have htimer : CmdInv (s.deleteTimer n) (cmdTokens active) := h.aside ..
      exact (zero_add (cmdTokens active)).symm ▸ htimer
    · cases hbegin
  | work =>
    simp only [cmdProgram] at hbegin
    split at hbegin
    · next hqueued =>
      cases hbegin
      rw [cmdTokens_single]
      exact h.startWork hqueued.1
    · cases hbegin
  | processCompletion n =>
    simp only [cmdProgram] at hbegin
    split at hbegin
    · next hmem =>
      cases hbegin
      rw [cmdTokens_single]
      exact h.takeDone hmem
    · cases hbegin

theorem CmdInv.safe (h : CmdInv s (cmdTokens active)) : CmdSafe s active := by
  have hone : ∀ v, s.places (cmdTokens active) v ≤ 1 := by
    intro v
    rw [h.places]
    exact List.nodup_iff_count_le_one.mp h.started v
  simp only [CmdState.places] at hone
  refine ⟨?_, ?_, ?_, ?_⟩
  · rw [List.nodup_iff_count_le_one]
    intro v
    have hv := hone v
    omega
  · intro v hrefused hdelivered
    have hv := hone v
    have hr := List.count_pos_iff.mpr hrefused
    have hd := List.count_pos_iff.mpr hdelivered
    omega
  · intro v hstarted
    have hplaces := h.places v
    have hpos := List.count_pos_iff.mpr hstarted
    rw [← hplaces, CmdState.places] at hpos
    by_cases hcall : call v ∈ cmdTokens active
    · exact .inr (.inr (.inl hcall))
    by_cases hdelivered : v ∈ s.delivered
    · exact .inl hdelivered
    by_cases hrefused : v ∈ s.refused
    · exact .inr (.inl hrefused)
    rw [Multiset.count_eq_zero.mpr hcall, List.count_eq_zero.mpr hdelivered,
      List.count_eq_zero.mpr hrefused] at hpos
    have hmem : v ∈ s.live.map fun n => (s.scmds n).vmkCmd := List.count_pos_iff.mp (by omega)
    -- a slot in use is held by somebody
    obtain ⟨n, hlive, hv⟩ := List.mem_map.mp hmem
    refine .inr (.inr (.inr ⟨n, hlive, hv, ?_⟩))
    have hheld : _ = s.live.count n := (h.slots n).held
    have hcount := List.count_pos_iff.mpr hlive
    simp only [slot] at hheld
    by_contra hnone
    simp only [not_or] at hnone
    obtain ⟨hneed, hidle, hdone, hpost⟩ := hnone
    rw [Multiset.count_eq_zero.mpr hneed, Multiset.count_eq_zero.mpr hidle,
      List.count_eq_zero.mpr hdone, List.count_eq_zero.mpr hpost] at hheld
    omega
  · intro n hpost
    have hslot := h.slots n
    have hdelay := (hslot.postponed (List.count_pos_iff.mpr hpost)).1
    have howners : s.owners (cmdTokens active) n = (s.scmds n).delayCmdDone.toNat := hslot.delay
    have htrue : (s.scmds n).delayCmdDone = true := hdelay
    rw [howners, htrue, Bool.toNat_true]

theorem cmdInv_start : CmdInv {} (cmdTokens 0) := by
  refine ⟨?_, ?_, ?_, List.nodup_nil⟩
  · intro n
    constructor <;> simp [slot, works, cmdTokens]
  · simp [works, cmdTokens]
  · intro v
    simp [places, cmdTokens]

end Steps

/-! ## Every run -/

theorem cmdStep_keeps {r t : CmdPool} {e : PoolEvent CmdActivity CmdEvent CmdAnswer}
    (h : Program.Holds (fun s active => CmdInv s (cmdTokens active)) r)
    (hstep : Guarded CmdStep CompletesOnce r e t) :
    Program.Holds (fun s active => CmdInv s (cmdTokens active)) t := by
  obtain ⟨hguard, hstep⟩ := hstep
  rcases Program.step_cases hstep with ⟨s, ev, u, ps, rfl, rfl, hbegin, rfl⟩ |
    ⟨s, p, b, rest, o, rfl, rfl, hmove, rfl⟩
  · exact CmdInv.start h hbegin
  · obtain ⟨u, ps, rfl, hkept⟩ := CmdInv.move h hguard hmove
    exact hkept

/-- **Completion.** As long as no command that times out finds `linuxSCSIIO_work` in use, and the
    worker meets no completion of an earlier abort, every command is delivered at most once, and
    never if it was refused, and no accepted command is lost. -/
theorem completed_once_of_run {s : CmdPool} {es : List (PoolEvent CmdActivity CmdEvent CmdAnswer)}
    (hrun : Run (Guarded CmdStep CompletesOnce) (.ok ⟨{}, 0⟩) es s) : Program.Holds CmdSafe s := by
  have hinv : Program.Holds (fun s active => CmdInv s (cmdTokens active)) s :=
    hrun.invariant (fun _ _ _ h hstep => cmdStep_keeps h hstep)
      (show CmdInv {} (cmdTokens 0) from cmdInv_start)
  cases s with
  | error f => exact hinv
  | ok s => exact CmdInv.safe hinv

/-- A command that times out while the driver completes it, one that is aborted, and one for which
    there is no memory. -/
def timedOutRun : List (PoolEvent CmdActivity CmdEvent CmdAnswer) :=
  [.begin (.queueCommand 0 0 {}), .move (.queue 0 0 (.getCommand {})) {},
    .move (.locked 0) { ioTimeout := true }, .begin (.expire 0), .move (.timedOut 0 .start) {},
    .move (.driver 0) {}, .move (.cmdDone 0 .start .driver) {}, .move (.timedOut 0 .assign) {},
    .move (.timedOut 0 .initWork) {}, .move (.timedOut 0 .queueWork) {}, .begin .work,
    .move (.worker .start) {}, .move (.worker (.aborting 0)) {},
    .begin (.queueCommand 1 0 {}), .move (.queue 1 0 (.getCommand {})) { slot := 1 },
    .move (.locked 1) {}, .begin (.abortCommands 0), .move (.abort 0 .start) {},
    .move (.abort 0 (.scan [0, 1] [])) { selected := false }, .move (.abort 0 (.scan [1] [])) {},
    .move (.abort 0 (.scan [] [1])) {}, .move (.driver 1) {},
    .move (.cmdDone 1 .start .driver) {}, .move (.abort 0 (.aborting [1])) {},
    .move (.abort 0 (.complete [1])) {}, .move (.cmdDone 1 .start (.abort 0 [])) {},
    .move (.cmdDone 1 .schedule (.abort 0 [])) {}, .move (.abort 0 (.complete [])) {},
    .move (.cmdDone 0 .start .worker) {}, .move (.cmdDone 0 .schedule .worker) {},
    .move (.worker .finish) {}, .begin (.processCompletion 1), .move (.process 1) {},
    .move (.deliver 1) {}, .begin (.queueCommand 2 0 { sgArray := false }),
    .move (.queue 2 0 (.getCommand { sgArray := false })) { slot := 1 },
    .move (.decided 1 .noMemory) {}, .move (.putBack 1) {}, .begin (.processCompletion 0),
    .move (.process 0) {}, .move (.deliver 0) {}]

theorem completed_once_timedOutRun :
    ∃ s, Run CmdStep (.ok ⟨{}, 0⟩) timedOutRun (.ok s) ∧ s.active = 0 ∧
      s.shared.delivered = [0, 1] ∧ s.shared.refused = [2] ∧
      Program.Holds CmdSafe (.ok s : CmdPool) := by
  have hexec : ∃ s, Run.exec
      (fun s e => if CompletesOnce s e then cmdProgram.next? s e else none)
      (.ok ⟨{}, 0⟩) timedOutRun = some (.ok s) ∧ s.active = 0 ∧ s.shared.delivered = [0, 1] ∧
        s.shared.refused = [2] := ⟨_, rfl, rfl, rfl, rfl⟩
  obtain ⟨s, hs, hactive, hdelivered, hrefused⟩ := hexec
  have hsound : ∀ s e t, (if CompletesOnce s e then cmdProgram.next? s e else none) = some t →
      Guarded CmdStep CompletesOnce s e t := by
    intro s e t h
    exact (guarded_eq_some_iff (T := CmdStep) (fun _ _ _ => Iff.rfl) s e t).mp h
  have hguarded := Run.of_exec hsound hs
  exact ⟨s, hguarded.mono fun _ _ _ h => h.2, hactive, hdelivered, hrefused,
    completed_once_of_run hguarded⟩

/-- Two commands time out together, the worker gets the second one both times, and the completion
    of the first one stays postponed with nothing left to be done.  And the worker completes a
    command that the last loop of an abort is about to complete. -/
theorem delayed_completion_lost :
    (∃ es s, Run CmdStep (.ok ⟨{}, 0⟩) es (.ok s) ∧ s.active = 0 ∧ s.shared.workQueued = false ∧
      s.shared.doneCmds = [] ∧ s.shared.postponed = [0] ∧ s.shared.delivered = [1] ∧
      (s.shared.scmds 0).vmkCmd = 0 ∧ ¬CmdSafe s.shared s.active) ∧
    ∃ es, Run CmdStep (.ok ⟨{}, 0⟩) es (.error .doubleCompletion) := by
  have hlost : ∃ s, Run CmdStep (.ok ⟨{}, 0⟩)
      [.begin (.queueCommand 0 0 {}), .move (.queue 0 0 (.getCommand {})) {},
        .move (.locked 0) { ioTimeout := true },
        .begin (.queueCommand 1 0 {}), .move (.queue 1 0 (.getCommand {})) { slot := 1 },
        .move (.locked 1) { ioTimeout := true }, .begin (.expire 0), .begin (.expire 1),
        .move (.timedOut 0 .start) {}, .move (.timedOut 0 .assign) {},
        .move (.timedOut 1 .start) {}, .move (.timedOut 1 .assign) {},
        .move (.timedOut 0 .initWork) {}, .move (.timedOut 0 .queueWork) {}, .begin .work,
        .move (.worker .start) {}, .move (.driver 0) {}, .move (.cmdDone 0 .start .driver) {},
        .move (.worker (.aborting 1)) {}, .move (.worker .finish) {},
        .move (.timedOut 1 .initWork) {}, .move (.timedOut 1 .queueWork) {}, .begin .work,
        .move (.worker .start) {}, .move (.worker (.aborting 1)) {}, .move (.worker .finish) {},
        .move (.driver 1) {}, .move (.cmdDone 1 .start .driver) {},
        .move (.cmdDone 1 .schedule .driver) {}, .begin (.processCompletion 1),
        .move (.process 1) {}, .move (.deliver 1) {}] (.ok s) ∧ s.active = 0 ∧
      s.shared.workQueued = false ∧ s.shared.doneCmds = [] ∧ s.shared.postponed = [0] ∧
      s.shared.delivered = [1] ∧ (s.shared.scmds 0).vmkCmd = 0 ∧
      s.shared.owners (cmdTokens s.active) 0 = 0 :=
    ⟨_, Run.of_exec (f := cmdProgram.next?) (fun _ _ _ h => h) rfl, rfl, rfl, rfl, rfl, rfl, rfl,
      rfl⟩
  obtain ⟨s, hrun, hactive, hqueued, hdone, hpost, hdelivered, hcmd, howners⟩ := hlost
  refine ⟨⟨_, s, hrun, hactive, hqueued, hdone, hpost, hdelivered, hcmd, ?_⟩, ?_⟩
  · intro hsafe
    have howned := hsafe.owned 0 (by rw [hpost]; exact List.mem_singleton_self 0)
    rw [howners] at howned
    cases howned
  · exact ⟨[.begin (.queueCommand 0 0 {}), .move (.queue 0 0 (.getCommand {})) {},
      .move (.locked 0) { ioTimeout := true }, .begin (.expire 0), .begin (.abortCommands 0),
      .move (.abort 0 .start) {}, .move (.abort 0 (.scan [0] [])) {},
      .move (.abort 0 (.scan [] [0])) {}, .move (.driver 0) {},
      .move (.cmdDone 0 .start .driver) {}, .move (.cmdDone 0 .deleteTimer .driver) {},
      .move (.cmdDone 0 .check .driver) {}, .move (.abort 0 (.aborting [0])) {},
      .move (.abort 0 (.complete [0])) {}, .move (.timedOut 0 .start) {},
      .move (.timedOut 0 .assign) {}, .move (.timedOut 0 .initWork) {},
      .move (.timedOut 0 .queueWork) {}, .begin .work, .move (.worker .start) {},
      .move (.worker (.aborting 0)) {}, .move (.cmdDone 0 .start (.abort 0 [])) {},
      .move (.cmdDone 0 .start .worker) {}],
      Run.of_exec (f := cmdProgram.next?) (fun _ _ _ h => h) rfl⟩

end VmkDrivers.Vmklinux
