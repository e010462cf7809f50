/-
  VmkDrivers.Vmklinux.ScsiExecute

  The internal commands of `scsi_execute`, and how they time out
  (`linux_scsi_lld_if.c`, `linux_scsi.c`).

  The memory of an internal command is that of one call of `scsi_execute`, which waits
  for the command and frees it.  All others that work on it are to be done by then: the
  driver, `SCSILinuxProcessCompletions`, the callback of the timer and the worker that
  aborts what has timed out.  Each is at one place for one command, as the call itself
  is, and only `linuxSCSIIO_work` is shared between commands.

  A command that times out leaves this order.  `SCSILinuxCmdTimedOut` clears
  `VMK_FLAGS_NEED_CMDDONE` and `serial_number`, so that `SCSILinuxTryAbortCommand`
  returns `SUCCESS` without a call of the driver, and the command is freed while the
  driver has it.  The worker wakes the waiter before its own last access.  And without an
  abort handler nobody wakes the waiter, the completion of the driver being dropped.

  A completion wakes one waiter, and `complete` is one step.  What else the driver does
  with the command than to complete it, the counts of active commands and requests of task
  management are left out.
-/

import VmkDrivers.Lib.Transition

namespace VmkDrivers.Vmklinux

open VmkDrivers.Lib

/-! ## Internal commands -/

def didOk : Int := 0

/-- `DID_TIME_OUT << 16` -/
def didTimeOut : Int := 0x03 * 2 ^ 16

/-- `DRIVER_ERROR << 24` -/
def driverError : Int := 0x04 * 2 ^ 24

/-- Where a call of `scsi_execute` has come to. -/
inductive ExecutePc where
  | start
  /-- The command is filled in. -/
  | queue
  /-- `queuecommand` has returned an error. -/
  | refused
  | deleteTimer
  /-- `wait_for_completion` -/
  | wait
  | woken
  /-- The command is freed, with what is returned then. -/
  | free (ret : Int)
  | returned (ret : Int)
deriving DecidableEq, Repr

inductive IntDonePc where
  | idle
  /-- The driver has the command. -/
  | driver
  | done
  | schedule
  /-- The command is on the list of completed ones. -/
  | listed
  /-- `SCSILinuxDVCommandDone` -/
  | deleteTimer
  | complete
  | delivered
  | dropped
deriving DecidableEq, Repr

inductive IntTimerPc where
  | idle
  | pending
  /-- `SCSILinuxCmdTimedOut` is called. -/
  | expired
  /-- It has taken the command, and `linuxSCSIIO_work` comes next. -/
  | assign
  | initWork
  | queueWork
  /-- The timer has been deleted, or the callback has returned. -/
  | spent
deriving DecidableEq, Repr

/-- `struct vmklnx_ScsiIntCmd`, and those that work on it. -/
structure IntCmd where
  thread : ExecutePc := .start
  driver : IntDonePc := .idle
  timer : IntTimerPc := .idle
  needCmdDone : Bool := false
  delayCmdDone : Bool := false
  /-- `serial_number` is not 0. -/
  serialNumber : Bool := false
  result : Int := 0
  /-- What the driver has completed the command with. -/
  driverResult : Option Int := none
  /-- `icmd_compl.done` -/
  completions : Nat := 0
deriving DecidableEq, Repr

/-- Where `SCSIProcessCmdTimedOut` has come to. -/
inductive IntWorkerPc where
  | idle
  | start
  /-- `SCSILinuxAbortCommand` -/
  | aborting
  /-- The abort has succeeded, and the result is set. -/
  | timeOut
  /-- `complete` -/
  | wake
  /-- `VMK_FLAGS_DELAY_CMDDONE` is cleared. -/
  | clear
deriving DecidableEq, Repr

structure IntState where
  cmds : Nat → IntCmd := fun _ => {}
  workScmd : Nat := 0
  workQueued : Bool := false
  /-- The callbacks that have filled in `linuxSCSIIO_work`, and not queued it. -/
  settingUp : List Nat := []
  worker : IntWorkerPc := .idle
  /-- `scmd` of `SCSIProcessCmdTimedOut` -/
  workerScmd : Nat := 0

inductive IntFault where
  | usedAfterFree (c : Nat)
  /-- `INIT_WORK` of a work that is queued. -/
  | queuedWork
deriving DecidableEq, Repr

abbrev IntResult := Except IntFault IntState

def ExecutePc.frees : ExecutePc → Bool
  | .free _ => true
  | _ => false

def ExecutePc.freed : ExecutePc → Bool
  | .returned _ => true
  | _ => false

namespace IntState

variable (s : IntState)

def set (c : Nat) (k : IntCmd) : IntState := { s with cmds := Function.update s.cmds c k }

/-- Somebody else than `scsi_execute` works on the command. -/
def touch (c : Nat) (k : IntCmd) : IntResult :=
  if (s.cmds c).thread.freed then .error (.usedAfterFree c) else .ok (s.set c k)

end IntState

/-! ## Steps -/

/-- `scsi_delete_timer` -/
def IntTimerPc.delete : IntTimerPc → IntTimerPc
  | .pending => .spent
  | t => t

/-- One step of `scsi_execute`.  There may be no memory, and the driver may refuse the command. -/
def IntCmd.execute (k : IntCmd) (memory accepts : Bool) : Option IntCmd :=
  match k.thread with
  | .start =>
    some (if memory then { k with thread := .queue, needCmdDone := true, serialNumber := true }
      else { k with thread := .returned driverError })
  | .queue =>
    some (if accepts then { k with thread := .wait, driver := .driver, timer := .pending }
      else { k with thread := .refused, timer := .pending })
  | .refused => some { k with thread := if k.needCmdDone then .deleteTimer else .wait }
  | .deleteTimer => some { k with thread := .free driverError, timer := k.timer.delete }
  | .wait =>
    if k.completions = 0 then none
    else some { k with thread := .woken, completions := k.completions - 1 }
  | .woken => some { k with thread := .free (if k.result = didOk then 0 else driverError) }
  | .free ret => some { k with thread := .returned ret }
  | .returned _ => none

def IntCmd.driverStep (k : IntCmd) (result : Int) : Option IntCmd :=
  match k.driver with
  | .driver => some { k with result := result, driverResult := some result, driver := .done }
  | .done =>
    some (if k.needCmdDone then
      { k with needCmdDone := false, serialNumber := false, driver := .schedule }
      else { k with driver := .dropped })
  | .schedule => some { k with driver := .listed }
  | .listed => some { k with driver := .deleteTimer }
  | .deleteTimer => some { k with timer := k.timer.delete, driver := .complete }
  | .complete => some { k with completions := k.completions + 1, driver := .delivered }
  | .idle | .delivered | .dropped => none

/-- `SCSILinuxCmdTimedOut` looks at the flags. -/
def IntCmd.timedOut (k : IntCmd) : IntCmd :=
  if k.needCmdDone ∧ k.delayCmdDone = false then
    { k with
      delayCmdDone := true, needCmdDone := false, serialNumber := false, timer := .assign }
  else { k with timer := .spent }

namespace IntState

variable (s : IntState)

def callback (c : Nat) : Option IntResult :=
  let k := s.cmds c
  match k.timer with
  | .expired => some (s.touch c k.timedOut)
  | .assign =>
    some (.ok { s.set c { k with timer := .initWork } with
      workScmd := c, settingUp := c :: s.settingUp })
  | .initWork =>
    some (if s.workQueued then .error .queuedWork
      else .ok (s.set c { k with timer := .queueWork }))
  | .queueWork =>
    some (.ok { s.set c { k with timer := .spent } with
      workQueued := true, settingUp := s.settingUp.erase c })
  | .idle | .pending | .spent => none

def workerStep (handler aborts : Bool) : Option IntResult :=
  let c := s.workerScmd
  let k := s.cmds c
  match s.worker with
  | .idle => none
  | .start => some (.ok { s with worker := .aborting, workerScmd := s.workScmd })
  | .aborting =>
    -- a command without serial number is taken for a completed one
    let succeeds := handler && (!k.serialNumber || aborts)
    some ((s.touch c k).map fun s =>
      { s with worker := if succeeds then .timeOut else .clear })
  | .timeOut =>
    some ((s.touch c { k with result := didTimeOut, serialNumber := false }).map fun s =>
      { s with worker := .wake })
  | .wake =>
    some ((s.touch c { k with completions := k.completions + 1 }).map fun s =>
      { s with worker := .clear })
  | .clear =>
    -- `VMK_FLAGS_CMDDONE_ATTEMPTED` is never set for an internal command
    some ((s.touch c { k with delayCmdDone := false }).map fun s => { s with worker := .idle })

end IntState

inductive IntEvent where
  /-- The next step of the call of `scsi_execute` with this command. -/
  | execute (c : Nat) (memory accepts : Bool)
  /-- The next step of the completion by the driver. -/
  | driver (c : Nat) (result : Int)
  /-- The timer of the command expires. -/
  | expire (c : Nat)
  | callback (c : Nat)
  /-- `linuxSCSIWQ` runs its work. -/
  | work
  | worker (handler aborts : Bool)
deriving DecidableEq, Repr

def intNext? (r : IntResult) (e : IntEvent) : Option IntResult :=
  match r, e with
  | .error _, _ => none
  | .ok s, .execute c memory accepts =>
    ((s.cmds c).execute memory accepts).map fun k => .ok (s.set c k)
  | .ok s, .driver c result => ((s.cmds c).driverStep result).map (s.touch c)
  | .ok s, .expire c =>
    if (s.cmds c).timer = .pending then
      some (s.touch c { s.cmds c with timer := .expired })
    else none
  | .ok s, .callback c => s.callback c
  | .ok s, .work =>
    if s.workQueued ∧ s.worker = .idle then
      some (.ok { s with workQueued := false, worker := .start })
    else none
  | .ok s, .worker handler aborts => s.workerStep handler aborts

def IntStep (r : IntResult) (e : IntEvent) (t : IntResult) : Prop := intNext? r e = some t

/-! ## What is promised -/

def IntDonePc.coming : IntDonePc → Bool
  | .driver | .done | .schedule | .listed | .deleteTimer | .complete => true
  | .idle | .delivered | .dropped => false

def IntTimerPc.running : IntTimerPc → Bool
  | .expired | .assign | .initWork | .queueWork => true
  | .idle | .pending | .spent => false

def IntWorkerPc.holds : IntWorkerPc → Bool
  | .aborting | .timeOut | .wake | .clear => true
  | .idle | .start => false

/-- The worker is still to read `linuxSCSIIO_work`. -/
def IntWorkerPc.reads : IntWorkerPc → Nat
  | .start => 1
  | _ => 0

/-- How often `linuxSCSIIO_work` is filled in, and the worker is still to read it. -/
def IntState.works (s : IntState) : Nat :=
  s.settingUp.length + s.workQueued.toNat + s.worker.reads

def IntState.workFor (s : IntState) (c : Nat) : Prop :=
  s.workScmd = c ∧ 0 < s.works ∨ s.worker.holds = true ∧ s.workerScmd = c

instance (s : IntState) (c : Nat) : Decidable (s.workFor c) := inferInstanceAs (Decidable (_ ∨ _))

structure IntSafe (s : IntState) : Prop where
  /-- 0 is returned only for what the driver has completed so. -/
  ok : ∀ c, (s.cmds c).thread = .returned 0 → (s.cmds c).driverResult = some didOk
  /-- Whoever waits is woken, or somebody is left to wake it. -/
  woken : ∀ c, (s.cmds c).thread = .wait → 0 < (s.cmds c).completions ∨
    (s.cmds c).driver.coming = true ∨ (s.cmds c).timer = .pending ∨
    (s.cmds c).timer.running = true ∨ s.workFor c

/-- What has timed out finds `linuxSCSIIO_work` out of use, and is aborted with the abort handler of
    the driver and after the driver has completed it; and with the free of a command no callback
    of its timer and no work for its timeout is left. -/
def LastsThrough : IntResult → IntEvent → Prop
  | .ok s, .callback c => (s.cmds c).timer = .assign → s.works = 0
  | .ok s, .worker handler _ =>
    s.worker = .aborting → handler = true ∧ (s.cmds s.workerScmd).driver.coming = false
  | .ok s, .execute c _ _ =>
    (s.cmds c).thread.frees = true → (s.cmds c).timer.running = false ∧ ¬s.workFor c
  | _, _ => True

instance (s : IntResult) (e : IntEvent) : Decidable (LastsThrough s e) := by
  unfold LastsThrough
  split <;> infer_instance

/-! ## The invariant -/

structure IntView where
  cmd : IntCmd
  /-- How often `linuxSCSIIO_work` is filled in with it. -/
  work : Nat
  /-- Where the worker has come to with it. -/
  stage : IntWorkerPc

namespace IntView

variable (w : IntView)

def Running : Prop :=
  w.cmd.needCmdDone = true ∧ w.cmd.delayCmdDone = false ∧ w.cmd.completions = 0 ∧ w.work = 0 ∧
    w.stage = .idle ∧
    (w.cmd.thread = .queue ∧ w.cmd.driver = .idle ∧ w.cmd.timer = .idle ∨
      (w.cmd.thread = .refused ∨ w.cmd.thread = .deleteTimer) ∧ w.cmd.driver = .idle ∧
        (w.cmd.timer = .pending ∨ w.cmd.timer = .expired) ∨
      w.cmd.thread = .free driverError ∧ w.cmd.driver = .idle ∧
        (w.cmd.timer = .expired ∨ w.cmd.timer = .spent) ∨ w.cmd.thread = .wait ∧
        (w.cmd.driver = .driver ∨ w.cmd.driver = .done ∧ w.cmd.driverResult = some w.cmd.result) ∧
        (w.cmd.timer = .pending ∨ w.cmd.timer = .expired))

def Completing : Prop :=
  w.cmd.needCmdDone = false ∧ w.cmd.completions = 0 ∧ w.work = 0 ∧ w.stage = .idle ∧
    w.cmd.thread = .wait ∧ w.cmd.driverResult = some w.cmd.result ∧
    ((w.cmd.driver = .schedule ∨ w.cmd.driver = .listed ∨ w.cmd.driver = .deleteTimer) ∧
        (w.cmd.timer = .pending ∨ w.cmd.timer = .expired ∨ w.cmd.timer = .spent) ∨
      w.cmd.driver = .complete ∧ (w.cmd.timer = .expired ∨ w.cmd.timer = .spent))

/-- `SCSILinuxCmdTimedOut` has taken the command, and the worker is to wake the waiter. -/
def TimedOut : Prop :=
  w.cmd.needCmdDone = false ∧ w.cmd.completions = 0 ∧ w.cmd.serialNumber = false ∧
    (w.cmd.timer = .assign ∧ w.work = 0 ∧ w.stage = .idle ∨
      (w.cmd.timer = .initWork ∨ w.cmd.timer = .queueWork ∨ w.cmd.timer = .spent) ∧
        (w.work = 1 ∧ w.stage = .idle ∨ w.work = 0 ∧ (w.stage = .aborting ∨
            w.stage = .timeOut ∧ w.cmd.driver.coming = false ∨
            w.stage = .wake ∧ w.cmd.driver.coming = false ∧ w.cmd.result = didTimeOut))) ∧
    ((w.cmd.thread = .refused ∨ w.cmd.thread = .deleteTimer ∨
        w.cmd.thread = .free driverError) ∧ w.cmd.driver = .idle ∨
      w.cmd.thread = .wait ∧ (w.cmd.driver = .idle ∨ w.cmd.driver = .driver ∨
        w.cmd.driver = .done ∨ w.cmd.driver = .dropped))

def Woken : Prop :=
  w.cmd.needCmdDone = false ∧ w.work = 0 ∧ (w.stage = .idle ∨ w.stage = .clear) ∧
    w.cmd.driver.coming = false ∧ w.cmd.timer ≠ .pending ∧ w.cmd.timer ≠ .assign ∧
    ((w.cmd.thread = .refused ∨ w.cmd.thread = .wait) ∧ 0 < w.cmd.completions ∧
        (w.cmd.result = didOk → w.cmd.driverResult = some didOk) ∨ w.cmd.thread = .deleteTimer ∨
      w.cmd.thread = .woken ∧ (w.cmd.result = didOk → w.cmd.driverResult = some didOk) ∨
      ∃ ret, w.cmd.thread = .free ret ∧ (ret = 0 → w.cmd.driverResult = some didOk))

def Returned : Prop :=
  w.work = 0 ∧ w.stage = .idle ∧ w.cmd.driver.coming = false ∧
    (w.cmd.timer = .idle ∨ w.cmd.timer = .spent) ∧
    ∃ ret, w.cmd.thread = .returned ret ∧ (ret = 0 → w.cmd.driverResult = some didOk)

def Phase : Prop :=
  w.cmd = {} ∧ w.work = 0 ∧ w.stage = .idle ∨ w.Running ∨ w.Completing ∨ w.TimedOut ∨ w.Woken ∨
    w.Returned

end IntView

/-- Of the work in `linuxSCSIIO_work`, what is for a command. -/
def worksFor (workScmd works c : Nat) : Nat := if workScmd = c then works else 0

def IntWorkerPc.stageFor (pc : IntWorkerPc) (workerScmd c : Nat) : IntWorkerPc :=
  if pc.holds = true ∧ workerScmd = c then pc else .idle

def IntState.view (s : IntState) (c : Nat) : IntView where
  cmd := s.cmds c
  work := worksFor s.workScmd s.works c
  stage := s.worker.stageFor s.workerScmd c

structure IntInv (s : IntState) : Prop where
  phase : ∀ c, (s.view c).Phase
  works_le : s.works ≤ 1
  settingUp : ∀ c, (s.cmds c).timer = .initWork ∨ (s.cmds c).timer = .queueWork →
    c ∈ s.settingUp

theorem driverError_ne_zero : driverError ≠ 0 := by decide

theorem didTimeOut_ne_didOk : didTimeOut ≠ didOk := by decide

open IntTimerPc

theorem IntTimerPc.not_running {t : IntTimerPc} (h : t.running = false) :
    t = .idle ∨ t = .pending ∨ t = .spent := by
  cases t <;> simp_all [running]

open IntDonePc

theorem IntDonePc.not_coming {d : IntDonePc} (h : d.coming = false) :
    d = .idle ∨ d = .delivered ∨ d = .dropped := by
  cases d <;> simp_all [coming]

/-! ## From phase to phase -/

open ExecutePc

section Phases

variable {w : IntView} {k : IntCmd}

theorem IntView.Phase.execute {memory accepts : Bool} (h : w.Phase)
    (hstep : w.cmd.execute memory accepts = some k)
    (hfree : w.cmd.thread.frees = true →
      w.cmd.timer.running = false ∧ w.work = 0 ∧ w.stage = .idle) :
    IntView.Phase { w with cmd := k } := by
  have herror := driverError_ne_zero
  rcases h with ⟨hcmd, hwork, hstage⟩ | h | h | h | h | h
  · -- a new call, or one without memory
    rw [hcmd] at hstep
    cases memory with
    | false => grind [IntView.Phase, IntView.Returned, IntCmd.execute, coming]
    | true => grind [IntView.Phase, IntView.Running, IntCmd.execute]
  · grind [IntView.Phase, IntView.Running, IntView.Returned, IntCmd.execute, coming,
      delete, running, frees]
  · grind [IntView.Phase, IntView.Completing, IntCmd.execute]
  · grind [IntView.Phase, IntView.TimedOut, IntCmd.execute, delete, running, frees]
  · obtain ⟨hneed, hwork, hstage, hdriver, hpending, hassign, hthread⟩ := h
    rcases hthread with ⟨hthread | hthread, hwoken, hresult⟩ | hthread | ⟨hthread, hresult⟩ |
      ⟨ret, hthread, hret⟩
    · grind [IntView.Phase, IntView.Woken, IntCmd.execute]
    · grind [IntView.Phase, IntView.Woken, IntCmd.execute]
    · grind [IntView.Phase, IntView.Woken, IntCmd.execute, delete]
    · grind [IntView.Phase, IntView.Woken, IntCmd.execute]
    · -- the command is freed, and nobody is left that works on it
      obtain ⟨hrunning, -, hidle⟩ := hfree (by rw [hthread]; rfl)
      have htimer := not_running hrunning
      grind [IntView.Phase, IntView.Returned, IntCmd.execute]
  · grind [IntView.Phase, IntView.Returned, IntCmd.execute]

theorem IntView.Phase.driver {result : Int} (h : w.Phase)
    (hstep : w.cmd.driverStep result = some k) :
    w.cmd.thread.freed = false ∧ IntView.Phase { w with cmd := k } := by
  rcases h with ⟨hcmd, hwork, hstage⟩ | h | h | h | h | h
  · rw [hcmd] at hstep
    cases hstep
  · grind [IntView.Phase, IntView.Running, IntView.Completing, IntCmd.driverStep, freed]
  · grind [IntView.Phase, IntView.Completing, IntView.Woken, IntCmd.driverStep, freed,
      delete, coming]
  · grind [IntView.Phase, IntView.TimedOut, IntCmd.driverStep, freed, coming]
  · have hdriver := not_coming h.2.2.2.1
    grind [IntCmd.driverStep]
  · have hdriver := not_coming h.2.2.1
    grind [IntCmd.driverStep]

theorem IntView.Phase.expire (h : w.Phase) (hpending : w.cmd.timer = .pending) :
    w.cmd.thread.freed = false ∧
      IntView.Phase { w with cmd := { w.cmd with timer := .expired } } := by
  rcases h with ⟨hcmd, hwork, hstage⟩ | h | h | h | h | h
  · rw [hcmd] at hpending
    cases hpending
  · grind [IntView.Phase, IntView.Running, freed]
  · grind [IntView.Phase, IntView.Completing, freed]
  · grind [IntView.TimedOut]
  · grind [IntView.Woken]
  · grind [IntView.Returned]

theorem IntView.Phase.timedOut (h : w.Phase) (hexpired : w.cmd.timer = .expired) :
    w.cmd.thread.freed = false ∧ IntView.Phase { w with cmd := w.cmd.timedOut } := by
  rcases h with ⟨hcmd, hwork, hstage⟩ | h | h | h | h | h
  · rw [hcmd] at hexpired
    cases hexpired
  · grind [IntView.Phase, IntView.Running, IntView.TimedOut, IntCmd.timedOut, freed]
  · grind [IntView.Phase, IntView.Completing, IntCmd.timedOut, freed]
  · grind [IntView.TimedOut]
  · grind [IntView.Phase, IntView.Woken, IntCmd.timedOut, freed]
  · grind [IntView.Returned]

theorem IntView.Phase.assign (h : w.Phase) (hassign : w.cmd.timer = .assign) :
    w.stage = .idle ∧
      IntView.Phase { w with cmd := { w.cmd with timer := .initWork }, work := 1 } := by
  rcases h with ⟨hcmd, hwork, hstage⟩ | h | h | h | h | h
  · rw [hcmd] at hassign
    cases hassign
  · grind [IntView.Running]
  · grind [IntView.Completing]
  · grind [IntView.Phase, IntView.TimedOut]
  · grind [IntView.Woken]
  · grind [IntView.Returned]

theorem IntView.Phase.initWork (h : w.Phase) (hinit : w.cmd.timer = .initWork) :
    IntView.Phase { w with cmd := { w.cmd with timer := .queueWork } } := by
  rcases h with ⟨hcmd, hwork, hstage⟩ | h | h | h | h | h
  · rw [hcmd] at hinit
    cases hinit
  · grind [IntView.Running]
  · grind [IntView.Completing]
  · grind [IntView.Phase, IntView.TimedOut]
  · grind [IntView.Phase, IntView.Woken]
  · grind [IntView.Returned]

theorem IntView.Phase.queueWork (h : w.Phase) (hqueue : w.cmd.timer = .queueWork) :
    IntView.Phase { w with cmd := { w.cmd with timer := .spent } } := by
  rcases h with ⟨hcmd, hwork, hstage⟩ | h | h | h | h | h
  · rw [hcmd] at hqueue
    cases hqueue
  · grind [IntView.Running]
  · grind [IntView.Completing]
  · grind [IntView.Phase, IntView.TimedOut]
  · grind [IntView.Phase, IntView.Woken]
  · grind [IntView.Returned]

theorem IntView.Phase.startWork (h : w.Phase) (hwork : w.work = 1) :
    IntView.Phase { w with work := 0, stage := .aborting } := by
  rcases h with ⟨-, hnone, -⟩ | h | h | h | h | h
  · rw [hwork] at hnone
    cases hnone
  · grind [IntView.Running]
  · grind [IntView.Completing]
  · grind [IntView.Phase, IntView.TimedOut]
  · grind [IntView.Woken]
  · grind [IntView.Returned]

theorem IntView.Phase.timedOut_of_stage (h : w.Phase)
    (hstage : w.stage = .aborting ∨ w.stage = .timeOut ∨ w.stage = .wake) :
    w.TimedOut ∧ w.cmd.thread.freed = false := by
  rcases h with ⟨-, -, hidle⟩ | h | h | h | h | h
  · grind
  · grind [IntView.Running]
  · grind [IntView.Completing]
  · grind [IntView.TimedOut, freed]
  · grind [IntView.Woken]
  · grind [IntView.Returned]

theorem IntView.TimedOut.abort (h : w.TimedOut) (hstage : w.stage = .aborting)
    (hcoming : w.cmd.driver.coming = false) : IntView.Phase { w with stage := .timeOut } := by
  grind [IntView.Phase, IntView.TimedOut]

theorem IntView.TimedOut.setResult (h : w.TimedOut) (hstage : w.stage = .timeOut) :
    IntView.Phase
      { w with cmd := { w.cmd with result := didTimeOut, serialNumber := false }
               stage := .wake } := by
  grind [IntView.Phase, IntView.TimedOut]

theorem IntView.TimedOut.wake (h : w.TimedOut) (hstage : w.stage = .wake) :
    IntView.Phase
      { w with cmd := { w.cmd with completions := w.cmd.completions + 1 }, stage := .clear } := by
  have herror := driverError_ne_zero
  have hresult := didTimeOut_ne_didOk
  grind [IntView.Phase, IntView.TimedOut, IntView.Woken]

theorem IntView.Phase.clear (h : w.Phase) (hstage : w.stage = .clear) :
    w.cmd.thread.freed = false ∧
      IntView.Phase { w with cmd := { w.cmd with delayCmdDone := false }, stage := .idle } := by
  rcases h with ⟨-, -, hidle⟩ | h | h | h | h | h
  · grind
  · grind [IntView.Running]
  · grind [IntView.Completing]
  · grind [IntView.TimedOut]
  · grind [IntView.Phase, IntView.Woken, freed]
  · grind [IntView.Returned]

end Phases

/-! ## Every step -/

open IntState IntWorkerPc

section Steps

variable {s s' : IntState} {k : IntCmd} {c : Nat} {pc : IntWorkerPc} {o : IntResult}

@[simp] theorem worksFor_self (c works : Nat) : worksFor c works c = works := if_pos rfl

theorem worksFor_of_ne {m : Nat} (h : m ≠ c) (works : Nat) : worksFor c works m = 0 :=
  if_neg (Ne.symm h)

@[simp] theorem worksFor_zero (c m : Nat) : worksFor c 0 m = 0 := by
  unfold worksFor
  split
  · rfl
  · rfl

theorem IntWorkerPc.stageFor_self (h : pc.holds = true) (c : Nat) : pc.stageFor c c = pc :=
  if_pos ⟨h, rfl⟩

theorem IntWorkerPc.stageFor_of_ne {m : Nat} (h : m ≠ c) (pc : IntWorkerPc) :
    pc.stageFor c m = .idle :=
  if_neg fun hc => h hc.2.symm

theorem IntWorkerPc.stageFor_of_not (h : pc.holds = false) (c m : Nat) : pc.stageFor c m = .idle :=
  if_neg fun hc => by
    rw [h] at hc
    exact Bool.false_ne_true hc.1

@[simp] theorem IntState.set_cmds_self (s : IntState) (c : Nat) (k : IntCmd) :
    (s.set c k).cmds c = k :=
  Function.update_self ..

theorem IntState.set_cmds_of_ne {m : Nat} (h : m ≠ c) (s : IntState) (k : IntCmd) :
    (s.set c k).cmds m = s.cmds m :=
  Function.update_of_ne h ..

theorem IntInv.at (h : IntInv s) (c : Nat) (hphase : (s'.view c).Phase)
    (hcmds : ∀ m, m ≠ c → s'.cmds m = s.cmds m)
    (hothers : ∀ m, m ≠ c → (s'.view m).work = (s.view m).work ∧
      (s'.view m).stage = (s.view m).stage)
    (hworks : s'.works ≤ 1)
    (hsetting : ∀ m, (s'.cmds m).timer = .initWork ∨ (s'.cmds m).timer = .queueWork →
      m ∈ s'.settingUp) : IntInv s' := by
  refine ⟨?_, hworks, hsetting⟩
  intro m
  by_cases hm : m = c
  · rw [hm]
    exact hphase
  · have hview : s'.view m = s.view m := by
      obtain ⟨hwork, hstage⟩ := hothers m hm
      have hcmd : (s'.view m).cmd = (s.view m).cmd := hcmds m hm
      cases hs' : s'.view m
      cases hs : s.view m
      simp_all
    rw [hview]
    exact h.phase m

theorem IntInv.set (h : IntInv s) (hphase : IntView.Phase { s.view c with cmd := k })
    (htimer : k.timer = .initWork ∨ k.timer = .queueWork → c ∈ s.settingUp) :
    IntInv (s.set c k) := by
  apply h.at c
  · have hview : (s.set c k).view c = { s.view c with cmd := k } := by
      rw [view, set_cmds_self]
      rfl
    rw [hview]
    exact hphase
  · exact fun m hm => set_cmds_of_ne hm s k
  · exact fun m hm => ⟨rfl, rfl⟩
  · exact h.works_le
  · intro m hset
    by_cases hm : m = c
    · rw [hm, set_cmds_self] at hset
      rw [hm]
      exact htimer hset
    · rw [set_cmds_of_ne hm] at hset
      exact h.settingUp m hset

theorem IntInv.setWorker (h : IntInv s) (hholds : s.worker.holds = true) (hpc : pc ≠ .start)
    (hphase : IntView.Phase
      { s.view s.workerScmd with cmd := k, stage := pc.stageFor s.workerScmd s.workerScmd })
    (htimer : k.timer = (s.cmds s.workerScmd).timer) :
    IntInv { s.set s.workerScmd k with worker := pc } := by
  have hworks : IntState.works { s.set s.workerScmd k with worker := pc } = s.works := by
    have hbefore : s.worker.reads = 0 := by
      cases hw : s.worker <;> simp_all [reads, holds]
    have hafter : pc.reads = 0 := by
      cases pc <;> simp_all [reads]
    simp only [IntState.works, IntState.set, hbefore, hafter]
  apply h.at s.workerScmd
  · have hview : view { s.set s.workerScmd k with worker := pc } s.workerScmd =
        { s.view s.workerScmd with
          cmd := k, stage := pc.stageFor s.workerScmd s.workerScmd } := by
      rw [view, hworks]
      simp [IntState.set, view]
    rw [hview]
    exact hphase
  · exact fun m hm => set_cmds_of_ne hm s k
  · intro m hm
    refine ⟨congrArg (worksFor s.workScmd · m) hworks, ?_⟩
    exact (stageFor_of_ne hm pc).trans (stageFor_of_ne hm s.worker).symm
  · rw [hworks]
    exact h.works_le
  · intro m hset
    apply h.settingUp m
    by_cases hm : m = s.workerScmd
    · rw [hm] at hset ⊢
      rw [← htimer]
      exact (set_cmds_self s s.workerScmd k) ▸ hset
    · exact (set_cmds_of_ne hm s k) ▸ hset

theorem IntState.not_workFor (hnone : ¬s.workFor c) :
    (s.view c).work = 0 ∧ (s.view c).stage = .idle := by
  simp only [workFor, not_or, not_and, Nat.not_lt, Nat.le_zero] at hnone
  obtain ⟨hwork, hholds⟩ := hnone
  refine ⟨?_, if_neg fun hc => hholds hc.1 hc.2⟩
  show worksFor s.workScmd s.works c = 0
  by_cases hc : s.workScmd = c
  · rw [hwork hc, worksFor_zero]
  · exact if_neg hc

theorem IntInv.execute {memory accepts : Bool} (h : IntInv s)
    (hstep : (s.cmds c).execute memory accepts = some k)
    (hguard : (s.cmds c).thread.frees = true →
      (s.cmds c).timer.running = false ∧ ¬s.workFor c) : IntInv (s.set c k) := by
  apply h.set
  · apply (h.phase c).execute hstep
    intro hfrees
    obtain ⟨htimer, hwork⟩ := hguard hfrees
    exact ⟨htimer, not_workFor hwork⟩
  · intro hset
    apply h.settingUp c
    grind [IntCmd.execute, delete]

theorem IntState.touch_ok (hfreed : (s.cmds c).thread.freed = false) :
    s.touch c k = .ok (s.set c k) := by
  rw [touch, hfreed]
  rfl

theorem IntInv.driver {result : Int} (h : IntInv s)
    (hstep : (s.cmds c).driverStep result = some k) :
    ∃ t, s.touch c k = .ok t ∧ IntInv t := by
  obtain ⟨hfreed, hphase⟩ := (h.phase c).driver hstep
  refine ⟨_, touch_ok hfreed, ?_⟩
  apply h.set hphase
  intro hset
  apply h.settingUp c
  grind [IntCmd.driverStep, delete]

theorem IntInv.expire (h : IntInv s) (hpending : (s.cmds c).timer = .pending) :
    ∃ t, s.touch c { s.cmds c with timer := .expired } = .ok t ∧ IntInv t := by
  obtain ⟨hfreed, hphase⟩ := (h.phase c).expire hpending
  refine ⟨_, touch_ok hfreed, ?_⟩
  apply h.set hphase
  intro hset
  rcases hset with hset | hset
  · cases hset
  · cases hset

theorem IntInv.assign (h : IntInv s) (hassign : (s.cmds c).timer = .assign) (hfree : s.works = 0) :
    IntInv { s.set c { s.cmds c with timer := .initWork } with
      workScmd := c, settingUp := c :: s.settingUp } := by
  obtain ⟨hstage, hphase⟩ := (h.phase c).assign hassign
  have hworks : IntState.works { s.set c { s.cmds c with timer := .initWork } with
      workScmd := c, settingUp := c :: s.settingUp } = 1 := by
    have hsum : s.settingUp.length + s.workQueued.toNat + s.worker.reads = 0 := hfree
    simp only [IntState.works, IntState.set, List.length_cons]
    omega
  apply h.at c
  · have hview : view { s.set c { s.cmds c with timer := .initWork } with
        workScmd := c, settingUp := c :: s.settingUp } c =
        { s.view c with cmd := { s.cmds c with timer := .initWork }, work := 1 } := by
      rw [view, hworks, worksFor_self]
      simp [IntState.set, view]
    rw [hview]
    exact hphase
  · exact fun m hm => set_cmds_of_ne hm s _
  · intro m hm
    have hbefore : (s.view m).work = 0 := by
      show worksFor s.workScmd s.works m = 0
      rw [hfree, worksFor_zero]
    exact ⟨(worksFor_of_ne hm _).trans hbefore.symm, rfl⟩
  · exact Nat.le_of_eq hworks
  · intro m hset
    by_cases hm : m = c
    · rw [hm]
      exact List.mem_cons_self
    · apply List.mem_cons_of_mem
      apply h.settingUp m
      exact (set_cmds_of_ne hm s _) ▸ hset

theorem IntInv.queueWork (h : IntInv s) (hqueue : (s.cmds c).timer = .queueWork) :
    IntInv { s.set c { s.cmds c with timer := .spent } with
      workQueued := true, settingUp := s.settingUp.erase c } := by
  have hmem := h.settingUp c (.inr hqueue)
  have hlength := List.length_pos_of_mem hmem
  have hle : s.settingUp.length + s.workQueued.toNat + s.worker.reads ≤ 1 := h.works_le
  have hworks : IntState.works { s.set c { s.cmds c with timer := .spent } with
      workQueued := true, settingUp := s.settingUp.erase c } = s.works := by
    simp only [IntState.works, IntState.set, List.length_erase_of_mem hmem, Bool.toNat_true]
    omega
  have hset := h.set ((h.phase c).queueWork hqueue) (by simp)
  apply hset.at c
  · have hview : view { s.set c { s.cmds c with timer := .spent } with
        workQueued := true, settingUp := s.settingUp.erase c } c =
        (s.set c { s.cmds c with timer := .spent }).view c := by
      rw [view, hworks]
      rfl
    rw [hview]
    exact hset.phase c
  · exact fun m _ => rfl
  · exact fun m _ => ⟨congrArg (worksFor s.workScmd · m) hworks, rfl⟩
  · rw [hworks]
    exact h.works_le
  · intro m hm
    have hne : m ≠ c := by
      rintro rfl
      simp [IntState.set] at hm
    exact (List.mem_erase_of_ne hne).mpr (hset.settingUp m hm)

theorem IntInv.callback (h : IntInv s) (hguard : (s.cmds c).timer = .assign → s.works = 0)
    (hstep : s.callback c = some o) : ∃ t, o = .ok t ∧ IntInv t := by
  unfold IntState.callback at hstep
  cases htimer : (s.cmds c).timer with
  | expired =>
    simp only [htimer] at hstep
    cases hstep
    obtain ⟨hfreed, hphase⟩ := (h.phase c).timedOut htimer
    refine ⟨_, touch_ok hfreed, ?_⟩
    apply h.set hphase
    grind [IntCmd.timedOut]
  | assign =>
    simp only [htimer] at hstep
    cases hstep
    exact ⟨_, rfl, h.assign htimer (hguard htimer)⟩
  | initWork =>
    -- the work is this one's, so it is not queued
    have hmem := h.settingUp c (.inl htimer)
    have hlength := List.length_pos_of_mem hmem
    have hle : s.settingUp.length + s.workQueued.toNat + s.worker.reads ≤ 1 := h.works_le
    have hqueued : s.workQueued = false := by
      cases hq : s.workQueued with
      | false => rfl
      | true =>
        rw [hq, Bool.toNat_true] at hle
        omega
    simp only [htimer, hqueued, Bool.false_eq_true, if_false] at hstep
    cases hstep
    exact ⟨_, rfl, h.set ((h.phase c).initWork htimer) fun _ => hmem⟩
  | queueWork =>
    simp only [htimer] at hstep
    cases hstep
    exact ⟨_, rfl, h.queueWork htimer⟩
  | idle => simp [htimer] at hstep
  | pending => simp [htimer] at hstep
  | spent => simp [htimer] at hstep

theorem IntInv.work (h : IntInv s) (hqueued : s.workQueued = true) (hidle : s.worker = .idle) :
    IntInv { s with workQueued := false, worker := .start } := by
  have hworks : IntState.works { s with workQueued := false, worker := .start } = s.works := by
    simp [IntState.works, hqueued, hidle, reads]
  have hview : ∀ m, view { s with workQueued := false, worker := .start } m =
      s.view m := by
    intro m
    have hstart : IntWorkerPc.start.stageFor s.workerScmd m = s.worker.stageFor s.workerScmd m := by
      rw [hidle]
      exact (stageFor_of_not rfl _ _).trans
        (stageFor_of_not rfl _ _).symm
    rw [view, hworks, hstart]
    rfl
  refine ⟨?_, ?_, h.settingUp⟩
  · intro m
    rw [hview]
    exact h.phase m
  · rw [hworks]
    exact h.works_le

theorem IntInv.startWork (h : IntInv s) (hstart : s.worker = .start) :
    IntInv { s with worker := .aborting, workerScmd := s.workScmd } := by
  have hle : s.settingUp.length + s.workQueued.toNat + s.worker.reads ≤ 1 := h.works_le
  rw [hstart] at hle
  have hone : s.works = 1 := by
    simp only [IntState.works, hstart, reads] at hle ⊢
    omega
  have hnone : IntState.works { s with worker := .aborting, workerScmd := s.workScmd } = 0 := by
    simp only [IntState.works, reads] at hle ⊢
    omega
  apply h.at s.workScmd
  · have hview : view { s with worker := .aborting, workerScmd := s.workScmd } s.workScmd =
        { s.view s.workScmd with work := 0, stage := .aborting } := by
      rw [view, hnone, worksFor_zero, stageFor_self rfl]
      rfl
    rw [hview]
    apply (h.phase s.workScmd).startWork
    exact (worksFor_self _ _).trans hone
  · exact fun m _ => rfl
  · intro m hm
    refine ⟨(worksFor_of_ne hm _).trans (worksFor_of_ne hm _).symm, ?_⟩
    have hbefore : (s.view m).stage = .idle := by
      show s.worker.stageFor s.workerScmd m = .idle
      rw [hstart]
      exact stageFor_of_not rfl _ _
    exact (stageFor_of_ne hm _).trans hbefore.symm
  · rw [hnone]
    omega
  · exact h.settingUp

theorem IntInv.workerStep {handler aborts : Bool} (h : IntInv s) (hguard : s.worker = .aborting →
      handler = true ∧ (s.cmds s.workerScmd).driver.coming = false)
    (hstep : s.workerStep handler aborts = some o) : ∃ t, o = .ok t ∧ IntInv t := by
  unfold IntState.workerStep at hstep
  have hphase := h.phase s.workerScmd
  cases hworker : s.worker with
  | idle => simp [hworker] at hstep
  | start =>
    simp only [hworker] at hstep
    cases hstep
    exact ⟨_, rfl, h.startWork hworker⟩
  | aborting =>
    have hholds : s.worker.holds = true := by rw [hworker]; rfl
    have hstage : (s.view s.workerScmd).stage = .aborting := (stageFor_self hholds _).trans hworker
    obtain ⟨hhandler, hcoming⟩ := hguard hworker
    obtain ⟨htimedOut, hfreed⟩ := hphase.timedOut_of_stage (.inl hstage)
    have hserial : (s.cmds s.workerScmd).serialNumber = false := htimedOut.2.2.1
    simp only [hworker, hhandler, hserial, touch_ok hfreed] at hstep
    cases hstep
    refine ⟨_, rfl, h.setWorker hholds (by simp) ?_ rfl⟩
    rw [stageFor_self rfl]
    exact htimedOut.abort hstage hcoming
  | timeOut =>
    have hholds : s.worker.holds = true := by rw [hworker]; rfl
    have hstage : (s.view s.workerScmd).stage = .timeOut := (stageFor_self hholds _).trans hworker
    obtain ⟨htimedOut, hfreed⟩ := hphase.timedOut_of_stage (.inr (.inl hstage))
    simp only [hworker, touch_ok hfreed] at hstep
    cases hstep
    refine ⟨_, rfl, h.setWorker hholds (by simp) ?_ rfl⟩
    rw [stageFor_self rfl]
    exact htimedOut.setResult hstage
  | wake =>
    have hholds : s.worker.holds = true := by rw [hworker]; rfl
    have hstage : (s.view s.workerScmd).stage = .wake := (stageFor_self hholds _).trans hworker
    obtain ⟨htimedOut, hfreed⟩ := hphase.timedOut_of_stage (.inr (.inr hstage))
    simp only [hworker, touch_ok hfreed] at hstep
    cases hstep
    refine ⟨_, rfl, h.setWorker hholds (by simp) ?_ rfl⟩
    rw [stageFor_self rfl]
    exact htimedOut.wake hstage
  | clear =>
    have hholds : s.worker.holds = true := by rw [hworker]; rfl
    have hstage : (s.view s.workerScmd).stage = .clear := (stageFor_self hholds _).trans hworker
    obtain ⟨hfreed, hclear⟩ := hphase.clear hstage
    simp only [hworker, touch_ok hfreed] at hstep
    cases hstep
    exact ⟨_, rfl, h.setWorker hholds (by simp) hclear rfl⟩

theorem intStep_keeps {t : IntResult} {e : IntEvent} (h : IntInv s)
    (hguard : LastsThrough (.ok s) e) (hstep : IntStep (.ok s) e t) :
    ∃ s', t = .ok s' ∧ IntInv s' := by
  simp only [IntStep] at hstep
  cases e with
  | execute c memory accepts =>
    obtain ⟨k, hk, rfl⟩ := Option.map_eq_some_iff.mp hstep
    exact ⟨_, rfl, h.execute hk hguard⟩
  | driver c result =>
    obtain ⟨k, hk, rfl⟩ := Option.map_eq_some_iff.mp hstep
    exact h.driver hk
  | expire c =>
    simp only [intNext?] at hstep
    split at hstep
    · next hpending =>
      cases hstep
      exact h.expire hpending
    · cases hstep
  | callback c => exact h.callback hguard hstep
  | work =>
    simp only [intNext?] at hstep
    split at hstep
    · next hqueued =>
      cases hstep
      exact ⟨_, rfl, h.work hqueued.1 hqueued.2⟩
    · cases hstep
  | worker handler aborts => exact h.workerStep hguard hstep

theorem IntInv.safe (h : IntInv s) : IntSafe s := by
  refine ⟨?_, ?_⟩
  · intro c hreturned
    rcases h.phase c with ⟨hcmd, -, -⟩ | hphase | hphase | hphase | hphase | hphase
    · have hstart : (s.cmds c).thread = .start := congrArg IntCmd.thread hcmd
      rw [hreturned] at hstart
      cases hstart
    · grind [IntView.Running, view]
    · grind [IntView.Completing, view]
    · grind [IntView.TimedOut, view]
    · grind [IntView.Woken, view]
    · grind [IntView.Returned, view]
  · intro c hwait
    rcases h.phase c with ⟨hcmd, -, -⟩ | hphase | hphase | hphase | hphase | hphase
    · have hstart : (s.cmds c).thread = .start := congrArg IntCmd.thread hcmd
      rw [hwait] at hstart
      cases hstart
    · grind [IntView.Running, view, coming]
    · grind [IntView.Completing, view, coming]
    · -- the callback, the work or the worker will see to it
      by_cases hwork : s.workFor c
      · exact .inr (.inr (.inr (.inr hwork)))
      · obtain ⟨hnone, hidle⟩ := not_workFor hwork
        grind [IntView.TimedOut, view, running]
    · grind [IntView.Woken, view]
    · grind [IntView.Returned, view]

theorem intInv_start : IntInv {} := by
  refine ⟨?_, ?_, ?_⟩
  · intro c
    have hidle : IntWorkerPc.idle.holds = false := rfl
    exact .inl ⟨rfl, worksFor_zero 0 c, stageFor_of_not hidle 0 c⟩
  · decide
  · intro c hc
    rcases hc with hc | hc
    · cases hc
    · cases hc

end Steps

/-! ## Every run -/

/-- **Internal commands.** As long as a command that times out finds `linuxSCSIIO_work` out of use,
    is aborted after the driver has completed it and with its abort handler, and is freed with
    its callback and its worker done, nobody works on a command that is freed, every waiter is
    woken or will be, and 0 is returned only for what the driver has completed so. -/
theorem execute_safe_of_run {r : IntResult} {es : List IntEvent}
    (hrun : Run (Guarded IntStep LastsThrough) (.ok {}) es r) :
    ∃ s, r = .ok s ∧ IntSafe s := by
  have hinv : ∃ s, r = .ok s ∧ IntInv s := by
    apply hrun.invariant (I := fun r => ∃ s, r = .ok s ∧ IntInv s) _ ⟨_, rfl, intInv_start⟩
    rintro _ e t ⟨s, rfl, h⟩ ⟨hguard, hstep⟩
    exact intStep_keeps h hguard hstep
  obtain ⟨s, rfl, h⟩ := hinv
  exact ⟨s, rfl, h.safe⟩

/-- One command is completed, and its timer expires late; one is refused; and one times out and is
    aborted after the driver has completed it. -/
def executeRun : List IntEvent :=
  [.execute 0 true true, .execute 0 true true, .driver 0 0, .driver 0 0, .expire 0,
    .driver 0 0, .driver 0 0, .driver 0 0, .callback 0, .driver 0 0, .execute 0 true true,
    .execute 0 true true, .execute 0 true true,
    .execute 1 true true, .execute 1 true false, .execute 1 true true, .execute 1 true true,
    .execute 1 true true,
    .execute 2 true true, .execute 2 true true, .expire 2, .callback 2, .driver 2 0,
    .driver 2 0, .callback 2, .callback 2, .callback 2, .work, .worker true true,
    .worker true true, .worker true true, .worker true true, .worker true true,
    .execute 2 true true, .execute 2 true true, .execute 2 true true]

theorem execute_safe_executeRun :
    ∃ s, Run IntStep (.ok {}) executeRun (.ok s) ∧ (s.cmds 0).thread = .returned 0 ∧
      (s.cmds 1).thread = .returned driverError ∧
      (s.cmds 2).thread = .returned driverError ∧ IntSafe s := by
  have hexec : ((Run.exec (fun s e => if LastsThrough s e then intNext? s e else none)
      (.ok {}) executeRun).map fun r => r.toOption.map fun s =>
        ((s.cmds 0).thread, (s.cmds 1).thread, (s.cmds 2).thread)) =
      some (some (.returned 0, .returned driverError, .returned driverError)) := by
    decide +kernel
  have hsound : ∀ s e t, (if LastsThrough s e then intNext? s e else none) = some t →
      Guarded IntStep LastsThrough s e t := by
    intro s e t h
    exact (guarded_eq_some_iff (T := IntStep) (fun _ _ _ => Iff.rfl) s e t).mp h
  obtain ⟨r, hr, hthreads⟩ := Option.map_eq_some_iff.mp hexec
  have hguarded := Run.of_exec hsound hr
  obtain ⟨s, rfl, hsafe⟩ := execute_safe_of_run hguarded
  obtain ⟨hzero, hrest⟩ := Prod.mk.inj (Option.some.inj hthreads)
  obtain ⟨hone, htwo⟩ := Prod.mk.inj hrest
  exact ⟨s, hguarded.mono fun _ _ _ h => h.2, hzero, hone, htwo, hsafe⟩

/-- A command that times out is freed while the driver has it, or before the worker is done with
    it; and without an abort handler its waiter is never woken. -/
theorem execute_unsafe :
    (∃ es, Run IntStep (.ok {}) es (.error (.usedAfterFree 0)) ∧ es.getLast? = some (.driver 0 0)) ∧
    (∃ es, Run IntStep (.ok {}) es (.error (.usedAfterFree 0)) ∧
      es.getLast? = some (.worker true true)) ∧
    ∃ es s, Run IntStep (.ok {}) es (.ok s) ∧ (s.cmds 0).thread = .wait ∧ ¬IntSafe s := by
  refine ⟨⟨[.execute 0 true true, .execute 0 true true, .expire 0, .callback 0, .callback 0,
      .callback 0, .callback 0, .work, .worker true true, .worker true true, .worker true true,
      .worker true true, .worker true true, .execute 0 true true, .execute 0 true true,
      .execute 0 true true, .driver 0 0], Run.of_exec (f := intNext?) (fun _ _ _ h => h) rfl, rfl⟩,
    ⟨[.execute 0 true true, .execute 0 true true, .expire 0, .callback 0, .callback 0,
      .callback 0, .callback 0, .work, .worker true true, .worker true true, .worker true true,
      .worker true true, .execute 0 true true, .execute 0 true true, .execute 0 true true,
      .worker true true], Run.of_exec (f := intNext?) (fun _ _ _ h => h) rfl, rfl⟩, ?_⟩
  have hhang : ∃ s, Run IntStep (.ok {}) [.execute 0 true true, .execute 0 true true, .expire 0,
      .callback 0, .callback 0, .callback 0, .callback 0, .work, .worker false true,
      .worker false true, .worker false true, .driver 0 0, .driver 0 0] (.ok s) ∧
      (s.cmds 0).thread = .wait ∧ (s.cmds 0).completions = 0 ∧
      (s.cmds 0).driver.coming = false ∧ (s.cmds 0).timer = .spent ∧ ¬s.workFor 0 :=
    ⟨_, Run.of_exec (f := intNext?) (fun _ _ _ h => h) rfl, rfl, rfl, rfl, rfl, by decide⟩
  obtain ⟨s, hrun, hwait, hzero, hcoming, htimer, hwork⟩ := hhang
  refine ⟨_, s, hrun, hwait, ?_⟩
  intro hsafe
  rcases hsafe.woken 0 hwait with h | h | h | h | h
  · omega
  · rw [hcoming] at h
    cases h
  · rw [htimer] at h
    cases h
  · rw [htimer] at h
    cases h
  · exact hwork h

end VmkDrivers.Vmklinux
