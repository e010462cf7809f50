/-
  VmkDrivers.Vmklinux.Scsi

  The states of SCSI hosts, targets and devices, and how a command of the
  vmkernel is taken (`linux_scsi.c`).

  `SCSILinuxQueueCommand` gets a `scsi_cmnd` first, for which it needs a
  reference to the host, and decides under the lock of the host what becomes of
  it.  What the SCSI layer itself does not decide (memory, the length of the
  command) comes with the request.
-/

import Mathlib

namespace VmkDrivers.Vmklinux

/-- `enum scsi_host_state` -/
inductive ShostState where
  | created
  | running
  | cancel
  | del
  | recovery
  | cancelRecovery
  | delRecovery
deriving DecidableEq, Repr

/-- `enum scsi_device_state` -/
inductive SdevState where
  | created
  | running
  | cancel
  | del
  | quiesce
  | offline
  | block
deriving DecidableEq, Repr

/-- `enum scsi_target_state` -/
inductive StargetState where
  | running
  | del
deriving DecidableEq, Repr

/-! ## The submission of a command -/

/-- Of `struct Scsi_Host` and `struct scsi_device`, what is looked at under the lock of the host
    beside the state of the host. -/
structure QueueView where
  hostSelfBlocked : Bool := false
  hostBusy : Int := 0
  canQueue : Int := 1
  sdevState : SdevState := .running
  deviceBusy : Int := 0
  queueDepth : Int := 1
deriving DecidableEq, Repr

inductive QueueVerdict where
  | noMemory
  | wouldBlock
  /-- The command of the vmkernel is completed, there being no `scsi_cmnd`. -/
  | gone
  /-- The command is counted, and completed without the driver. -/
  | complete
  /-- The command is counted, and `queuecommand` of the driver is called. -/
  | issue
deriving DecidableEq, Repr

/-- The part of `SCSILinuxQueueCommand` with the lock of the host. -/
def queueLocked (shostState : ShostState) (v : QueueView) : QueueVerdict :=
  if shostState = .cancel ∨ shostState = .del then .complete
  else if v.hostSelfBlocked ∨ v.sdevState = .block ∨ v.sdevState = .quiesce ∨
      shostState = .recovery ∨ v.queueDepth ≤ v.deviceBusy ∨ v.canQueue ≤ v.hostBusy then
    .wouldBlock
  else if v.sdevState = .del ∨ v.sdevState = .offline then .complete
  else .issue

structure QueueRequest where
  /-- There is memory for a `scsi_cmnd`. -/
  scmd : Bool := true
  /-- There is memory for the scatter-gather array. -/
  sgArray : Bool := true
  /-- The command is longer than the driver takes. -/
  tooLong : Bool := false
deriving DecidableEq, Repr

/-- Where a call of `SCSILinuxQueueCommand` has come to. -/
inductive QueuePc where
  | getCommand (req : QueueRequest)
  /-- There is no `scsi_cmnd`. -/
  | noCommand
  | locked
deriving DecidableEq, Repr

/-- One step of `SCSILinuxQueueCommand`: it comes to the next place, or is decided. -/
def QueuePc.step (shostState : ShostState) (v : QueueView) : QueuePc → QueuePc ⊕ QueueVerdict
  | .getCommand req =>
    -- `scsi_host_get` in `scsi_get_command`
    if shostState = .cancel ∨ shostState = .del ∨ req.scmd = false then .inl .noCommand
    else if req.sgArray = false then .inr .noMemory
    else if req.tooLong then .inr .complete
    else .inl .locked
  | .noCommand =>
    -- the state is read again, without the lock
    if shostState = .del ∨ shostState = .cancel then .inr .gone else .inr .noMemory
  | .locked => .inr (queueLocked shostState v)

theorem queueLocked_recovery (v : QueueView) : queueLocked .recovery v = .wouldBlock := by
  simp [queueLocked]

theorem queueLocked_issue {shostState : ShostState} {v : QueueView} :
    queueLocked shostState v = .issue ↔
      (shostState ≠ .cancel ∧ shostState ≠ .del ∧ shostState ≠ .recovery) ∧
        v.hostSelfBlocked = false ∧ (v.sdevState ≠ .block ∧ v.sdevState ≠ .quiesce ∧
          v.sdevState ≠ .del ∧ v.sdevState ≠ .offline) ∧
        v.deviceBusy < v.queueDepth ∧ v.hostBusy < v.canQueue := by
  rw [queueLocked]
  constructor
  · intro h
    split at h
    · cases h
    next hhost =>
    split at h
    · cases h
    next hblocked =>
    split at h
    · cases h
    next hdevice =>
    simp only [not_or, Bool.not_eq_true, Int.not_le] at hhost hblocked hdevice
    obtain ⟨hself, hblock, hquiesce, hrecovery, hdepth, hqueue⟩ := hblocked
    exact ⟨⟨hhost.1, hhost.2, hrecovery⟩, hself, ⟨hblock, hquiesce, hdevice⟩, hdepth, hqueue⟩
  · rintro ⟨⟨hcancel, hdel, hrecovery⟩, hself, ⟨hblock, hquiesce, hdevice⟩, hdepth, hqueue⟩
    rw [if_neg (by simp [hcancel, hdel]), if_neg, if_neg (by simp [hdevice])]
    simp only [not_or, Bool.not_eq_true, Int.not_le]
    exact ⟨hself, hblock, hquiesce, hrecovery, hdepth, hqueue⟩

end VmkDrivers.Vmklinux
