/-
  VmkDrivers.Vmklinux.ScsiRecycled

  The memory of a SCSI command, used again (`linux_scsi_lld_if.c`, `linux_scsi.c`).

  `scsi_get_command` clears some fields of the memory that it gets, and of the sense
  buffer the first 24 bytes.  `SCSILinuxQueueCommand` writes others, and of the command
  as many bytes as it is long.  A completion with an error copies 64 bytes of the sense
  buffer, and a driver is given all of it: `recycled_iff` says which bytes of the
  earlier command come through.

  A driver is a function of what it is given; it writes what it reports, and nothing
  else.  The fields that the SCSI layer has for itself (lists, timers, the serial number)
  are left out, and so are aborts.
-/

import VmkDrivers.Lib.Patch
import VmkDrivers.Vmklinux.Scsi
import VmkDrivers.Vmklinux.ScsiTransfer

namespace VmkDrivers.Vmklinux

open VmkDrivers.Lib

/-! ## Commands -/

/-- `enum dma_data_direction` -/
inductive ScsiDirection where
  | bidirectional
  | toDevice
  | fromDevice
  | none
deriving DecidableEq, Repr

/-- `vmk_ScsiCommandDirection` -/
inductive VmkScsiDirection where
  | unknown
  | write
  | read
  | none
deriving DecidableEq, Repr

/-- `vmk_SgElem` -/
structure SgElem where
  addr : BitVec 64
  length : BitVec 32
deriving DecidableEq, Repr

/-- Of a `vmk_ScsiCommand`, what is read, and the sense data before the completion. -/
structure VmkScsiCommand where
  sgArray : Option (List SgElem) := none
  sgIOArray : Option (List SgElem) := none
  dataDirection : VmkScsiDirection := .unknown
  flags : BitVec 32 := 0
  requiredDataLen : BitVec 32 := 0
  cdb : Fin 16 → BitVec 8 := fun _ => 0
  cdbLen : Nat := 6
  /-- `VMK_SCSI_MAX_CDB_LEN` -/
  cdbLen_le : cdbLen ≤ 16 := by decide
  senseData : Fin 64 → BitVec 8 := fun _ => 0

inductive RequestBuffer where
  | null
  | vmksg
  | memory (addr : BitVec 64)
deriving DecidableEq, Repr

/-- `struct scatterlist` -/
structure VmkSg where
  vmksga : Option (List SgElem) := none
  vmkIOsga : Option (List SgElem) := none
  premapped : Bool := false
deriving DecidableEq, Repr

/-- `struct scsi_cmnd`, as far as it says what to do. -/
structure ScsiCmnd extends ScsiTransfer where
  cmdLen : BitVec 8
  scDataDirection : ScsiDirection
  cmnd : Fin 16 → BitVec 8
  requestBuffer : RequestBuffer
  useSg : BitVec 16
  sglistLen : BitVec 16
  transfersize : BitVec 32
  senseBuffer : Fin 96 → BitVec 8
  tag : BitVec 8
  requestBufferMA : BitVec 64
  vmksg : VmkSg

structure ScsiTarget where
  taggedSupported : Bool := true
  /-- The type is one of `VMK_SCSI_CLASS_OPTICAL`, `VMK_SCSI_CLASS_CDROM` and
      `VMK_SCSI_CLASS_WORM`. -/
  isOptical : Bool := false
  maxCmdLen : BitVec 8 := 16
  shostState : ShostState := .running
  view : QueueView := {}

/-! ## Getting a command -/

/-- `vmklnx_clear_scmd` -/
def clearScmd (scmd : ScsiCmnd) : ScsiCmnd :=
  { scmd with
    requestBufflen := 0
    sglistLen := 0
    transfersize := 0
    resid := 0
    -- "Memset 24 bytes to cover Sense Key specific fields"
    senseBuffer := patch (prefixWrite 24 fun _ => 0) scmd.senseBuffer
    result := 0
    vmksg := {} }

/-- `SCSILinuxComputeSGArray` -/
def computeSGArray (scmd : ScsiCmnd) (c : VmkScsiCommand) : ScsiCmnd :=
  match c.sgArray with
  | none | some [] => { scmd with requestBuffer := .null, requestBufferMA := 0, useSg := 0 }
  | some elems =>
    { scmd with
      requestBufflen := scmd.requestBufflen + computeBufflen (some (elems.map SgElem.length))
      vmksg := { vmksga := c.sgArray, vmkIOsga := c.sgIOArray, premapped := true }
      useSg := BitVec.ofNat 16 elems.length
      requestBuffer := .vmksg
      requestBufferMA := 0 }

/-- `SIMPLE_QUEUE_TAG`, ... -/
def queueTag (flags : BitVec 32) (taggedSupported : Bool) : BitVec 8 :=
  if taggedSupported then
    if flags &&& 0x00010000 ≠ 0 then 0x22
    else if flags &&& 0x00020000 ≠ 0 then 0x21
    else 0x20
  else 0

/-! ## The direction of the data -/

/-- `VMK_SCSI_CMD_FORMAT_UNIT`, ... -/
def toDeviceCmds : List (BitVec 8) :=
  [0x04, 0x07, 0x0a, 0x0b, 0x15, 0x18, 0x1d, 0x24, 0x2a, 0x2e, 0x30, 0x31, 0x32, 0x38, 0x39,
    0x3a, 0x3b, 0x3d, 0x3f, 0x40, 0x41, 0x4c, 0x55, 0x56, 0x5d, 0x5f, 0xaa, 0xae, 0xb0, 0xb1,
    0xb2, 0xb6, 0xbf]

/-- `VMK_SCSI_CMD_REQUEST_SENSE`, ... -/
def fromDeviceCmds : List (BitVec 8) :=
  [0x03, 0x05, 0x08, 0x0f, 0x12, 0x14, 0x1a, 0x1c, 0x25, 0x28, 0x29, 0x2d, 0x34, 0x37, 0x3c,
    0x3e, 0x42, 0x46, 0x43, 0x44, 0x4a, 0x4d, 0x51, 0x52, 0x5a, 0x5c, 0x5e, 0x9e, 0xa0, 0xa8,
    0xad, 0xb7, 0xb8, 0xb9, 0xbc, 0xbd, 0xbe]

/-- `VMK_SCSI_CMD_TEST_UNIT_READY`, ... -/
def noDataCmds : List (BitVec 8) :=
  [0x00, 0x01, 0x16, 0x17, 0x19, 0x1b, 0x1e, 0x2b, 0x2f, 0x33, 0x35, 0x36, 0x45, 0x47, 0x48,
    0x49, 0x4b, 0x4e, 0x53, 0x57, 0x5b, 0xa1, 0xa5, 0xa6, 0xa9, 0xac, 0xaf, 0xb3, 0xb5, 0xba, 0xbb]

/-- "Vendor Specific codes defined in SPC-2" -/
def vendorCmds : List (BitVec 8) :=
  [0x02, 0x06, 0x09, 0x0c, 0x0d, 0x0e, 0x13, 0x20, 0x21, 0x23, 0x27]

/-- Of the codes for `MDACIOCTL_DIRECT_CMD`, those that write: `MDACIOCTL_STOREIMAGE`, ... -/
def mdacWriteCmds : List (BitVec 8) :=
  [0x2c, 0xa6, 0xac, 0xad, 0xc0, 0xc4, 0xc6, 0xc8, 0xcf, 0xd1, 0xd4, 0xd5]

/-- The `switch` over the first byte, for a command with data. -/
def cmdDirection (cmnd : Fin 16 → BitVec 8) (isOptical : Bool) : ScsiDirection :=
  let cmd := cmnd 0
  if cmd ∈ toDeviceCmds then .toDevice
  else if cmd ∈ fromDeviceCmds then .fromDevice
  else if cmd ∈ noDataCmds then .none
  -- `VMK_SCSI_CMD_MAINTENANCE_OUT` and `VMK_SCSI_CMD_MAINTENANCE_IN`
  else if cmd = 0xa4 then if isOptical then .fromDevice else .toDevice
  else if cmd = 0xa3 then if isOptical then .toDevice else .fromDevice
  else if cmd ∈ vendorCmds then .fromDevice
  else if cmd = 0x22 then
    if cmnd 2 ∈ mdacWriteCmds then .toDevice
    -- `MDACIOCTL_PASS_THRU_INITIATE`
    else if cmnd 2 = 0xae ∧ cmnd 3 &&& 0x80 ≠ 0 then .toDevice
    else .fromDevice
  else if cmd = 0x50 ∨ cmd = 0x54 then .toDevice
  else if cmd = 0x59 ∨ cmd = 0xb4 then .fromDevice
  else if cmd = 0x58 then .none
  else if cmd = 0xee then .toDevice
  else if cmd = 0xef then .fromDevice
  -- vendor unique codes of NEC, with data
  else if cmd = 0x26 ∨ cmd = 0x2c then .toDevice
  else if cmd = 0x10 ∨ cmd = 0x11 then .fromDevice
  else if cmd = 0xe6 then .none
  else if cmd = 0xe9 then .toDevice
  else if cmd = 0xeb then .fromDevice
  -- 0xff, the commands of 16 bytes, and unknown ones
  else .bidirectional

/-- `SCSILinuxGetDataDirection` -/
def getDataDirection (scmd : ScsiCmnd) (guest : VmkScsiDirection) (isOptical : Bool) :
    ScsiDirection :=
  if scmd.requestBufflen = 0 then .none
  else
    match guest with
    | .read => .fromDevice
    | .write => .toDevice
    | .none => .none
    | .unknown => cmdDirection scmd.cmnd isOptical

/-! ## Queueing a command -/

/-- `memcpy(scmd->cmnd, vmkCmdPtr->cdb, vmkCmdPtr->cdbLen)`, and what else is filled in. -/
def fillScmd (scmd : ScsiCmnd) (c : VmkScsiCommand) (d : ScsiTarget) : ScsiCmnd :=
  let scmd := { scmd with tag := queueTag c.flags d.taggedSupported }
  let scmd := { scmd with
    cmnd := patch (prefixWrite c.cdbLen c.cdb) scmd.cmnd
    cmdLen := BitVec.ofNat 8 c.cdbLen
    underflow := c.requiredDataLen }
  { scmd with scDataDirection := getDataDirection scmd c.dataDirection d.isOptical }

/-- A command for the memory that `__scsi_get_command` returns. -/
def setUpScmd (prior : ScsiCmnd) (c : VmkScsiCommand) (d : ScsiTarget) : ScsiCmnd :=
  fillScmd (computeSGArray (clearScmd prior) c) c d

structure DriverWrites where
  result : BitVec 32 := 0
  resid : BitVec 32 := 0
  /-- The bytes of the sense buffer that it has something to say about. -/
  sense : Fin 96 → Option (BitVec 8) := fun _ => none

inductive DriverAnswer where
  /-- `scsi_done` is called, then or later. -/
  | done (w : DriverWrites)
  /-- `queuecommand` returns an error. -/
  | refused (w : DriverWrites)
  | never

def ScsiCmnd.write (scmd : ScsiCmnd) (w : DriverWrites) : ScsiCmnd :=
  { scmd with
    result := w.result
    resid := w.resid
    senseBuffer := patch w.sense scmd.senseBuffer }

structure ScsiCompletion where
  toScsiDelivered : ScsiDelivered
  senseData : Fin 64 → BitVec 8

/-- `SCSILinuxCmdDone` and `SCSILinuxProcessCompletions` -/
def ScsiCmnd.deliver (scmd : ScsiCmnd) (c : VmkScsiCommand) : ScsiCompletion where
  toScsiDelivered := scmd.toScsiTransfer.cmdDone.complete
  senseData :=
    let status := scmd.toScsiTransfer.cmdDone.bounded.status
    -- "Copy the sense buffer whenever there's an error"
    if status.host = didOkByte ∧ status.device = deviceGood then c.senseData
    else fun i => scmd.senseBuffer (i.castLE (by decide))

structure QueueOutcome where
  given : Option ScsiCmnd := none
  delivered : Option ScsiCompletion := none

/-- `scsi_build_sense_buffer(0, ..., ILLEGAL_REQUEST, 0x20, 0x0)` -/
def illegalRequestSense (i : Fin 96) : Option (BitVec 8) :=
  match i.val with
  | 0 => some 0x70
  | 2 => some 0x05
  | 7 => some 0x0a
  | 12 => some 0x20
  | 13 => some 0x00
  | _ => none

/-- What `SCSILinuxQueueCommand` comes to with a command. -/
def queueVerdict (c : VmkScsiCommand) (d : ScsiTarget) : QueueVerdict :=
  if d.maxCmdLen < BitVec.ofNat 8 c.cdbLen then .complete
  else queueLocked d.shostState d.view

def ScsiCmnd.completeEarly (scmd : ScsiCmnd) (d : ScsiTarget) : ScsiCmnd :=
  if d.maxCmdLen < scmd.cmdLen then
    -- `SAM_STAT_CHECK_CONDITION`
    scmd.write { result := 0x2, resid := scmd.requestBufflen, sense := illegalRequestSense }
  -- `DID_NO_CONNECT << 16`
  else { scmd with result := 0x10000 }

/-- `SCSILinuxQueueCommand`, with the memory that `__scsi_get_command` has returned. -/
def queueCommand (prior : ScsiCmnd) (c : VmkScsiCommand) (d : ScsiTarget)
    (driver : ScsiCmnd → DriverAnswer) : QueueOutcome :=
  let scmd := setUpScmd prior c d
  match queueVerdict c d with
  | .complete => { delivered := some ((scmd.completeEarly d).deliver c) }
  | .issue =>
    { given := some scmd
      delivered :=
        match driver scmd with
        | .done w => some ((scmd.write w).deliver c)
        -- `SAM_STAT_BUSY`
        | .refused w => some (({ scmd.write w with result := 0x8 } : ScsiCmnd).deliver c)
        | .never => none }
  -- `VMK_WOULD_BLOCK`
  | .wouldBlock | .noMemory | .gone => {}

/-- The bytes that nobody writes are the same: those that the driver is given, or those of the
    sense buffer that are delivered without it. -/
def SameLeft (c : VmkScsiCommand) (d : ScsiTarget) (prior prior' : ScsiCmnd) : Prop :=
  match queueVerdict c d with
  | .issue => (∀ i : Fin 16, c.cdbLen ≤ i → prior.cmnd i = prior'.cmnd i) ∧
      ∀ i : Fin 96, 24 ≤ i.val → prior.senseBuffer i = prior'.senseBuffer i
  | .complete =>
    ∀ i : Fin 96, 24 ≤ i.val → i.val < 64 → prior.senseBuffer i = prior'.senseBuffer i
  | .wouldBlock | .noMemory | .gone => True

/-! ## What is left of the memory -/

variable {c : VmkScsiCommand} {d : ScsiTarget} {prior prior' : ScsiCmnd}
  {driver : ScsiCmnd → DriverAnswer}

theorem setUpScmd_cmnd (prior : ScsiCmnd) (c : VmkScsiCommand) (d : ScsiTarget) :
    (setUpScmd prior c d).cmnd = patch (prefixWrite c.cdbLen c.cdb) prior.cmnd := by
  unfold setUpScmd fillScmd computeSGArray
  split <;> rfl

theorem setUpScmd_senseBuffer (prior : ScsiCmnd) (c : VmkScsiCommand) (d : ScsiTarget) :
    (setUpScmd prior c d).senseBuffer = patch (prefixWrite 24 fun _ => 0) prior.senseBuffer := by
  unfold setUpScmd fillScmd computeSGArray
  split <;> rfl

theorem setUpScmd_cmdLen (prior : ScsiCmnd) (c : VmkScsiCommand) (d : ScsiTarget) :
    (setUpScmd prior c d).cmdLen = BitVec.ofNat 8 c.cdbLen := by
  unfold setUpScmd fillScmd computeSGArray
  split <;> rfl

theorem setUpScmd_toScsiTransfer (prior prior' : ScsiCmnd) (c : VmkScsiCommand) (d : ScsiTarget) :
    (setUpScmd prior c d).toScsiTransfer = (setUpScmd prior' c d).toScsiTransfer := by
  unfold setUpScmd fillScmd computeSGArray
  split <;> rfl

theorem setUpScmd_congr (hcmnd : patch (prefixWrite c.cdbLen c.cdb) prior.cmnd =
      patch (prefixWrite c.cdbLen c.cdb) prior'.cmnd)
    (hsense : patch (prefixWrite 24 fun _ => 0) prior.senseBuffer =
      patch (prefixWrite 24 fun _ => 0) prior'.senseBuffer) :
    setUpScmd prior c d = setUpScmd prior' c d := by
  unfold setUpScmd fillScmd computeSGArray
  split
  -- the direction is guessed from the command, and all else is given
  all_goals
    dsimp only [clearScmd, getDataDirection]
    rw [hcmnd, hsense]

theorem setUpScmd_eq_iff : setUpScmd prior c d = setUpScmd prior' c d ↔
    (∀ i : Fin 16, c.cdbLen ≤ i → prior.cmnd i = prior'.cmnd i) ∧
      ∀ i : Fin 96, 24 ≤ i.val → prior.senseBuffer i = prior'.senseBuffer i := by
  -- what the command does not cover, and what is not cleared
  have hcmnd : patch (prefixWrite c.cdbLen c.cdb) prior.cmnd =
      patch (prefixWrite c.cdbLen c.cdb) prior'.cmnd ↔
      ∀ i : Fin 16, c.cdbLen ≤ i → prior.cmnd i = prior'.cmnd i := by
    rw [patch_eq_iff]
    exact forall_congr' fun i => imp_congr prefixWrite_eq_none Iff.rfl
  have hsense : patch (prefixWrite 24 fun _ => 0) prior.senseBuffer =
      patch (prefixWrite 24 fun _ => 0) prior'.senseBuffer ↔
      ∀ i : Fin 96, 24 ≤ i.val → prior.senseBuffer i = prior'.senseBuffer i := by
    rw [patch_eq_iff]
    exact forall_congr' fun i => imp_congr prefixWrite_eq_none Iff.rfl
  rw [← hcmnd, ← hsense]
  constructor
  · intro h
    have hc := congrArg ScsiCmnd.cmnd h
    have hs := congrArg ScsiCmnd.senseBuffer h
    rw [setUpScmd_cmnd, setUpScmd_cmnd] at hc
    rw [setUpScmd_senseBuffer, setUpScmd_senseBuffer] at hs
    exact ⟨hc, hs⟩
  · rintro ⟨hc, hs⟩
    exact setUpScmd_congr hc hs

/-! ## Completion without the driver -/

theorem illegalRequestSense_of_le {i : Fin 96} (hi : 24 ≤ i.val) :
    illegalRequestSense i = none := by
  unfold illegalRequestSense
  split <;> first | rfl | omega

theorem completeEarly_sense_iff (i : Fin 96) :
    ((setUpScmd prior c d).completeEarly d).senseBuffer i =
        ((setUpScmd prior' c d).completeEarly d).senseBuffer i ↔
      (24 ≤ i.val → prior.senseBuffer i = prior'.senseBuffer i) := by
  have hcleared : (setUpScmd prior c d).senseBuffer i = (setUpScmd prior' c d).senseBuffer i ↔
      (24 ≤ i.val → prior.senseBuffer i = prior'.senseBuffer i) := by
    rw [setUpScmd_senseBuffer, setUpScmd_senseBuffer, patch_apply_eq_iff, prefixWrite_eq_none]
  unfold ScsiCmnd.completeEarly
  rw [setUpScmd_cmdLen, setUpScmd_cmdLen]
  split
  -- the sense data of the SCSI layer is written over bytes that are zero
  · show patch illegalRequestSense _ i = patch illegalRequestSense _ i ↔ _
    rw [patch_apply_eq_iff, hcleared]
    constructor
    · intro h hi
      exact h (illegalRequestSense_of_le hi) hi
    · intro h _
      exact h
  · exact hcleared

theorem completeEarly_toScsiTransfer (prior prior' : ScsiCmnd) (c : VmkScsiCommand)
    (d : ScsiTarget) :
    ((setUpScmd prior c d).completeEarly d).toScsiTransfer =
      ((setUpScmd prior' c d).completeEarly d).toScsiTransfer := by
  have htransfer := setUpScmd_toScsiTransfer prior prior' c d
  unfold ScsiCmnd.completeEarly
  rw [setUpScmd_cmdLen, setUpScmd_cmdLen]
  split
  · show { (setUpScmd prior c d).toScsiTransfer with
        result := 0x2, resid := (setUpScmd prior c d).toScsiTransfer.requestBufflen } = _
    rw [htransfer]
    rfl
  · show { (setUpScmd prior c d).toScsiTransfer with result := 0x10000 } = _
    rw [htransfer]

theorem completeEarly_senseData (prior : ScsiCmnd) (c : VmkScsiCommand) (d : ScsiTarget)
    (i : Fin 64) :
    (((setUpScmd prior c d).completeEarly d).deliver c).senseData i =
      ((setUpScmd prior c d).completeEarly d).senseBuffer (i.castLE (by decide)) := by
  -- `SAM_STAT_CHECK_CONDITION` or `DID_NO_CONNECT`
  have hresult : ((setUpScmd prior c d).completeEarly d).result = 0x2 ∨
      ((setUpScmd prior c d).completeEarly d).result = 0x10000 := by
    unfold ScsiCmnd.completeEarly
    split
    · exact .inl rfl
    · exact .inr rfl
  have hbad : ¬LooksGood ((setUpScmd prior c d).completeEarly d).result := by
    rcases hresult with h | h <;> rw [h]
    · exact fun hgood => absurd hgood.2.1 (by decide)
    · exact fun hgood => absurd hgood.1 (by decide)
  -- it is not zero, so that `SCSILinuxCmdDone` leaves it alone
  have hnonzero : ((setUpScmd prior c d).completeEarly d).toScsiTransfer.result ≠ 0 := by
    rcases hresult with h | h <;> rw [h] <;> decide
  unfold ScsiCmnd.deliver
  rw [ScsiTransfer.cmdDone_of_nonzero hnonzero]
  rw [if_neg fun hgood => hbad ((ScsiTransfer.bounded_good_iff _).mp hgood).1]

theorem completeEarly_deliver_iff :
    ((setUpScmd prior c d).completeEarly d).deliver c =
        ((setUpScmd prior' c d).completeEarly d).deliver c ↔
      ∀ i : Fin 96, 24 ≤ i.val → i.val < 64 → prior.senseBuffer i = prior'.senseBuffer i := by
  have hsense (i : Fin 64) :
      (((setUpScmd prior c d).completeEarly d).deliver c).senseData i =
          (((setUpScmd prior' c d).completeEarly d).deliver c).senseData i ↔
        (24 ≤ i.val → prior.senseBuffer (i.castLE (by decide)) =
          prior'.senseBuffer (i.castLE (by decide))) := by
    rw [completeEarly_senseData, completeEarly_senseData, completeEarly_sense_iff]
    rfl
  constructor
  · intro h i hcleared hcopied
    exact (hsense ⟨i, hcopied⟩).mp (congrFun (congrArg ScsiCompletion.senseData h) _) hcleared
  · intro h
    -- the status and the length come from the command alone
    have hdelivered : (((setUpScmd prior c d).completeEarly d).deliver c).toScsiDelivered =
        (((setUpScmd prior' c d).completeEarly d).deliver c).toScsiDelivered := by
      show (ScsiCmnd.toScsiTransfer _).cmdDone.complete =
        (ScsiCmnd.toScsiTransfer _).cmdDone.complete
      rw [completeEarly_toScsiTransfer prior prior']
    have hdata : (((setUpScmd prior c d).completeEarly d).deliver c).senseData =
        (((setUpScmd prior' c d).completeEarly d).deliver c).senseData := by
      funext i
      exact (hsense i).mpr fun hcleared => h _ hcleared i.isLt
    exact congrArg₂ ScsiCompletion.mk hdelivered hdata

/-- **What carries over**: two uses of a command's memory come to the same exactly if the bytes are
    the same that neither the SCSI layer nor the command has written. -/
theorem recycled_iff :
    queueCommand prior c d driver = queueCommand prior' c d driver ↔ SameLeft c d prior prior' := by
  unfold queueCommand SameLeft
  cases queueVerdict c d with
  | complete =>
    dsimp only
    rw [← completeEarly_deliver_iff]
    constructor
    · intro h
      exact Option.some.inj (congrArg QueueOutcome.delivered h)
    · intro h
      rw [h]
  | issue =>
    rw [← setUpScmd_eq_iff (d := d)]
    -- a driver does the same with the same
    constructor
    · intro h
      exact Option.some.inj (congrArg QueueOutcome.given h)
    · intro h
      rw [h]
  | wouldBlock => exact iff_of_true rfl trivial
  | noMemory => exact iff_of_true rfl trivial
  | gone => exact iff_of_true rfl trivial

/-! ## Two memories -/

def withSense (sense : Fin 96 → BitVec 8) : ScsiCmnd where
  cmdLen := 0
  scDataDirection := .none
  cmnd := fun _ => 0
  requestBuffer := .null
  useSg := 0
  sglistLen := 0
  transfersize := 0
  senseBuffer := sense
  tag := 0
  requestBufferMA := 0
  vmksg := {}

def checkConditionDriver (_ : ScsiCmnd) : DriverAnswer :=
  .done { result := 0x2, sense := prefixWrite 18 fun _ => 0x70 }

/-- A byte of the sense data of an earlier command is delivered with the next one. -/
theorem recycled_sense :
    ((queueCommand (withSense fun _ => 0xaa) {} {} checkConditionDriver).delivered.map
        fun k => k.senseData 24) = some 0xaa ∧
      ((queueCommand (withSense fun _ => 0) {} {} checkConditionDriver).delivered.map
        fun k => k.senseData 24) = some 0 ∧
      queueCommand (withSense fun _ => 0xaa) {} {} checkConditionDriver ≠
        queueCommand (withSense fun _ => 0) {} {} checkConditionDriver := by
  have hold : ((queueCommand (withSense fun _ => 0xaa) {} {} checkConditionDriver).delivered.map
      fun k => k.senseData 24) = some 0xaa := by decide
  have hnew : ((queueCommand (withSense fun _ => 0) {} {} checkConditionDriver).delivered.map
      fun k => k.senseData 24) = some 0 := by decide
  refine ⟨hold, hnew, fun h => ?_⟩
  rw [h, hnew] at hold
  exact absurd hold (by decide)

end VmkDrivers.Vmklinux
