/-
  VmkDrivers.Vmklinux.ScsiTransfer

  What a SCSI command is reported to have transferred (`linux_scsi.c`).

  A driver leaves a result word and a residue and calls `done`.  `SCSILinuxCmdDone`
  looks for an underflow, and later `SCSILinuxProcessCompletions` makes the statuses of
  the vmkernel from the bytes of the word.  The first compares the whole word with
  `DID_OK`, and the second looks at three of its bytes, without the suggestion and
  without the message: `transfer_right_iff`.

  A scatter list is given by the lengths of its elements.  The assertions of debug
  builds are left out.
-/

import Mathlib

namespace VmkDrivers.Vmklinux

/-! ## Status bytes -/

/-- `VMK_SCSI_HOST_OK`, ..., with the values of `DID_OK`, ... -/
abbrev didOkByte : BitVec 8 := 0x00
abbrev didNoConnect : BitVec 8 := 0x01
abbrev didBusBusy : BitVec 8 := 0x02
abbrev didTimeOutByte : BitVec 8 := 0x03
abbrev didBadTarget : BitVec 8 := 0x04
abbrev didError : BitVec 8 := 0x07
abbrev didBadIntr : BitVec 8 := 0x09
abbrev didPassthrough : BitVec 8 := 0x0a
abbrev didSoftError : BitVec 8 := 0x0b
abbrev didRequeue : BitVec 8 := 0x0d

/-- `VMK_SCSI_DEVICE_GOOD` -/
abbrev deviceGood : BitVec 8 := 0x00

/-- `VMKLNX_SCSI_HOST_STATUS` -/
def scsiHostStatus (result : BitVec 32) : BitVec 8 := (result >>> 16).setWidth 8

/-- `VMKLNX_SCSI_DEVICE_STATUS` -/
def scsiDeviceStatus (result : BitVec 32) : BitVec 8 := result.setWidth 8

/-- `VMKLNX_SCSI_STATUS_NO_SUGGEST` -/
def scsiStatusNoSuggest (result : BitVec 32) : BitVec 32 := result &&& 0x0fffffff

def driverByte (result : BitVec 32) : BitVec 8 := (result >>> 24).setWidth 8

@[match_pattern] abbrev driverOkByte : BitVec 8 := 0x00#8
@[match_pattern] abbrev driverBusyByte : BitVec 8 := 0x01#8
@[match_pattern] abbrev driverSoftByte : BitVec 8 := 0x02#8
@[match_pattern] abbrev driverMediaByte : BitVec 8 := 0x03#8
@[match_pattern] abbrev driverErrorByte : BitVec 8 := 0x04#8
@[match_pattern] abbrev driverInvalidByte : BitVec 8 := 0x05#8
@[match_pattern] abbrev driverTimeoutByte : BitVec 8 := 0x06#8
@[match_pattern] abbrev driverHardByte : BitVec 8 := 0x07#8
@[match_pattern] abbrev driverSenseByte : BitVec 8 := 0x08#8

/-- `vmk_ScsiCmdStatus` -/
structure ScsiStatus where
  host : BitVec 8
  device : BitVec 8
deriving DecidableEq, Repr

/-- The `switch` over the driver byte. -/
def driverStatus (result : BitVec 32) : ScsiStatus :=
  match driverByte (scsiStatusNoSuggest result) with
  | driverOkByte => ⟨scsiHostStatus result, scsiDeviceStatus result⟩
  | driverBusyByte | driverSoftByte => ⟨didBusBusy, deviceGood⟩
  | driverMediaByte | driverErrorByte | driverHardByte | driverInvalidByte =>
    ⟨didError, deviceGood⟩
  | driverTimeoutByte => ⟨didTimeOutByte, deviceGood⟩
  | driverSenseByte => ⟨scsiHostStatus result, scsiDeviceStatus result⟩
  -- "Unknown driver code"
  | _ => ⟨scsiHostStatus result, scsiDeviceStatus result⟩

def supportedHost (host : BitVec 8) : BitVec 8 :=
  let host := if host = didBadTarget then didNoConnect else host
  let host := if host = didBadIntr then didSoftError else host
  let host := if host = didPassthrough then didError else host
  if host = didRequeue then didSoftError else host

/-! ## Transfers -/

/-- What `struct scsi_cmnd` says about the transfer. -/
structure ScsiTransfer where
  requestBufflen : BitVec 32 := 0
  underflow : BitVec 32 := 0
  /-- An `int`. -/
  resid : BitVec 32 := 0
  result : BitVec 32 := 0
deriving DecidableEq, Repr

/-- The elements that `SCSILinuxComputeSGArray` sees; their number is held in an `int`. -/
def sgElems (sgArray : Option (List (BitVec 32))) : List (BitVec 32) :=
  match sgArray with
  | none => []
  | some elems => elems.take (BitVec.ofNat 32 elems.length).toInt.toNat

/-- `request_bufflen`, from a cleared command. -/
def computeBufflen (sgArray : Option (List (BitVec 32))) : BitVec 32 :=
  (sgElems sgArray).foldl (· + ·) 0

structure ScsiDelivered where
  status : ScsiStatus
  bytesXferred : BitVec 32
deriving DecidableEq, Repr

namespace ScsiTransfer

variable (t : ScsiTransfer)

/-- `DID_ERROR << 16` -/
def fail : ScsiTransfer := { t with result := 0x00070000 }

/-- `SCSILinuxCmdDone`: "Fail cmd on underflow since many drivers fail to do so" -/
def cmdDone : ScsiTransfer :=
  if t.result = 0 then
    if t.resid.slt 0 then t.fail
    else if t.requestBufflen - t.resid < t.underflow then t.fail
    else t
  else t

/-- The statuses and the length before the conversions, in `SCSILinuxProcessCompletions`. -/
def bounded : ScsiDelivered :=
  let status := driverStatus t.result
  let bytesXferred := t.requestBufflen - t.resid
  if t.requestBufflen < bytesXferred then
    if status.host ≠ didOkByte ∨ status.device ≠ deviceGood then ⟨status, 0⟩
    -- "We should not reach here"
    else ⟨⟨didError, deviceGood⟩, 0⟩
  else ⟨status, bytesXferred⟩

/-- `SCSILinuxProcessCompletions`, for an ordinary command. -/
def complete : ScsiDelivered :=
  { t.bounded with status := { t.bounded.status with host := supportedHost t.bounded.status.host } }

end ScsiTransfer

def reportTransfer (sgArray : Option (List (BitVec 32)))
    (requiredDataLen result resid : BitVec 32) : ScsiDelivered :=
  ({ requestBufflen := computeBufflen sgArray
     underflow := requiredDataLen
     resid, result } : ScsiTransfer).cmdDone.complete

/-- Whatever is reported is right: the length, good statuses, bad statuses, and no others. -/
structure TransferRight (sgArray : Option (List (BitVec 32)))
    (requiredDataLen result resid : BitVec 32) (d : ScsiDelivered) : Prop where
  at_most : d.bytesXferred ≤ computeBufflen sgArray
  residue : 0 ≤ resid.toInt → resid.toInt ≤ (computeBufflen sgArray).toNat →
    (d.bytesXferred.toNat : Int) = (computeBufflen sgArray).toNat - resid.toInt
  enough : d.status.host = didOkByte → d.status.device = deviceGood →
    requiredDataLen ≤ d.bytesXferred
  host_kept : driverByte (scsiStatusNoSuggest result) = driverOkByte ∨
      driverByte (scsiStatusNoSuggest result) = driverSenseByte →
    scsiHostStatus result ≠ didOkByte → d.status.host ≠ didOkByte
  supported : d.status.host ≠ didBadTarget ∧ d.status.host ≠ didBadIntr ∧
    d.status.host ≠ didPassthrough ∧ d.status.host ≠ didRequeue

/-- The result of a command that looks good: whatever the message and the suggestion. -/
def LooksGood (result : BitVec 32) : Prop :=
  scsiHostStatus result = didOkByte ∧ scsiDeviceStatus result = deviceGood ∧
    (driverByte (scsiStatusNoSuggest result) = driverOkByte ∨
      driverSenseByte ≤ driverByte (scsiStatusNoSuggest result))

def UnderflowSeen (sgArray : Option (List (BitVec 32))) (requiredDataLen result resid : BitVec 32) :
    Prop :=
  result = 0 ∨ ¬LooksGood result ∨ computeBufflen sgArray < computeBufflen sgArray - resid ∨
    requiredDataLen ≤ computeBufflen sgArray - resid

/-! ## Statuses -/

variable {t : ScsiTransfer} {sgArray : Option (List (BitVec 32))} {r : BitVec 32}

theorem supportedHost_ok_iff (host : BitVec 8) :
    supportedHost host = didOkByte ↔ host = didOkByte := by
  revert host
  decide

theorem supportedHost_supported (host : BitVec 8) :
    supportedHost host ≠ didBadTarget ∧ supportedHost host ≠ didBadIntr ∧
      supportedHost host ≠ didPassthrough ∧ supportedHost host ≠ didRequeue := by
  revert host
  decide

theorem driverStatus_bytes (h : driverByte (scsiStatusNoSuggest r) = driverOkByte ∨
    driverSenseByte ≤ driverByte (scsiStatusNoSuggest r)) :
    driverStatus r = ⟨scsiHostStatus r, scsiDeviceStatus r⟩ := by
  unfold driverStatus
  generalize driverByte (scsiStatusNoSuggest r) = code at h
  split
  -- the codes from `DRIVER_BUSY` to `DRIVER_HARD` are neither zero nor from eight on
  all_goals first
    | rfl
    | exact absurd h (by decide)

theorem driverStatus_error (h : ¬(driverByte (scsiStatusNoSuggest r) = driverOkByte ∨
    driverSenseByte ≤ driverByte (scsiStatusNoSuggest r))) :
    (driverStatus r).host ≠ didOkByte := by
  -- seven codes are left, each with a status of its own
  have hbelow : ∀ code : BitVec 8, ¬(code = driverOkByte ∨ driverSenseByte ≤ code) →
      code = driverBusyByte ∨ code = driverSoftByte ∨ code = driverMediaByte ∨
        code = driverErrorByte ∨ code = driverInvalidByte ∨ code = driverTimeoutByte ∨
        code = driverHardByte := by decide
  unfold driverStatus
  rcases hbelow _ h with hc | hc | hc | hc | hc | hc | hc <;> rw [hc]
  · exact (by decide : didBusBusy ≠ didOkByte)
  · exact (by decide : didBusBusy ≠ didOkByte)
  · exact (by decide : didError ≠ didOkByte)
  · exact (by decide : didError ≠ didOkByte)
  · exact (by decide : didError ≠ didOkByte)
  · exact (by decide : didTimeOutByte ≠ didOkByte)
  · exact (by decide : didError ≠ didOkByte)

theorem driverStatus_good_iff (r : BitVec 32) :
    (driverStatus r).host = didOkByte ∧ (driverStatus r).device = deviceGood ↔ LooksGood r := by
  by_cases hcode : driverByte (scsiStatusNoSuggest r) = driverOkByte ∨
      driverSenseByte ≤ driverByte (scsiStatusNoSuggest r)
  · rw [driverStatus_bytes hcode]
    constructor
    · rintro ⟨hhost, hdevice⟩
      exact ⟨hhost, hdevice, hcode⟩
    · rintro ⟨hhost, hdevice, -⟩
      exact ⟨hhost, hdevice⟩
  · constructor
    · rintro ⟨hhost, -⟩
      exact absurd hhost (driverStatus_error hcode)
    · rintro ⟨-, -, hgood⟩
      exact absurd hgood hcode

/-! ## Completion -/

namespace ScsiTransfer

theorem fail_not_good (t : ScsiTransfer) : ¬LooksGood t.fail.result := by
  rintro ⟨hhost, -⟩
  exact absurd hhost (by decide : scsiHostStatus 0x00070000 ≠ didOkByte)

theorem cmdDone_cases (t : ScsiTransfer) :
    t.cmdDone = t.fail ∧ t.result = 0 ∨
      t.cmdDone = t ∧ (t.result = 0 → t.underflow ≤ t.requestBufflen - t.resid) := by
  unfold cmdDone
  split
  case isFalse hnonzero => exact .inr ⟨rfl, fun hzero => absurd hzero hnonzero⟩
  case isTrue hzero =>
    split
    case isTrue => exact .inl ⟨rfl, hzero⟩
    case isFalse =>
      split
      case isTrue => exact .inl ⟨rfl, hzero⟩
      case isFalse hless => exact .inr ⟨rfl, fun _ => BitVec.not_lt.mp hless⟩

@[simp] theorem cmdDone_requestBufflen (t : ScsiTransfer) :
    t.cmdDone.requestBufflen = t.requestBufflen := by
  rcases cmdDone_cases t with ⟨h, -⟩ | ⟨h, -⟩ <;> rw [h]
  rfl

@[simp] theorem cmdDone_resid (t : ScsiTransfer) : t.cmdDone.resid = t.resid := by
  rcases cmdDone_cases t with ⟨h, -⟩ | ⟨h, -⟩ <;> rw [h]
  rfl

theorem cmdDone_of_nonzero (h : t.result ≠ 0) : t.cmdDone = t := by
  rcases cmdDone_cases t with ⟨-, hzero⟩ | ⟨hsame, -⟩
  · exact absurd hzero h
  · exact hsame

@[simp] theorem complete_host (t : ScsiTransfer) :
    t.complete.status.host = supportedHost t.bounded.status.host := by
  rw [complete]

@[simp] theorem complete_device (t : ScsiTransfer) :
    t.complete.status.device = t.bounded.status.device := by
  rw [complete]

theorem complete_bytesXferred (t : ScsiTransfer) : t.complete.bytesXferred =
    if t.requestBufflen < t.requestBufflen - t.resid then 0
    else t.requestBufflen - t.resid := by
  unfold complete bounded
  dsimp only
  split
  · split <;> rfl
  · rfl

theorem complete_le (t : ScsiTransfer) : t.complete.bytesXferred ≤ t.requestBufflen := by
  rw [complete_bytesXferred]
  split
  · exact BitVec.le_def.mpr (Nat.zero_le _)
  · next hless => exact BitVec.not_lt.mp hless

theorem complete_exact (hpos : 0 ≤ t.resid.toInt) (hle : t.resid.toInt ≤ t.requestBufflen.toNat) :
    (t.complete.bytesXferred.toNat : Int) = t.requestBufflen.toNat - t.resid.toInt := by
  -- a residue that is not negative is the number that is subtracted
  have hresid : t.resid.toInt = t.resid.toNat :=
    BitVec.toInt_eq_toNat_of_msb (BitVec.msb_eq_false_iff_two_mul_lt.mpr (by
      have hcases := BitVec.toInt_eq_toNat_cond t.resid
      have hlt := t.resid.isLt
      split at hcases <;> omega))
  have hsub : (t.requestBufflen - t.resid).toNat = t.requestBufflen.toNat - t.resid.toNat :=
    BitVec.toNat_sub_of_le (BitVec.le_def.mpr (by omega))
  -- the difference has not wrapped, and so is not taken for an error
  have hbound : ¬t.requestBufflen < t.requestBufflen - t.resid := by
    rw [BitVec.lt_def, hsub]
    omega
  rw [complete_bytesXferred, if_neg hbound, hsub]
  omega

theorem bounded_good_iff (t : ScsiTransfer) :
    t.bounded.status.host = didOkByte ∧ t.bounded.status.device = deviceGood ↔
      LooksGood t.result ∧ ¬t.requestBufflen < t.requestBufflen - t.resid := by
  rw [← driverStatus_good_iff]
  unfold bounded
  by_cases hlong : t.requestBufflen < t.requestBufflen - t.resid
  · rw [if_pos hlong]
    refine iff_of_false ?_ (fun h => h.2 hlong)
    -- too long a transfer is an error already, or is made one
    split
    · next hbad => exact fun hgood => hbad.elim (· hgood.1) (· hgood.2)
    · exact fun hgood => absurd hgood.1 (by decide)
  · rw [if_neg hlong]
    exact (and_iff_left hlong).symm

theorem complete_good_iff (t : ScsiTransfer) :
    t.complete.status.host = didOkByte ∧ t.complete.status.device = deviceGood ↔
      LooksGood t.result ∧ ¬t.requestBufflen < t.requestBufflen - t.resid := by
  rw [complete_host, complete_device, supportedHost_ok_iff, bounded_good_iff]

theorem complete_host_kept (h : (driverStatus t.result).host ≠ didOkByte) :
    t.complete.status.host ≠ didOkByte := by
  rw [Ne, complete_host, supportedHost_ok_iff]
  unfold bounded
  dsimp only
  rw [if_pos (Or.inl h)]
  split <;> exact h

theorem complete_supported (t : ScsiTransfer) :
    t.complete.status.host ≠ didBadTarget ∧ t.complete.status.host ≠ didBadIntr ∧
      t.complete.status.host ≠ didPassthrough ∧ t.complete.status.host ≠ didRequeue := by
  rw [complete_host]
  exact supportedHost_supported t.bounded.status.host

end ScsiTransfer

/-! ## Reports -/

variable {requiredDataLen result resid : BitVec 32}

open ScsiTransfer

theorem report_enough (hseen : UnderflowSeen sgArray requiredDataLen result resid)
    (hhost : (reportTransfer sgArray requiredDataLen result resid).status.host = didOkByte)
    (hdevice : (reportTransfer sgArray requiredDataLen result resid).status.device = deviceGood) :
    requiredDataLen ≤ (reportTransfer sgArray requiredDataLen result resid).bytesXferred := by
  unfold reportTransfer at *
  generalize ht :
    (⟨computeBufflen sgArray, requiredDataLen, resid, result⟩ : ScsiTransfer) = t at *
  -- what is good has not been failed, so that its length is the difference
  obtain ⟨hgood, hbound⟩ := t.cmdDone.complete_good_iff.mp ⟨hhost, hdevice⟩
  rw [complete_bytesXferred, if_neg hbound, cmdDone_requestBufflen, cmdDone_resid]
  rw [cmdDone_requestBufflen, cmdDone_resid] at hbound
  rcases t.cmdDone_cases with ⟨hfail, -⟩ | ⟨hsame, hzero⟩
  · -- failed there, and so not good
    rw [hfail] at hgood
    exact absurd hgood t.fail_not_good
  · rw [hsame] at hgood
    subst ht
    rcases hseen with hz | hbad | hlong | henough
    · exact hzero hz
    · exact absurd hgood hbad
    · exact absurd hlong hbound
    · exact henough

theorem report_short (hseen : ¬UnderflowSeen sgArray requiredDataLen result resid) :
    (reportTransfer sgArray requiredDataLen result resid).status.host = didOkByte ∧
      (reportTransfer sgArray requiredDataLen result resid).status.device = deviceGood ∧
      (reportTransfer sgArray requiredDataLen result resid).bytesXferred < requiredDataLen := by
  obtain ⟨hnonzero, hseen⟩ := not_or.mp hseen
  obtain ⟨hgood, hseen⟩ := not_or.mp hseen
  obtain ⟨hbound, hshort⟩ := not_or.mp hseen
  -- a result that is not zero passes `SCSILinuxCmdDone` as it is
  rw [reportTransfer, cmdDone_of_nonzero hnonzero]
  obtain ⟨hhost, hdevice⟩ :=
    (complete_good_iff ⟨computeBufflen sgArray, requiredDataLen, resid, result⟩).mpr
      ⟨not_not.mp hgood, hbound⟩
  refine ⟨hhost, hdevice, ?_⟩
  rw [complete_bytesXferred, if_neg hbound]
  exact BitVec.not_le.mp hshort

theorem report_host_kept (hcode : driverByte (scsiStatusNoSuggest result) = driverOkByte ∨
      driverByte (scsiStatusNoSuggest result) = driverSenseByte)
    (hhost : scsiHostStatus result ≠ didOkByte) :
    (reportTransfer sgArray requiredDataLen result resid).status.host ≠ didOkByte := by
  have hnonzero : result ≠ 0 := by
    rintro rfl
    exact hhost rfl
  -- both codes leave the host byte as it is
  have hcode' : driverByte (scsiStatusNoSuggest result) = driverOkByte ∨
      driverSenseByte ≤ driverByte (scsiStatusNoSuggest result) :=
    hcode.imp_right fun h => BitVec.le_of_eq h.symm
  rw [reportTransfer, cmdDone_of_nonzero hnonzero]
  refine complete_host_kept ?_
  rw [driverStatus_bytes hcode']
  exact hhost

/-- **What is reported is right exactly where an underflow is seen**: a command whose result looks
    good but is not zero may have transferred less than what was required. -/
theorem transfer_right_iff :
    TransferRight sgArray requiredDataLen result resid
        (reportTransfer sgArray requiredDataLen result resid) ↔
      UnderflowSeen sgArray requiredDataLen result resid := by
  constructor
  · intro hright
    by_contra hseen
    obtain ⟨hhost, hdevice, hshort⟩ := report_short hseen
    exact absurd (hright.enough hhost hdevice) (BitVec.not_le.mpr hshort)
  · intro hseen
    exact {
      at_most := by
        refine BitVec.le_trans (complete_le _) ?_
        rw [cmdDone_requestBufflen]
        exact BitVec.le_refl _
      residue := by
        intro hpos hle
        have hexact := complete_exact
          (t := (⟨computeBufflen sgArray, requiredDataLen, resid, result⟩ : ScsiTransfer).cmdDone)
        rw [cmdDone_requestBufflen, cmdDone_resid] at hexact
        exact hexact hpos hle
      enough := report_enough hseen
      host_kept := report_host_kept
      supported := complete_supported _ }

/-- 512 bytes are required and none is transferred: `SUGGEST_RETRY` is enough. -/
theorem transfer_wrong :
    reportTransfer (some [512]) 512 0x10000000 512 = ⟨⟨didOkByte, deviceGood⟩, 0⟩ ∧
      ¬TransferRight (some [512]) 512 0x10000000 512
        (reportTransfer (some [512]) 512 0x10000000 512) := by
  have hreport : reportTransfer (some [512]) 512 0x10000000 512 =
      ⟨⟨didOkByte, deviceGood⟩, 0⟩ := by decide
  refine ⟨hreport, fun hright => ?_⟩
  rw [hreport] at hright
  exact absurd (hright.enough rfl rfl) (by decide)

end VmkDrivers.Vmklinux
