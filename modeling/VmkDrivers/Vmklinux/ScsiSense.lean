/-
  VmkDrivers.Vmklinux.ScsiSense

  The sense data of internal SCSI commands (`scsi_execute`, `scsi_normalize_sense`,
  `scsi_execute_req` and `scsi_mode_sense` in `linux_scsi_lld_if.c`).

  `scsi_execute_req` lets `scsi_execute` have a buffer for the sense data of its command,
  and makes a header of what is there afterwards.  `scsi_mode_sense` looks at the header
  and at the result, to read the data or to try again with a shorter command.  But the
  buffer stays as it was, and the result says that there was an error in a way that
  `scsi_status_is_good` takes for good (`sense_right_iff`).

  What is outside has a state and answers to allocations and commands; a command that the
  driver keeps until it times out has the result of the abort.  Counts, timers and locks
  are left out.
-/

import Mathlib

namespace VmkDrivers.Vmklinux

abbrev Byte := BitVec 8

/-! ## Sense data -/

/-- `struct scsi_sense_hdr`; `byte4` to `byte6` are never set. -/
structure SenseHdr where
  responseCode : Byte := 0
  senseKey : Byte := 0
  asc : Byte := 0
  ascq : Byte := 0
  additionalLength : Byte := 0
deriving DecidableEq, Repr

/-- `scsi_sense_valid` -/
def SenseHdr.valid (hdr : SenseHdr) : Bool := hdr.responseCode &&& 0x70 == 0x70

def scsiSenseBuffersize : Nat := 96

/-- `scsi_normalize_sense`; without a buffer the header stays. -/
def scsiNormalizeSense (senseBuffer : Option (Nat → Byte)) (sbLen : Nat) (sshdr : SenseHdr) :
    Bool × SenseHdr :=
  match senseBuffer with
  | none => (false, sshdr)
  | some b =>
    if sbLen = 0 then (false, sshdr)
    else
      let hdr : SenseHdr := { responseCode := b 0 &&& 0x7f }
      if !hdr.valid then (false, hdr)
      else if 0x72 ≤ hdr.responseCode then
        -- descriptor format
        (true, { hdr with
          senseKey := if 1 < sbLen then b 1 &&& 0xf else 0
          asc := if 2 < sbLen then b 2 else 0
          ascq := if 3 < sbLen then b 3 else 0
          additionalLength := if 7 < sbLen then b 7 else 0 })
      else
        -- fixed format
        let hdr := { hdr with senseKey := if 2 < sbLen then b 2 &&& 0xf else 0 }
        if 7 < sbLen then
          let sbLen := min sbLen ((b 7).toNat + 8)
          (true, { hdr with
            asc := if 12 < sbLen then b 12 else 0
            ascq := if 13 < sbLen then b 13 else 0 })
        else (true, hdr)

/-! ## What is outside -/

structure IntRequest where
  cmnd : List Byte
  dataDirection : BitVec 32
  buffer : Nat → Byte
  bufflen : BitVec 32

/-- What becomes of a command: whether `queuecommand` takes it, the result, the sense buffer and
    the data. -/
structure IntOutcome where
  accepted : Bool
  result : BitVec 32
  senseBuffer : Nat → Byte
  buffer : Nat → Byte

structure ScsiOutside (σ : Type) where
  alloc : σ → Bool × σ
  queuecommand : σ → IntRequest → IntOutcome × σ

variable {σ : Type} (w : ScsiOutside σ)

/-! ## `scsi_execute` -/

def scsiCommandSize : List Nat := [6, 10, 10, 12, 16, 12, 10, 10]

def commandSize (opcode : Byte) : Nat := scsiCommandSize.getD ((opcode >>> 5) &&& 7).toNat 0

/-- `DRIVER_ERROR << 24` -/
def driverErrorWord : BitVec 32 := 0x04 <<< 24

/-- The command that `scsi_execute` fills in. -/
def intRequest (cmd : Nat → Byte) (dataDirection : BitVec 32) (buffer : Nat → Byte)
    (bufflen : BitVec 32) : IntRequest where
  cmnd := (List.range (commandSize (cmd 0))).map cmd
  dataDirection
  buffer
  bufflen

/-- The driver has completed the command with `DID_OK`. -/
def IntOutcome.DidOk (o : IntOutcome) : Prop := o.accepted = true ∧ o.result = 0

instance (o : IntOutcome) : Decidable o.DidOk := inferInstanceAs (Decidable (_ ∧ _))

structure ExecuteResult (σ : Type) where
  ret : BitVec 32
  buffer : Nat → Byte
  outside : σ
  command : Option IntOutcome

/-- `scsi_execute`; the buffer for the sense data is among the arguments. -/
def scsiExecute (s : σ) (cmd : Nat → Byte) (dataDirection : BitVec 32) (buffer : Nat → Byte)
    (bufflen : BitVec 32) (sense : Option (Nat → Byte)) :
    ExecuteResult σ × Option (Nat → Byte) :=
  match w.alloc s with
  | (false, s) => ({ ret := driverErrorWord, buffer, outside := s, command := none }, sense)
  | (true, s) =>
    let (o, s) := w.queuecommand s (intRequest cmd dataDirection buffer bufflen)
    let ret := if o.DidOk then 0 else driverErrorWord
    -- the command is freed, and `sense` is as it was
    ({ ret, buffer := o.buffer, outside := s, command := some o }, sense)

/-- `scsi_execute_req`: what the call leaves, and the header. -/
def scsiExecuteReq (s : σ) (cmd : Nat → Byte) (dataDirection : BitVec 32) (buffer : Nat → Byte)
    (bufflen : BitVec 32) (sshdr : Option SenseHdr) : ExecuteResult σ × Option SenseHdr :=
  match sshdr with
  | none => ((scsiExecute w s cmd dataDirection buffer bufflen none).1, none)
  | some hdr =>
    match w.alloc s with
    | (false, s) => ({ ret := driverErrorWord, buffer, outside := s, command := none }, hdr)
    | (true, s) =>
      let (r, sense) := scsiExecute w s cmd dataDirection buffer bufflen (some fun _ => 0)
      (r, (scsiNormalizeSense sense scsiSenseBuffersize hdr).2)

/-! ## `scsi_mode_sense` -/

def scsiStatusIsGood (status : BitVec 32) : Bool :=
  let status := status &&& 0xfe
  status == 0x00 || status == 0x10 || status == 0x14 || status == 0x22

/-- `driver_byte` -/
def driverByteOf (result : BitVec 32) : BitVec 32 := (result >>> 24) &&& 0xff

/-- `DRIVER_SENSE` -/
def driverSenseWord : BitVec 32 := 0x08

/-- "Invalid command operation code" -/
def SenseHdr.InvalidOpcode (hdr : SenseHdr) : Prop :=
  hdr.valid = true ∧ hdr.senseKey = 0x05 ∧ hdr.asc = 0x20 ∧ hdr.ascq = 0

instance (hdr : SenseHdr) : Decidable hdr.InvalidOpcode :=
  inferInstanceAs (Decidable (_ ∧ _ ∧ _ ∧ _))

structure ScsiModeData where
  length : BitVec 32 := 0
  blockDescriptorLength : BitVec 16 := 0
  mediumType : Byte := 0
  deviceSpecific : Byte := 0
  headerLength : Byte := 0
  longlba : Bool := false
deriving DecidableEq, Repr

def modeHeader (use10 : Bool) (modepage : Byte) (b : Nat → Byte) : ScsiModeData :=
  if b 0 = 0x86 ∧ b 1 = 0x0b ∧ (modepage = 6 ∨ modepage = 8) then { length := 13 }
  else if use10 then {
    length := (b 0).setWidth 32 * 256 + (b 1).setWidth 32 + 2
    mediumType := b 2
    deviceSpecific := b 3
    longlba := (b 4).getLsbD 0
    blockDescriptorLength := (b 6).setWidth 16 * 256 + (b 7).setWidth 16
    headerLength := 8 }
  else {
    length := (b 0).setWidth 32 + 1
    mediumType := b 1
    deviceSpecific := b 2
    blockDescriptorLength := (b 3).setWidth 16
    headerLength := 4 }

/-- The bytes of `cmd`. -/
def modeSenseCmd (dbd : Byte) (modepage : Byte) (use10 : Bool) (len : BitVec 32) : Nat → Byte :=
  fun i =>
    if i = 0 then (if use10 then 0x5a else 0x1a)
    else if i = 1 then dbd &&& 0x18
    else if i = 2 then modepage
    else if use10 && i == 8 || !use10 && i == 4 then len.setWidth 8
    else 0

def dmaFromDevice : BitVec 32 := 2

def modeSenseLen (use10 : Bool) (len : BitVec 32) : BitVec 32 :=
  let header : BitVec 32 := if use10 then 8 else 4
  if len.toInt < header.toInt then header else len

/-- The attempt behind `retry`. -/
def modeSenseAttempt (s : σ) (use10 : Bool) (dbd modepage : Byte) (buffer : Nat → Byte)
    (len : BitVec 32) (sshdr : SenseHdr) : ExecuteResult σ × SenseHdr :=
  let (r, hdr) := scsiExecuteReq w s (modeSenseCmd dbd modepage use10 len) dmaFromDevice
    (fun i => if i < len.toNat then 0 else buffer i) len (some sshdr)
  (r, hdr.getD sshdr)

/-- What `scsi_mode_sense` leaves: the result, the data, the buffer, the header, the outside and
    `use_10_for_ms`, and what became of the commands of its attempts. -/
structure ModeSenseResult (σ : Type) where
  ret : BitVec 32
  data : ScsiModeData
  buffer : Nat → Byte
  sshdr : SenseHdr
  outside : σ
  use10ForMs : Bool
  attempts : List (Option IntOutcome)

def modeSenseFinish (use10 : Bool) (modepage : Byte) (r : ExecuteResult σ) (hdr : SenseHdr)
    (attempts : List (Option IntOutcome)) : ModeSenseResult σ where
  ret := r.ret
  data := if scsiStatusIsGood r.ret then modeHeader use10 modepage r.buffer else {}
  buffer := r.buffer
  sshdr := hdr
  outside := r.outside
  use10ForMs := use10
  attempts

/-- `scsi_mode_sense`; `sshdr` is the header of the caller or `my_sshdr`. -/
def scsiModeSense (s : σ) (use10ForMs : Bool) (dbd modepage : Byte) (buffer : Nat → Byte)
    (len : BitVec 32) (sshdr : SenseHdr) : ModeSenseResult σ :=
  let len := modeSenseLen use10ForMs len
  let (r, hdr) := modeSenseAttempt w s use10ForMs dbd modepage buffer len sshdr
  if use10ForMs = true ∧ ¬scsiStatusIsGood r.ret ∧ driverByteOf r.ret &&& driverSenseWord ≠ 0 ∧
      hdr.InvalidOpcode then
    -- `retry`
    let (r', hdr') := modeSenseAttempt w r.outside false dbd modepage r.buffer
      (modeSenseLen false len) hdr
    modeSenseFinish false modepage r' hdr' [r.command, r'.command]
  else modeSenseFinish use10ForMs modepage r hdr [r.command]

/-! ## What is promised -/

/-- What the driver makes of the command of `scsi_execute_req`, if it comes to that. -/
def driverOutcome (s : σ) (cmd : Nat → Byte) (dataDirection : BitVec 32) (buffer : Nat → Byte)
    (bufflen : BitVec 32) : Option IntOutcome :=
  match w.alloc s with
  | (false, _) => none
  | (true, s) =>
    match w.alloc s with
    | (false, _) => none
    | (true, s) => some (w.queuecommand s (intRequest cmd dataDirection buffer bufflen)).1

/-- **The claim about `scsi_execute_req`**: the header is that of the sense data which the driver
    has left in the command. -/
def SenseReported (s : σ) (cmd : Nat → Byte) (dataDirection : BitVec 32) (buffer : Nat → Byte)
    (bufflen : BitVec 32) (hdr : SenseHdr) : Prop :=
  let (r, sshdr) := scsiExecuteReq w s cmd dataDirection buffer bufflen (some hdr)
  ∀ o, r.command = some o →
    sshdr = some (scsiNormalizeSense (some o.senseBuffer) scsiSenseBuffersize hdr).2

/-- **The claim about `scsi_mode_sense`**: the buffer is read only if the command has completed
    with `DID_OK`, and there is a second attempt exactly if the ten-byte command failed as one
    that the device does not know. -/
def ModeSenseRight (s : σ) (use10ForMs : Bool) (dbd modepage : Byte) (buffer : Nat → Byte)
    (len : BitVec 32) (sshdr : SenseHdr) : Prop :=
  let r := scsiModeSense w s use10ForMs dbd modepage buffer len sshdr
  (r.data ≠ {} → ∃ o, r.attempts.getLast? = some (some o) ∧ o.DidOk) ∧
    (r.attempts.length = 2 ↔ use10ForMs = true ∧ ∃ o, r.attempts.head? = some (some o) ∧ ¬o.DidOk ∧
      (scsiNormalizeSense (some o.senseBuffer) scsiSenseBuffersize sshdr).2.InvalidOpcode)

/-! ## The header -/

variable {w} {s : σ} {cmd : Nat → Byte} {dataDirection : BitVec 32} {buffer : Nat → Byte}
  {bufflen : BitVec 32} {hdr : SenseHdr}

theorem normalizeSense_responseCode (b : Nat → Byte) (hdr : SenseHdr) :
    (scsiNormalizeSense (some b) scsiSenseBuffersize hdr).2.responseCode = b 0 &&& 0x7f := by
  unfold scsiNormalizeSense
  dsimp only
  repeat' split
  all_goals first | rfl | contradiction

theorem normalizeSense_eq_empty_iff (b : Nat → Byte) (hdr : SenseHdr) :
    (scsiNormalizeSense (some b) scsiSenseBuffersize hdr).2 = {} ↔ b 0 &&& 0x7f = 0 := by
  constructor
  · intro h
    rw [← normalizeSense_responseCode b hdr, h]
  · intro h
    have hinvalid : SenseHdr.valid { responseCode := b 0 &&& 0x7f } = false := by
      rw [h]
      rfl
    unfold scsiNormalizeSense
    dsimp only
    rw [if_neg (by decide), hinvalid, h]
    rfl

theorem executeReq_command :
    (scsiExecuteReq w s cmd dataDirection buffer bufflen (some hdr)).1.command =
      driverOutcome w s cmd dataDirection buffer bufflen := by
  rw [scsiExecuteReq, driverOutcome]
  rcases w.alloc s with ⟨_ | _, s₁⟩
  · rfl
  · dsimp only
    rw [scsiExecute]
    rcases w.alloc s₁ with ⟨_ | _, s₂⟩ <;> rfl

theorem executeReq_sshdr (hdr : SenseHdr) {o : IntOutcome}
    (h : driverOutcome w s cmd dataDirection buffer bufflen = some o) :
    (scsiExecuteReq w s cmd dataDirection buffer bufflen (some hdr)).2 = some {} := by
  have hzero := (normalizeSense_eq_empty_iff (fun _ => 0) hdr).mpr (by decide)
  rw [driverOutcome] at h
  rw [scsiExecuteReq]
  rcases hs : w.alloc s with ⟨_ | _, s₁⟩
  · rw [hs] at h
    cases h
  · dsimp only
    rw [scsiExecute]
    rcases w.alloc s₁ with ⟨_ | _, s₂⟩ <;> exact congrArg some hzero

theorem senseReported_iff : SenseReported w s cmd dataDirection buffer bufflen hdr ↔
    ∀ o ∈ driverOutcome w s cmd dataDirection buffer bufflen, o.senseBuffer 0 &&& 0x7f = 0 := by
  have hcommand : (scsiExecuteReq w s cmd dataDirection buffer bufflen (some hdr)).1.command = _ :=
    executeReq_command
  constructor
  · intro h o ho
    have hreport := (executeReq_sshdr hdr ho).symm.trans (h o (hcommand.trans ho))
    exact (normalizeSense_eq_empty_iff _ hdr).mp (Option.some.inj hreport).symm
  · intro h o ho
    have hsome := hcommand.symm.trans ho
    rw [(normalizeSense_eq_empty_iff _ hdr).mpr (h o hsome)]
    exact executeReq_sshdr hdr hsome

/-! ## The mode data -/

variable {use10 : Bool} {dbd modepage : Byte} {len : BitVec 32}

theorem executeReq_good :
    scsiStatusIsGood (scsiExecuteReq w s cmd dataDirection buffer bufflen (some hdr)).1.ret =
      true := by
  have herror : scsiStatusIsGood driverErrorWord = true := by decide
  have hret : ∀ o : IntOutcome,
      scsiStatusIsGood (if o.DidOk then 0 else driverErrorWord) = true := by
    intro o
    split
    · decide
    · exact herror
  rw [scsiExecuteReq]
  rcases w.alloc s with ⟨_ | _, s₁⟩
  · exact herror
  · dsimp only
    rw [scsiExecute]
    rcases w.alloc s₁ with ⟨_ | _, s₂⟩
    · exact herror
    · exact hret _

theorem modeHeader_ne_empty (use10 : Bool) (modepage : Byte) (b : Nat → Byte) :
    modeHeader use10 modepage b ≠ {} := by
  intro h
  have hlength := congrArg (fun d => d.length.toNat) h
  unfold modeHeader at hlength
  have h0 := (b 0).isLt
  have h1 := (b 1).isLt
  split at hlength
  · exact absurd hlength (by decide)
  · split at hlength <;> simp at hlength <;> omega

def firstCommand (w : ScsiOutside σ) (s : σ) (use10ForMs : Bool) (dbd modepage : Byte)
    (buffer : Nat → Byte) (len : BitVec 32) : Option IntOutcome :=
  let len := modeSenseLen use10ForMs len
  driverOutcome w s (modeSenseCmd dbd modepage use10ForMs len) dmaFromDevice
    (fun i => if i < len.toNat then 0 else buffer i) len

theorem modeSense_eq :
    ∃ b, (scsiModeSense w s use10 dbd modepage buffer len hdr).data = modeHeader use10 modepage b ∧
      (scsiModeSense w s use10 dbd modepage buffer len hdr).attempts =
        [firstCommand w s use10 dbd modepage buffer len] := by
  have hgood : scsiStatusIsGood (modeSenseAttempt w s use10 dbd modepage buffer
      (modeSenseLen use10 len) hdr).1.ret = true := executeReq_good
  have hcommand : (modeSenseAttempt w s use10 dbd modepage buffer
      (modeSenseLen use10 len) hdr).1.command = firstCommand w s use10 dbd modepage buffer len :=
    executeReq_command
  unfold scsiModeSense
  dsimp only
  rw [if_neg fun h => h.2.1 hgood, modeSenseFinish, if_pos hgood, hcommand]
  exact ⟨_, rfl, rfl⟩

theorem modeSenseRight_iff : ModeSenseRight w s use10 dbd modepage buffer len hdr ↔
    ∃ o ∈ firstCommand w s use10 dbd modepage buffer len, o.DidOk := by
  obtain ⟨b, hdata, hattempts⟩ : ∃ b, (scsiModeSense w s use10 dbd modepage buffer len hdr).data =
    modeHeader use10 modepage b ∧ _ := modeSense_eq
  unfold ModeSenseRight
  dsimp only
  rw [hdata, hattempts]
  constructor
  · rintro ⟨hread, -⟩
    obtain ⟨o, ho, hdid⟩ := hread (modeHeader_ne_empty use10 modepage b)
    exact ⟨o, Option.some.inj ho, hdid⟩
  · rintro ⟨o, ho, hdid⟩
    refine ⟨fun _ => ⟨o, congrArg some ho, hdid⟩, ?_⟩
    refine iff_of_false (Nat.ne_of_lt (Nat.lt_succ_self 1)) ?_
    rintro ⟨-, o', ho', hfailed, -⟩
    have hsame : some o' = some o := (Option.some.inj ho').symm.trans ho
    rw [Option.some.inj hsame] at hfailed
    exact hfailed hdid

/-- **Internal commands report their own sense** exactly if it has no response code; and mode
    sense is right exactly if the command that it sends completes with `DID_OK`. -/
theorem sense_right_iff (w : ScsiOutside σ) (s : σ) (cmd : Nat → Byte) (dataDirection : BitVec 32)
    (buffer : Nat → Byte) (bufflen : BitVec 32) (hdr : SenseHdr) (use10ForMs : Bool)
    (dbd modepage : Byte) (len : BitVec 32) :
    (SenseReported w s cmd dataDirection buffer bufflen hdr ↔
        ∀ o ∈ driverOutcome w s cmd dataDirection buffer bufflen, o.senseBuffer 0 &&& 0x7f = 0) ∧
      (ModeSenseRight w s use10ForMs dbd modepage buffer len hdr ↔
        ∃ o ∈ firstCommand w s use10ForMs dbd modepage buffer len, o.DidOk) :=
  ⟨senseReported_iff, modeSenseRight_iff⟩

def invalidOpcodeOutcome : IntOutcome where
  accepted := true
  result := 0x08000002
  senseBuffer := fun i => if i = 0 then 0x70 else if i = 2 then 0x05 else if i = 7 then 10
    else if i = 12 then 0x20 else 0
  buffer := fun _ => 0

def refusingDevice : ScsiOutside Unit where
  alloc := fun _ => (true, ())
  queuecommand := fun _ _ => (invalidOpcodeOutcome, ())

/-- The header is empty, and the data is read without a second attempt. -/
theorem sense_wrong :
    ¬SenseReported refusingDevice () (fun _ => 0) dmaFromDevice (fun _ => 0) 0 {} ∧
      ¬ModeSenseRight refusingDevice () true 0 8 (fun _ => 0) 64 {} := by
  refine ⟨fun h => ?_, fun h => ?_⟩
  · exact absurd (h invalidOpcodeOutcome rfl) (by decide)
  · obtain ⟨o, ho, hdid⟩ := h.1 (by decide)
    have hsame : o = invalidOpcodeOutcome := (Option.some.inj (Option.some.inj ho)).symm
    rw [hsame] at hdid
    exact absurd hdid (by decide)

end VmkDrivers.Vmklinux
