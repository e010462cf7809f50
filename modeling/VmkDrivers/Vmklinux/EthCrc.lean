/-
  VmkDrivers.Vmklinux.EthCrc

  The Ethernet CRC that vmklinux gives to the drivers (`crc32_le` in `linux_net.c`).

  `LinNetComputeEthCRCTableLE` fills a table with the remainders of all bytes.
  `LinNetComputeEthCRCLE` takes four bytes at a time: it exclusive-ors a word into
  the remainder and makes four steps through the table.  The zero to three bytes that
  are left are taken one by one.  The result is that of the definition bit by bit
  (`crc32Le_bitwise`).
-/

import VmkDrivers.Lib.Crc
import VmkDrivers.Lib.ExceptLoop

namespace VmkDrivers.Vmklinux

open VmkDrivers.Lib

/-! ## The table -/

def ethCrc32PolyLe : BitVec 32 := 0xedb88320

/-- `eth_crc32_poly_tbl_le` -/
abbrev EthCrcTable := Vector (BitVec 32) 256

/-- The bits of one entry: `for (j = 0; j < 8; j++)`. -/
def ethCrcTableBits : (j : Nat) → (crc : BitVec 32) → BitVec 32
  | 0, crc => crc
  | j + 1, crc =>
    ethCrcTableBits j ((crc >>> 1) ^^^ if crc &&& 1 ≠ 0 then ethCrc32PolyLe else 0)

def linNetComputeEthCRCTableLE (tbl : EthCrcTable) : EthCrcTable :=
  (List.range 256).foldl (fun tbl i => tbl.setIfInBounds i (ethCrcTableBits 8 (.ofNat 32 i))) tbl

variable (crc : BitVec 32)

theorem and_ff_lt : (crc &&& 0xff).toNat < 256 := by
  rw [BitVec.toNat_and]
  exact Nat.lt_of_le_of_lt Nat.and_le_right (by decide)

/-- `eth_crc32_poly_tbl_le[crc & 0xff]` -/
def EthCrcTable.at (tbl : EthCrcTable) (crc : BitVec 32) : BitVec 32 :=
  tbl.get ⟨(crc &&& 0xff).toNat, and_ff_lt crc⟩

/-! ## The loops -/

inductive EthCrcFault
  | outOfBounds
  /-- `i` is an `int`. -/
  | intOverflow
deriving DecidableEq, Repr

/-- `*(unsigned *)&frame[i]` -/
def loadUnsigned (frame : List (BitVec 8)) (i : Nat) : Except EthCrcFault (BitVec 32) :=
  if i + 4 ≤ frame.length then .ok (leWord 32 ((frame.drop i).take 4)) else .error .outOfBounds

/-- `for (j = 0; j < 4; j++)` -/
def ethCrcTableSteps (tbl : EthCrcTable) : (j : Nat) → (crc : BitVec 32) → BitVec 32
  | 0, crc => crc
  | j + 1, crc => ethCrcTableSteps tbl j (tbl.at crc ^^^ (crc >>> 8))

/-- `for (i = 0; i + 4 <= frameLen; i += 4)`, from `i` on. -/
def ethCrcWords (tbl : EthCrcTable) (frame : List (BitVec 8)) (frameLen : BitVec 32) (i : Nat)
    (crc : BitVec 32) : Except EthCrcFault (Nat × BitVec 32) :=
  if 2 ^ 31 ≤ i + 4 then .error .intOverflow
  else if i + 4 ≤ frameLen.toNat then do
    let word ← loadUnsigned frame i
    ethCrcWords tbl frame frameLen (i + 4) (ethCrcTableSteps tbl 4 (crc ^^^ word))
  else .ok (i, crc)
termination_by frameLen.toNat - i

/-- `while (i < frameLen)`, from `i` on. -/
def ethCrcTail (tbl : EthCrcTable) (frame : List (BitVec 8)) (frameLen : BitVec 32) (i : Nat)
    (crc : BitVec 32) : Except EthCrcFault (BitVec 32) :=
  if i < frameLen.toNat then
    if 2 ^ 31 ≤ i + 1 then .error .intOverflow
    else match frame[i]? with
      | none => .error .outOfBounds
      | some b =>
        ethCrcTail tbl frame frameLen (i + 1) (tbl.at (crc ^^^ b.setWidth 32) ^^^ (crc >>> 8))
  else .ok crc
termination_by frameLen.toNat - i

def linNetComputeEthCRCLE (tbl : EthCrcTable) (crc : BitVec 32) (frame : List (BitVec 8))
    (frameLen : BitVec 32) : Except EthCrcFault (BitVec 32) := do
  let (i, crc) ← ethCrcWords tbl frame frameLen 0 crc
  ethCrcTail tbl frame frameLen i crc

def crc32Le (tbl : EthCrcTable) (crc : BitVec 32) (p : List (BitVec 8)) (len : BitVec 64) :
    Except EthCrcFault (BitVec 32) :=
  linNetComputeEthCRCLE tbl crc p (len.setWidth 32)

/-! ## One step -/

theorem and_one_ne_zero_iff : crc &&& 1 ≠ 0 ↔ crc.getLsbD 0 = true := by
  have h := BitVec.and_one_eq_setWidth_ofBool_getLsbD (x := crc)
  cases hbit : crc.getLsbD 0 <;> rw [hbit] at h <;> simp [h]

theorem ethCrcTableBits_eq (j : Nat) (crc : BitVec 32) :
    ethCrcTableBits j crc = crcShifts ethCrc32PolyLe j crc := by
  induction j generalizing crc with
  | zero => rfl
  | succ j ih =>
    rw [ethCrcTableBits, crcShifts, ih, crcShift]
    simp only [and_one_ne_zero_iff]

theorem ethCrcTable_foldl (tbl : EthCrcTable) {n i : Nat} (hi : i < n) (h256 : i < 256) :
    ((List.range n).foldl
      (fun tbl i => tbl.setIfInBounds i (ethCrcTableBits 8 (.ofNat 32 i))) tbl)[i] =
      ethCrcTableBits 8 (.ofNat 32 i) := by
  induction n with
  | zero => exact absurd hi (Nat.not_lt_zero i)
  | succ n ih =>
    rw [List.range_succ, List.foldl_append, List.foldl_cons, List.foldl_nil,
      Vector.getElem_setIfInBounds h256]
    split
    · next heq => rw [heq]
    · next hne => exact ih (by omega)

theorem and_ff_eq : crc &&& 0xff = (crc.setWidth 8).setWidth 32 := by
  apply BitVec.eq_of_toNat_eq
  have hmod : crc.toNat &&& 255 = crc.toNat % 256 := Nat.and_two_pow_sub_one_eq_mod _ 8
  have hlt : crc.toNat % 256 < 4294967296 := by omega
  simp [hmod, Nat.mod_eq_of_lt hlt]

/-- **The table** holds the remainders of the bytes. -/
theorem at_linNetComputeEthCRCTableLE (tbl : EthCrcTable) (crc : BitVec 32) :
    (linNetComputeEthCRCTableLE tbl).at crc =
      crcShifts ethCrc32PolyLe 8 ((crc.setWidth 8).setWidth 32) := by
  have hentry := ethCrcTable_foldl tbl (and_ff_lt crc) (and_ff_lt crc)
  rw [BitVec.ofNat_toNat, BitVec.setWidth_eq, ethCrcTableBits_eq] at hentry
  rw [← and_ff_eq, ← hentry]
  rfl

section Filled

variable (tbl : EthCrcTable)

theorem tableStep_eq (crc : BitVec 32) :
    (linNetComputeEthCRCTableLE tbl).at crc ^^^ (crc >>> 8) = crcShifts ethCrc32PolyLe 8 crc := by
  rw [at_linNetComputeEthCRCTableLE, ← crcShifts_eight]

theorem ethCrcTableSteps_eq (j : Nat) (crc : BitVec 32) :
    ethCrcTableSteps (linNetComputeEthCRCTableLE tbl) j crc =
      crcShifts ethCrc32PolyLe (8 * j) crc := by
  induction j generalizing crc with
  | zero => rfl
  | succ j ih =>
    rw [ethCrcTableSteps, tableStep_eq, ih, Nat.mul_succ, Nat.add_comm, crcShifts_add]

theorem tailStep_eq (crc : BitVec 32) (b : BitVec 8) :
    (linNetComputeEthCRCTableLE tbl).at (crc ^^^ b.setWidth 32) ^^^ (crc >>> 8) =
      crcByte ethCrc32PolyLe crc b := by
  have hhigh : (crc ^^^ b.setWidth 32) >>> 8 = crc >>> 8 := by
    have hb : b.setWidth 32 >>> 8 = 0#32 := by
      apply BitVec.eq_of_toNat_eq
      have hlt := b.isLt
      simp
      omega
    rw [BitVec.ushiftRight_xor_distrib, hb, BitVec.xor_zero]
  rw [← hhigh, tableStep_eq, crcByte]

/-! ## The loops -/

variable {frame : List (BitVec 8)} {frameLen : BitVec 32} {i : Nat} (seed : BitVec 32)

theorem crcBytes_take_word (hi : i + 4 ≤ frame.length) :
    crcBytes ethCrc32PolyLe seed (frame.take (i + 4)) =
      ethCrcTableSteps (linNetComputeEthCRCTableLE tbl) 4
        (crcBytes ethCrc32PolyLe seed (frame.take i) ^^^ leWord 32 ((frame.drop i).take 4)) := by
  have hlen : ((frame.drop i).take 4).length = 4 := by
    rw [List.length_take, List.length_drop]
    omega
  have hword := crcBytes_eq_crcShifts (w := 32) ethCrc32PolyLe
    ((frame.drop i).take 4) (by omega) (crcBytes ethCrc32PolyLe seed (frame.take i))
  rw [hlen] at hword
  rw [List.take_add, crcBytes_append, hword, ethCrcTableSteps_eq]

theorem ethCrcWords_spec (hlen : frameLen.toNat ≤ frame.length)
    (hint : frameLen.toNat < 2 ^ 31 - 4) (hi : i ≤ frameLen.toNat) :
    ∃ j ≤ frameLen.toNat, ethCrcWords (linNetComputeEthCRCTableLE tbl) frame frameLen i
        (crcBytes ethCrc32PolyLe seed (frame.take i)) =
      .ok (j, crcBytes ethCrc32PolyLe seed (frame.take j)) := by
  -- on the bytes that are left
  generalize hleft : frameLen.toNat - i = left
  induction left using Nat.strongRecOn generalizing i with
  | _ left ih =>
    rw [ethCrcWords, if_neg (by omega)]
    by_cases hmore : i + 4 ≤ frameLen.toNat
    · have hword : i + 4 ≤ frame.length := Nat.le_trans hmore hlen
      rw [if_pos hmore, loadUnsigned, if_pos hword, ok_bind, ← crcBytes_take_word tbl seed hword]
      exact ih (frameLen.toNat - (i + 4)) (by omega) hmore rfl
    · exact ⟨i, hi, if_neg hmore⟩

theorem ethCrcTail_spec (hlen : frameLen.toNat ≤ frame.length)
    (hint : frameLen.toNat < 2 ^ 31 - 4) (hi : i ≤ frameLen.toNat) :
    ethCrcTail (linNetComputeEthCRCTableLE tbl) frame frameLen i
        (crcBytes ethCrc32PolyLe seed (frame.take i)) =
      .ok (crcBytes ethCrc32PolyLe seed (frame.take frameLen.toNat)) := by
  generalize hleft : frameLen.toNat - i = left
  induction left generalizing i with
  | zero =>
    obtain rfl : i = frameLen.toNat := by omega
    rw [ethCrcTail, if_neg (Nat.lt_irrefl _)]
  | succ left ih =>
    have hin : i < frame.length := by omega
    have hnext : crcByte ethCrc32PolyLe (crcBytes ethCrc32PolyLe seed (frame.take i)) frame[i] =
        crcBytes ethCrc32PolyLe seed (frame.take (i + 1)) := by
      rw [List.take_succ_eq_append_getElem hin, crcBytes_append]
      rfl
    rw [ethCrcTail, if_pos (by omega), if_neg (by omega), List.getElem?_eq_getElem hin]
    dsimp only
    rw [tailStep_eq, hnext]
    exact ih (by omega) (by omega)

theorem linNetComputeEthCRCLE_eq (hlen : frameLen.toNat ≤ frame.length)
    (hint : frameLen.toNat < 2 ^ 31 - 4) :
    linNetComputeEthCRCLE (linNetComputeEthCRCTableLE tbl) seed frame frameLen =
      .ok (crcBytes ethCrc32PolyLe seed (frame.take frameLen.toNat)) := by
  obtain ⟨j, hj, hwords⟩ := ethCrcWords_spec tbl seed hlen hint (Nat.zero_le _)
  rw [List.take_zero] at hwords
  have hstart : crcBytes ethCrc32PolyLe seed [] = seed := rfl
  rw [hstart] at hwords
  rw [linNetComputeEthCRCLE, hwords, ok_bind]
  exact ethCrcTail_spec tbl seed hlen hint hj

theorem crc32Le_eq (p rest : List (BitVec 8)) (h : p.length < 2 ^ 31 - 4) :
    crc32Le (linNetComputeEthCRCTableLE tbl) seed (p ++ rest) (.ofNat 64 p.length) =
      .ok (crcBytes ethCrc32PolyLe seed p) := by
  have hlen : ((BitVec.ofNat 64 p.length).setWidth 32).toNat = p.length := by
    rw [BitVec.toNat_setWidth, BitVec.toNat_ofNat]
    omega
  rw [crc32Le, linNetComputeEthCRCLE_eq tbl seed (by rw [hlen]; simp) (by rw [hlen]; exact h),
    hlen, List.take_left]

end Filled

/-- **`crc32_le`** is the CRC bit by bit: each byte is exclusive-ored into the low eight bits of
    the remainder, and eight bits are shifted out.  So a string may be taken in parts. -/
theorem crc32Le_bitwise (tbl : EthCrcTable) (seed : BitVec 32) (p rest : List (BitVec 8))
    (h : p.length < 2 ^ 31 - 4) :
    crc32Le (linNetComputeEthCRCTableLE tbl) seed (p ++ rest) (.ofNat 64 p.length) =
        .ok (crcBytes ethCrc32PolyLe seed p) ∧
      ∀ a b, p = a ++ b → ∃ crc,
        crc32Le (linNetComputeEthCRCTableLE tbl) seed (p ++ rest) (.ofNat 64 a.length) =
            .ok crc ∧
          crc32Le (linNetComputeEthCRCTableLE tbl) crc (b ++ rest) (.ofNat 64 b.length) =
            crc32Le (linNetComputeEthCRCTableLE tbl) seed (p ++ rest) (.ofNat 64 p.length) := by
  refine ⟨crc32Le_eq tbl seed p rest h, ?_⟩
  rintro a b rfl
  rw [List.length_append] at h
  refine ⟨crcBytes ethCrc32PolyLe seed a, ?_, ?_⟩
  · rw [List.append_assoc]
    exact crc32Le_eq tbl seed a (b ++ rest) (by omega)
  · rw [crc32Le_eq tbl _ b rest (by omega),
      crc32Le_eq tbl seed (a ++ b) rest (by rw [List.length_append]; exact h), crcBytes_append]

/-- The check value of the CRC: that of the digits 1 to 9, here in two parts. -/
theorem crc32Le_bitwise_digits :
    crc32Le (linNetComputeEthCRCTableLE (.replicate 256 0)) 0xffffffff
        [0x31, 0x32, 0x33, 0x34, 0x35, 0x36, 0x37, 0x38, 0x39] 9 = .ok (~~~0xcbf43926) ∧
      ∃ crc, crc32Le (linNetComputeEthCRCTableLE (.replicate 256 0)) 0xffffffff
          [0x31, 0x32, 0x33, 0x34, 0x35, 0x36, 0x37, 0x38, 0x39] 5 = .ok crc ∧
        crc32Le (linNetComputeEthCRCTableLE (.replicate 256 0)) crc [0x36, 0x37, 0x38, 0x39] 4 =
          .ok (~~~0xcbf43926) := by
  obtain ⟨hall, hparts⟩ := crc32Le_bitwise (.replicate 256 0) 0xffffffff
    [0x31, 0x32, 0x33, 0x34, 0x35, 0x36, 0x37, 0x38, 0x39] [] (by decide)
  have hvalue : crcBytes ethCrc32PolyLe 0xffffffff
      [0x31, 0x32, 0x33, 0x34, 0x35, 0x36, 0x37, 0x38, 0x39] = ~~~0xcbf43926 := by decide +kernel
  rw [hvalue] at hall
  obtain ⟨crc, hfirst, hsecond⟩ := hparts [0x31, 0x32, 0x33, 0x34, 0x35] [0x36, 0x37, 0x38, 0x39] rfl
  exact ⟨hall, crc, hfirst, hsecond.trans hall⟩

end VmkDrivers.Vmklinux
