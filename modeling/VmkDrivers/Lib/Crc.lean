/-
  VmkDrivers.Lib.Crc

  Reflected cyclic redundancy checks of any width and any polynomial.

  A remainder is shifted out at its low end (`crcShift`), which is linear in
  exclusive or (`crcShift_xor`).  So what stands above the bits that are shifted out
  comes down unchanged (`crcShifts_xor_shiftLeft`).  Two ways to be faster follow:
  a byte is one step through a table of the remainders of all bytes
  (`crcShifts_eight`), and the bytes of a word may be taken in all at once
  (`crcBytes_eq_crcShifts`).
-/

import Mathlib

namespace VmkDrivers.Lib

variable {w : Nat}

/-! ## Bits -/

def crcShift (poly crc : BitVec w) : BitVec w :=
  (crc >>> 1) ^^^ if crc.getLsbD 0 then poly else 0

/-- `n` bits are shifted out. -/
def crcShifts (poly : BitVec w) : Nat → BitVec w → BitVec w
  | 0, crc => crc
  | n + 1, crc => crcShifts poly n (crcShift poly crc)

variable (poly : BitVec w) {bs : List (BitVec 8)} (crc : BitVec w)

theorem crcShift_xor (a b : BitVec w) :
    crcShift poly (a ^^^ b) = crcShift poly a ^^^ crcShift poly b := by
  have hpoly : ∀ x y : Bool, (if x ^^ y then poly else 0) =
      (if x then poly else 0) ^^^ (if y then poly else 0) := by
    intro x y
    cases x <;> cases y <;> simp
  unfold crcShift
  rw [BitVec.ushiftRight_xor_distrib, BitVec.getLsbD_xor, hpoly]
  ac_rfl

theorem crcShifts_xor (n : Nat) (a b : BitVec w) :
    crcShifts poly n (a ^^^ b) = crcShifts poly n a ^^^ crcShifts poly n b := by
  induction n generalizing a b with
  | zero => rfl
  | succ n ih =>
    rw [crcShifts, crcShift_xor, ih]
    rfl

theorem crcShifts_add (m n : Nat) (crc : BitVec w) :
    crcShifts poly (m + n) crc = crcShifts poly n (crcShifts poly m crc) := by
  induction m generalizing crc with
  | zero => rw [Nat.zero_add, crcShifts]
  | succ m ih =>
    rw [Nat.succ_add, crcShifts, ih]
    rfl

theorem crcShifts_of_low_clear {n : Nat} {crc : BitVec w}
    (h : ∀ i < n, crc.getLsbD i = false) : crcShifts poly n crc = crc >>> n := by
  induction n generalizing crc with
  | zero => exact (BitVec.ushiftRight_zero crc).symm
  | succ n ih =>
    have hshift : crcShift poly crc = crc >>> 1 := by
      rw [crcShift, h 0 (Nat.succ_pos n)]
      simp
    have hclear : ∀ i < n, (crc >>> 1).getLsbD i = false := by
      intro i hi
      rw [BitVec.getLsbD_ushiftRight]
      exact h (1 + i) (by omega)
    rw [crcShifts, hshift, ih hclear, ← BitVec.shiftRight_add, Nat.add_comm]

/-- **The upper bits come down** unchanged. -/
theorem crcShifts_xor_shiftLeft {n : Nat} {high : BitVec w} (hhigh : (high <<< n) >>> n = high) :
    crcShifts poly n (crc ^^^ high <<< n) = crcShifts poly n crc ^^^ high := by
  have hclear : ∀ i < n, (high <<< n).getLsbD i = false := by
    intro i hi
    simp [BitVec.getLsbD_shiftLeft, hi]
  rw [crcShifts_xor, crcShifts_of_low_clear poly hclear, hhigh]

/-! ## Bytes -/

def crcByte (crc : BitVec w) (b : BitVec 8) : BitVec w :=
  crcShifts poly 8 (crc ^^^ b.setWidth w)

def crcBytes (crc : BitVec w) (bs : List (BitVec 8)) : BitVec w := bs.foldl (crcByte poly) crc

theorem crcBytes_append (as bs : List (BitVec 8)) :
    crcBytes poly crc (as ++ bs) = crcBytes poly (crcBytes poly crc as) bs := List.foldl_append

theorem eq_low_xor_high : crc = (crc.setWidth 8).setWidth w ^^^ (crc >>> 8) <<< 8 := by
  ext i hi
  by_cases hlow : i < 8
  · simp [hlow, BitVec.getLsbD_eq_getElem hi]
  · have hi' : 8 + (i - 8) = i := by omega
    simp [hlow, hi', BitVec.getLsbD_eq_getElem hi]

theorem ushiftRight_eight_high : ((crc >>> 8) <<< 8) >>> 8 = crc >>> 8 := by
  ext i hi
  by_cases hin : 8 + i < w
  · simp [hin]
  · simp [hin, BitVec.getLsbD_of_ge crc (8 + i) (by omega)]

/-- **The table**: eight bits at a time need the remainders of the bytes only. -/
theorem crcShifts_eight :
    crcShifts poly 8 crc = crcShifts poly 8 ((crc.setWidth 8).setWidth w) ^^^ (crc >>> 8) := by
  have h := crcShifts_xor_shiftLeft poly ((crc.setWidth 8).setWidth w) (ushiftRight_eight_high crc)
  rwa [← eq_low_xor_high] at h

/-! ## Words -/

def leWord (w : Nat) : List (BitVec 8) → BitVec w
  | [] => 0
  | b :: bs => b.setWidth w ^^^ (leWord w bs) <<< 8

theorem getLsbD_leWord {i : Nat} (h : 8 * bs.length ≤ i) : (leWord w bs).getLsbD i = false := by
  induction bs generalizing i with
  | nil => simp [leWord]
  | cons b bs ih =>
    rw [List.length_cons] at h
    have hb : b.getLsbD i = false := BitVec.getLsbD_of_ge b i (by omega)
    simp [leWord, hb, ih (i := i - 8) (by omega)]

theorem leWord_shiftLeft (h : 8 * (bs.length + 1) ≤ w) :
    ((leWord w bs) <<< 8) >>> 8 = leWord w bs := by
  ext i hi
  by_cases hin : 8 + i < w
  · simp [hin]
  · have hclear : (leWord w bs).getLsbD i = false := getLsbD_leWord (by omega)
    rw [BitVec.getLsbD_eq_getElem hi] at hclear
    simp [hin, hclear]

/-- **A word at a time**: bytes that fit into the remainder may be taken in together. -/
theorem crcBytes_eq_crcShifts (bs : List (BitVec 8)) (h : 8 * bs.length ≤ w) (crc : BitVec w) :
    crcBytes poly crc bs = crcShifts poly (8 * bs.length) (crc ^^^ leWord w bs) := by
  induction bs generalizing crc with
  | nil => simp [crcBytes, crcShifts, leWord]
  | cons b bs ih =>
    rw [List.length_cons] at h
    have hcount : 8 * (b :: bs).length = 8 + 8 * bs.length := by
      rw [List.length_cons]
      omega
    calc crcBytes poly crc (b :: bs)
        = crcBytes poly (crcByte poly crc b) bs := rfl
      _ = crcShifts poly (8 * bs.length) (crcByte poly crc b ^^^ leWord w bs) := ih (by omega) _
      _ = crcShifts poly (8 * bs.length)
            (crcShifts poly 8 (crc ^^^ b.setWidth w ^^^ (leWord w bs) <<< 8)) := by
          rw [crcShifts_xor_shiftLeft poly _ (leWord_shiftLeft h)]
          rfl
      _ = crcShifts poly (8 * (b :: bs).length) (crc ^^^ leWord w (b :: bs)) := by
          rw [hcount, crcShifts_add, leWord, BitVec.xor_assoc]

end VmkDrivers.Lib
