/-
  VmkDrivers.Lib.Bitset

  Sets of bits that are kept in an array of words.

  A bit is named by its word and its place there.  What `setBit` and `clearBit`
  do to any bit is said once; two arrays with the same bits are the same
  (`words_ext`).  `ffs` finds the least bit of a word.
-/

import Mathlib

namespace VmkDrivers.Lib

variable {w : Nat} {ws : Nat → BitVec w} {x : BitVec w} {i j b c : Nat}

/-! ## One word -/

theorem getLsbD_one_shiftLeft (hb : b < w) : (1#w <<< b).getLsbD c = decide (c = b) := by
  rw [← BitVec.twoPow_eq, BitVec.getLsbD_twoPow]
  simp [hb, eq_comm]

theorem and_bit_ne_zero (hb : b < w) : x &&& 1#w <<< b ≠ 0#w ↔ x.getLsbD b = true := by
  constructor
  · intro h
    by_contra hx
    refine h (BitVec.eq_of_getLsbD_eq fun c _ => ?_)
    rw [BitVec.getLsbD_and, getLsbD_one_shiftLeft hb]
    by_cases hc : c = b
    · simp [hc, Bool.eq_false_iff.mpr hx]
    · simp [hc]
  · intro hx h
    have hbit := congrArg (·.getLsbD b) h
    simp [getLsbD_one_shiftLeft hb, hx] at hbit

/-- `__builtin_ffs`: one more than the place of the least bit that is set, 0 if there is none. -/
def ffs (x : BitVec w) : Nat := ((List.range w).find? x.getLsbD).elim 0 (· + 1)

theorem ffs_eq_zero : ffs x = 0 ↔ x = 0#w := by
  unfold ffs
  cases hfind : (List.range w).find? x.getLsbD with
  | none =>
    refine iff_of_true rfl (BitVec.eq_of_getLsbD_eq fun c hc => ?_)
    rw [BitVec.getLsbD_zero]
    simpa using List.find?_range_eq_none.mp hfind c hc
  | some b =>
    refine iff_of_false (Nat.succ_ne_zero b) fun hx => ?_
    have hbit := (List.find?_range_eq_some.mp hfind).1
    rw [hx, BitVec.getLsbD_zero] at hbit
    cases hbit

theorem ffs_spec (hx : x ≠ 0#w) : ∃ b < w, ffs x = b + 1 ∧ x.getLsbD b = true := by
  unfold ffs
  cases hfind : (List.range w).find? x.getLsbD with
  | none =>
    have hzero : ffs x = 0 := by rw [ffs, hfind]; rfl
    exact absurd (ffs_eq_zero.mp hzero) hx
  | some b =>
    obtain ⟨hbit, hmem, -⟩ := List.find?_range_eq_some.mp hfind
    exact ⟨b, List.mem_range.mp hmem, rfl, hbit⟩

/-! ## An array of words -/

/-- `ws[i] |= 1 << b` -/
def setBit (ws : Nat → BitVec w) (i b : Nat) : Nat → BitVec w :=
  Function.update ws i (ws i ||| 1#w <<< b)

/-- `ws[i] &= ~(1 << b)` -/
def clearBit (ws : Nat → BitVec w) (i b : Nat) : Nat → BitVec w :=
  Function.update ws i (ws i &&& ~~~(1#w <<< b))

theorem getLsbD_setBit (hb : b < w) :
    (setBit ws i b j).getLsbD c = ((ws j).getLsbD c || decide (j = i ∧ c = b)) := by
  unfold setBit
  by_cases hj : j = i
  · subst hj
    rw [Function.update_self, BitVec.getLsbD_or, getLsbD_one_shiftLeft hb]
    simp
  · rw [Function.update_of_ne hj]
    simp [hj]

theorem getLsbD_clearBit (hb : b < w) (hc : c < w) :
    (clearBit ws i b j).getLsbD c = ((ws j).getLsbD c && !decide (j = i ∧ c = b)) := by
  unfold clearBit
  by_cases hj : j = i
  · subst hj
    rw [Function.update_self, BitVec.getLsbD_and, BitVec.getLsbD_not, getLsbD_one_shiftLeft hb]
    simp [hc]
  · rw [Function.update_of_ne hj]
    simp [hj]

theorem words_ext {ws' : Nat → BitVec w}
    (h : ∀ i, ∀ b < w, (ws i).getLsbD b = (ws' i).getLsbD b) : ws = ws' :=
  funext fun i => BitVec.eq_of_getLsbD_eq fun b hb => h i b hb

end VmkDrivers.Lib
