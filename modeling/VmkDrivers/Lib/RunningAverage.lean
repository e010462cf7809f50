/-
  VmkDrivers.Lib.RunningAverage

  The average of a sequence of samples, kept as a number that is divided anew
  with every sample.

  Each division drops a fraction, and the next one takes the rest for the whole,
  so the number is not the average of the samples; but it stays between the
  least and the greatest of them (`averageStep_bounds`).
-/

import Mathlib

namespace VmkDrivers.Lib

/-- The average `avg` of `n` samples with one more of `x`. -/
def averageStep (n avg x : ℕ) : ℕ := (n * avg + x) / (n + 1)

theorem averageStep_bounds {n avg x lo hi : ℕ} (hlo : lo ≤ avg) (hhi : avg ≤ hi) (hx : lo ≤ x)
    (hx' : x ≤ hi) : lo ≤ averageStep n avg x ∧ averageStep n avg x ≤ hi := by
  have hlow : n * lo ≤ n * avg := Nat.mul_le_mul_left n hlo
  have hhigh : n * avg ≤ n * hi := Nat.mul_le_mul_left n hhi
  unfold averageStep
  constructor
  · rw [Nat.le_div_iff_mul_le (Nat.succ_pos n), Nat.mul_succ, Nat.mul_comm lo n]
    omega
  · apply Nat.div_le_of_le_mul
    rw [Nat.succ_mul]
    omega

/-! ## Samples in a list -/

section Extremes

variable {α : Type*} [LinearOrder α] {l : List α} {lo hi : α}

theorem isLeast_singleton_list (x : α) : IsLeast {y | y ∈ [x]} x := by
  simp

theorem isGreatest_singleton_list (x : α) : IsGreatest {y | y ∈ [x]} x := by
  simp

theorem isLeast_concat (h : IsLeast {y | y ∈ l} lo) (x : α) :
    IsLeast {y | y ∈ l ++ [x]} (min lo x) := by
  have hset : {y | y ∈ l ++ [x]} = {y | y ∈ l} ∪ {x} := by
    ext y
    simp [or_comm]
  rw [hset]
  exact h.union isLeast_singleton

theorem isGreatest_concat (h : IsGreatest {y | y ∈ l} hi) (x : α) :
    IsGreatest {y | y ∈ l ++ [x]} (max hi x) := by
  have hset : {y | y ∈ l ++ [x]} = {y | y ∈ l} ∪ {x} := by
    ext y
    simp [or_comm]
  rw [hset]
  exact h.union isGreatest_singleton

end Extremes

end VmkDrivers.Lib
