/-
  VmkDrivers.Lib.BlockStream

  A stream of elements taken in blocks of a fixed size.

  `absorb step s xs` runs `step` over the whole blocks of `xs` and returns
  the state with the elements left over.  A loop that is handed the stream in
  pieces and carries a partly filled block from one piece to the next is
  right if it agrees with `absorb` on the pieces joined, and `absorb_append`
  is what one piece does.
-/

import Mathlib

namespace VmkDrivers.Lib

variable {α σ : Type*} {B : Nat}

/-- Run `step` over the first `n` blocks. -/
def absorbBlocks (B : Nat) (step : σ → List α → σ) : Nat → σ → List α → σ
  | 0, s, _ => s
  | n + 1, s, xs => absorbBlocks B step n (step s (xs.take B)) (xs.drop B)

/-- Run `step` over the whole blocks; what is left is shorter than a block. -/
def absorb (B : Nat) (step : σ → List α → σ) (s : σ) (xs : List α) : σ × List α :=
  (absorbBlocks B step (xs.length / B) s xs, xs.drop (B * (xs.length / B)))

variable {step : σ → List α → σ} {s : σ} {xs ys : List α}

theorem absorb_short (h : xs.length < B) : absorb B step s xs = (s, xs) := by
  simp [absorb, Nat.div_eq_of_lt h, absorbBlocks]

theorem absorb_full (hB : 0 < B) (h : B ≤ xs.length) :
    absorb B step s xs = absorb B step (step s (xs.take B)) (xs.drop B) := by
  have hdiv : xs.length / B = (xs.length - B) / B + 1 := Nat.div_eq_sub_div hB h
  simp only [absorb, hdiv, absorbBlocks, List.length_drop, List.drop_drop, Nat.mul_add, Nat.mul_one,
    Nat.add_comm]

theorem absorb_snd_length : (absorb B step s xs).2.length = xs.length % B := by
  simp only [absorb, List.length_drop]
  have := Nat.div_add_mod xs.length B
  omega

/-- **The rule for one more piece**: continue with the elements left over in front of it. -/
theorem absorb_append (hB : 0 < B) :
    absorb B step s (xs ++ ys) =
      absorb B step (absorb B step s xs).1 ((absorb B step s xs).2 ++ ys) := by
  induction hn : xs.length using Nat.strongRecOn generalizing s xs with
  | _ n ih =>
    by_cases h : B ≤ xs.length
    · have hlong : B ≤ (xs ++ ys).length := by
        simp only [List.length_append]
        omega
      have hshorter : (xs.drop B).length < n := by
        simp only [List.length_drop]
        omega
      rw [absorb_full hB hlong, absorb_full hB h, List.take_append_of_le_length h,
        List.drop_append_of_le_length h]
      exact ih _ hshorter rfl
    · rw [absorb_short (Nat.lt_of_not_ge h)]

theorem absorb_fixed (hB : 0 < B) {P : α → Prop}
    (hstep : ∀ block : List α, (∀ x ∈ block, P x) → step s block = s) (hxs : ∀ x ∈ xs, P x) :
    (absorb B step s xs).1 = s := by
  induction hn : xs.length using Nat.strongRecOn generalizing xs with
  | _ n ih =>
    by_cases h : B ≤ xs.length
    · have hshorter : (xs.drop B).length < n := by
        simp only [List.length_drop]
        omega
      rw [absorb_full hB h, hstep _ fun x hx => hxs x (List.mem_of_mem_take hx)]
      exact ih _ hshorter (fun x hx => hxs x (List.mem_of_mem_drop hx)) rfl
    · rw [absorb_short (Nat.lt_of_not_ge h)]

end VmkDrivers.Lib
