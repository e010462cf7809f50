/-
  VmkDrivers.Lib.LocalLoop

  Loops whose turns do not interfere.

  The turn for the index `i` changes the place `i` of the state only, by what
  is there.  So the loop over some indices, none twice, is the change at each
  of them (`foldl_local`).
-/

import Mathlib

namespace VmkDrivers.Lib

variable {σ ι α : Type*} [DecidableEq ι]

/-- Turn `i` of a loop is the change `g i` of the place `i`. -/
def LocalTurn (place : σ → ι → α) (turn : σ → ι → σ) (g : ι → α → α) : Prop :=
  ∀ s i j, place (turn s i) j = if j = i then g i (place s i) else place s j

/-- **The loop** is the change of each place it comes to. -/
theorem foldl_local {place : σ → ι → α} {turn : σ → ι → σ} {g : ι → α → α}
    (h : LocalTurn place turn g) {is : List ι} (hnodup : is.Nodup) (s : σ) (j : ι) :
    place (is.foldl turn s) j = if j ∈ is then g j (place s j) else place s j := by
  induction is generalizing s with
  | nil => rw [List.foldl_nil, if_neg List.not_mem_nil]
  | cons i is ih =>
    rw [List.nodup_cons] at hnodup
    rw [List.foldl_cons, ih hnodup.2, h]
    by_cases hj : j = i
    · subst hj
      rw [if_neg hnodup.1, if_pos rfl, if_pos List.mem_cons_self]
    · rw [if_neg hj]
      simp only [List.mem_cons, hj, false_or]

end VmkDrivers.Lib
