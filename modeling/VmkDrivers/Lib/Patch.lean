/-
  VmkDrivers.Lib.Patch

  Writes to a part of a memory.

  `patch w m` is the memory `m` after `w` has been written to the places that `w` has a
  value for.  Two memories that are patched in the same way are equal exactly if they
  were so at the places that were left alone (`patch_eq_iff`).
-/

import Mathlib

namespace VmkDrivers.Lib

variable {ι α : Type*}

def patch (w : ι → Option α) (m : ι → α) : ι → α := fun i => (w i).getD (m i)

variable {w : ι → Option α} {m m' : ι → α} {i : ι}

theorem patch_of_none (h : w i = none) : patch w m i = m i := by
  rw [patch, h, Option.getD_none]

theorem patch_of_some {a : α} (h : w i = some a) : patch w m i = a := by
  rw [patch, h, Option.getD_some]

theorem patch_apply_eq_iff : patch w m i = patch w m' i ↔ (w i = none → m i = m' i) := by
  cases hw : w i with
  | none =>
    rw [patch_of_none hw, patch_of_none hw]
    exact ⟨fun h _ => h, fun h => h rfl⟩
  | some a =>
    rw [patch_of_some hw, patch_of_some hw]
    exact iff_of_true rfl fun h => nomatch h

theorem patch_eq_iff : patch w m = patch w m' ↔ ∀ i, w i = none → m i = m' i := by
  constructor
  · intro h i
    exact patch_apply_eq_iff.mp (congrFun h i)
  · intro h
    funext i
    exact patch_apply_eq_iff.mpr (h i)

def prefixWrite {k : Nat} (n : Nat) (a : Fin k → α) : Fin k → Option α :=
  fun i => if i.val < n then some (a i) else none

theorem prefixWrite_eq_none {k n : Nat} {a : Fin k → α} {i : Fin k} :
    prefixWrite n a i = none ↔ n ≤ i.val := by
  unfold prefixWrite
  split
  · next h => exact iff_of_false (Option.some_ne_none _) (Nat.not_le_of_lt h)
  · next h => exact iff_of_true rfl (Nat.le_of_not_lt h)

end VmkDrivers.Lib
