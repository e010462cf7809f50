/-
  VmkDrivers.Lib.Places

  Objects that are kept at places.

  What the places `s` keep is the sum of what each one keeps.  If only one place
  keeps something else than before, the sum changes by that (`sum_change`), and
  as long as no object is kept twice, no two places keep the same one
  (`not_mem_of_nodup`).
-/

import Mathlib

namespace VmkDrivers.Lib

variable {ι α : Type*} [DecidableEq ι] {s : Finset ι} {f g : ι → Multiset α} {i j : ι}

theorem sum_change (hi : i ∈ s) (h : ∀ k ∈ s, k ≠ i → g k = f k) :
    ∑ k ∈ s, g k + f i = ∑ k ∈ s, f k + g i := by
  have hrest : ∑ k ∈ s.erase i, g k = ∑ k ∈ s.erase i, f k :=
    Finset.sum_congr rfl fun k hk => h k (Finset.mem_of_mem_erase hk) (Finset.ne_of_mem_erase hk)
  rw [← Finset.add_sum_erase s g hi, ← Finset.add_sum_erase s f hi, hrest]
  ac_rfl

/-- What two places keep is among what all of them keep. -/
theorem pair_le_sum (hi : i ∈ s) (hj : j ∈ s) (hne : j ≠ i) : f i + f j ≤ ∑ k ∈ s, f k := by
  rw [← Finset.add_sum_erase s f hi,
    ← Finset.add_sum_erase (s.erase i) f (Finset.mem_erase.mpr ⟨hne, hj⟩)]
  exact add_le_add_right (Multiset.le_add_right _ _) _

theorem not_mem_of_nodup {x : α} (h : (∑ k ∈ s, f k).Nodup) (hi : i ∈ s) (hj : j ∈ s)
    (hne : j ≠ i) (hx : x ∈ f i) : x ∉ f j := by
  have hpair := Multiset.nodup_of_le (pair_le_sum hi hj hne) h
  exact Multiset.disjoint_left.mp (Multiset.nodup_add.mp hpair).2.2 hx

end VmkDrivers.Lib
