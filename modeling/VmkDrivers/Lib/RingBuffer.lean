/-
  VmkDrivers.Lib.RingBuffer

  The slots of a ring as the remainders of positions that only grow.

  An index that goes to the next slot, or back to the one before, is the
  remainder of a position that goes one up or down (`nextSlot_mod`,
  `prevSlot_mod`), and positions less than a lap apart have slots of their own
  (`slot_injective`).  So a ring between two indices is a stretch of positions,
  and wrapping around is left to these lemmas.  `gather` lists what the slots of
  a stretch hold.
-/

import Mathlib

namespace VmkDrivers.Lib

variable {α : Type*} {n p q : Nat}

/-! ## Slots -/

def nextSlot (n i : Nat) : Nat := if i + 1 = n then 0 else i + 1

def prevSlot (n i : Nat) : Nat := if i = 0 then n - 1 else i - 1

theorem nextSlot_mod (hn : 0 < n) (p : Nat) : nextSlot n (p % n) = (p + 1) % n := by
  have hlt := Nat.mod_lt p hn
  rw [nextSlot, ← Nat.mod_add_mod]
  split
  · next hend => rw [hend, Nat.mod_self]
  · exact (Nat.mod_eq_of_lt (by omega)).symm

theorem prevSlot_mod (hn : 0 < n) (p : Nat) : prevSlot n ((p + 1) % n) = p % n := by
  rw [← nextSlot_mod hn, nextSlot, prevSlot]
  have hlt := Nat.mod_lt p hn
  split
  · rw [if_pos rfl]
    omega
  · rw [if_neg (Nat.succ_ne_zero _), Nat.add_sub_cancel]

theorem slot_injective (h : p % n = q % n) (hp : p < q + n) (hq : q < p + n) : p = q := by
  rcases le_total p q with hle | hle
  · have hdvd : n ∣ q - p := (Nat.modEq_iff_dvd' hle).mp h
    have hzero := Nat.eq_zero_of_dvd_of_lt hdvd (by omega)
    omega
  · have hdvd : n ∣ p - q := (Nat.modEq_iff_dvd' hle).mp h.symm
    have hzero := Nat.eq_zero_of_dvd_of_lt hdvd (by omega)
    omega

theorem slot_distance (hle : p ≤ q) (hlt : q < p + n) : (q % n + n - p % n) % n = q - p := by
  have hn : 0 < n := by omega
  have hp := Nat.mod_lt p hn
  obtain ⟨d, rfl⟩ := Nat.exists_eq_add_of_le hle
  have hd : d < n := by omega
  rw [Nat.add_sub_cancel_left, Nat.add_mod, Nat.mod_eq_of_lt hd]
  by_cases hwrap : p % n + d < n
  · have hshift : p % n + d + n - p % n = d + n := by omega
    rw [Nat.mod_eq_of_lt hwrap, hshift, Nat.add_mod_right, Nat.mod_eq_of_lt hd]
  · have hback : (p % n + d) % n = p % n + d - n := by
      rw [Nat.mod_eq_sub_mod (by omega), Nat.mod_eq_of_lt (by omega)]
    have hshift : p % n + d - n + n - p % n = d := by omega
    rw [hback, hshift, Nat.mod_eq_of_lt hd]

theorem unused_slots (hle : p ≤ q) (hlt : q < p + n) :
    (if p % n > q % n then 0 else n) + p % n - q % n - 1 = n - 1 - (q - p) := by
  have hn : 0 < n := by omega
  have hp := Nat.mod_lt p hn
  have hq := Nat.mod_lt q hn
  have hdist := slot_distance hle hlt
  split
  · rw [Nat.mod_eq_of_lt (by omega)] at hdist
    omega
  · have hshift : q % n + n - p % n = q % n - p % n + n := by omega
    rw [hshift, Nat.add_mod_right, Nat.mod_eq_of_lt (by omega)] at hdist
    omega

theorem exists_position {i : Nat} (hi : i < n) (c : Nat) : ∃ p, c ≤ p ∧ p < c + n ∧ p % n = i := by
  have hn : 0 < n := by omega
  have hc := Nat.mod_lt c hn
  have hsum : c + (i + n - c % n) = i + n * (c / n + 1) := by
    have hdiv := Nat.div_add_mod c n
    rw [Nat.mul_add, Nat.mul_one]
    omega
  refine ⟨c + (i + n - c % n) % n, Nat.le_add_right .., Nat.add_lt_add_left (Nat.mod_lt _ hn) c, ?_⟩
  rw [Nat.add_mod_mod, hsum, Nat.add_mul_mod_self_left, Nat.mod_eq_of_lt hi]

theorem update_slot_of_ne {β : Type*} (f : Nat → β) (b : β) (hne : p ≠ q) (hp : p < q + n)
    (hq : q < p + n) : Function.update f (q % n) b (p % n) = f (p % n) :=
  Function.update_of_ne (fun h => hne (slot_injective h hp hq)) b f

/-! ## What the slots of a stretch hold -/

variable {f g : Nat → Option α} {a b c : Nat}

/-- What the slots of the positions from `a` up to `b` hold, in this order. -/
def gather (n : Nat) (f : Nat → Option α) (a b : Nat) : List α :=
  (List.range' a (b - a)).filterMap fun p => f (p % n)

@[simp] theorem gather_self : gather n f a a = [] := by
  simp [gather]

theorem gather_append (hab : a ≤ b) (hbc : b ≤ c) :
    gather n f a c = gather n f a b ++ gather n f b c := by
  obtain ⟨k, rfl⟩ := Nat.exists_eq_add_of_le hab
  obtain ⟨l, rfl⟩ := Nat.exists_eq_add_of_le hbc
  rw [gather, gather, gather, ← List.filterMap_append]
  congr 1
  rw [show a + k + l - a = k + l by omega, show a + k - a = k by omega,
    show a + k + l - (a + k) = l by omega]
  exact List.range'_append_1.symm

theorem gather_single : gather n f a (a + 1) = (f (a % n)).toList := by
  rw [gather, Nat.add_sub_cancel_left, List.range'_one, List.filterMap_cons, List.filterMap_nil]
  cases f (a % n) <;> rfl

theorem gather_cons (h : a < b) : gather n f a b = (f (a % n)).toList ++ gather n f (a + 1) b := by
  rw [gather_append (Nat.le_succ a) h, gather_single]

theorem gather_congr (h : ∀ p, a ≤ p → p < b → f (p % n) = g (p % n)) :
    gather n f a b = gather n g a b := by
  refine List.filterMap_congr fun p hp => ?_
  rw [List.mem_range'_1] at hp
  exact h p hp.1 (by omega)

theorem gather_eq_nil (h : ∀ p, a ≤ p → p < b → f (p % n) = none) : gather n f a b = [] := by
  refine List.filterMap_eq_nil_iff.mpr fun p hp => ?_
  rw [List.mem_range'_1] at hp
  exact h p hp.1 (by omega)

theorem filterMap_range_slot (k : Nat) :
    ((List.range k).filterMap fun j => f ((a % n + j) % n)) = gather n f a (a + k) := by
  rw [gather, Nat.add_sub_cancel_left, List.range'_eq_map_range, List.filterMap_map]
  refine List.filterMap_congr fun j _ => ?_
  simp only [Function.comp, Nat.mod_add_mod]

end VmkDrivers.Lib
