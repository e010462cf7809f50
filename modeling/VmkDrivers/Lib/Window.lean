/-
  VmkDrivers.Lib.Window

  Blocks of memory and the windows of a fixed size that they lie in.

  A block lies in a window if all its addresses have one quotient by the size of the
  window (`InWindow`).  An aligned block no longer than its alignment does, for each
  window that is a multiple of the alignment (`InWindow.of_aligned`).  Addresses of a
  machine go round at `N`: `fits_wrapped` and `inWindow_wrapped` say when the bytes of
  a block all stay below a limit, or in their window, nevertheless.
-/

import Mathlib

namespace VmkDrivers.Lib

variable {w a len align N limit : Nat}

def InWindow (w a len : Nat) : Prop := ∀ i < len, (a + i) / w = a / w

theorem inWindow_iff (hw : 0 < w) (hlen : 0 < len) : InWindow w a len ↔ a % w + len ≤ w := by
  have ha := Nat.mod_add_div a w
  constructor
  · intro h
    have hlast := h (len - 1) (by omega)
    have hsame := Nat.mod_add_div (a + (len - 1)) w
    have hlt := Nat.mod_lt (a + (len - 1)) hw
    rw [hlast] at hsame
    omega
  · intro hfit i hi
    have hsplit : a + i = a % w + i + w * (a / w) := by omega
    rw [hsplit, Nat.add_mul_div_left _ _ hw, Nat.div_eq_of_lt (by omega), Nat.zero_add]

theorem InWindow.of_aligned (hw : 0 < w) (hdvd : align ∣ w) (ha : align ∣ a) (hlen : len ≤ align) :
    InWindow w a len := by
  rcases Nat.eq_zero_or_pos len with rfl | hpos
  · exact nofun
  · rw [inWindow_iff hw hpos]
    -- what is left of the window is a multiple of the alignment too
    have hmod : align ∣ a % w := (Nat.dvd_mod_iff hdvd).mpr ha
    have hleft : align ∣ w - a % w := Nat.dvd_sub hdvd hmod
    have hlt := Nat.mod_lt a hw
    have hle := Nat.le_of_dvd (by omega) hleft
    omega

/-! ## Addresses that go round -/

theorem fits_wrapped (len : Nat) (ha : a ≤ limit) (hlimit : limit < N) :
    (∀ i < len, (a + i) % N ≤ limit) ↔ limit + 1 = N ∨ a + len ≤ limit + 1 := by
  constructor
  · intro h
    by_contra hmore
    rw [not_or] at hmore
    -- the first byte behind the limit
    have hfirst := h (limit + 1 - a) (by omega)
    have hat : a + (limit + 1 - a) = limit + 1 := by omega
    rw [hat, Nat.mod_eq_of_lt (by omega)] at hfirst
    omega
  · rintro (rfl | hfit) i hi
    · exact Nat.le_of_lt_succ (Nat.mod_lt _ (Nat.succ_pos limit))
    · rw [Nat.mod_eq_of_lt (by omega)]
      omega

theorem inWindow_wrapped (len : Nat) (hw : 0 < w) (hdvd : w ∣ N) (ha : a < N) :
    (∀ i < len, (a + i) % N / w = a / w) ↔ w = N ∨ len = 0 ∨ a % w + len ≤ w := by
  obtain ⟨m, rfl⟩ := hdvd
  have hdiv := Nat.mod_add_div a w
  have hq : a / w < m := Nat.div_lt_of_lt_mul ha
  have hlast : w * (a / w) + w ≤ w * m := by
    rw [← Nat.mul_succ]
    exact Nat.mul_le_mul_left w hq
  have hlt := Nat.mod_lt a hw
  constructor
  · intro h
    by_contra hmore
    rw [not_or, not_or] at hmore
    obtain ⟨hne, -, hlong⟩ := hmore
    -- the first byte of the next window
    have hnext := h (w - a % w) (by omega)
    have hat : a + (w - a % w) = w * (a / w + 1) := by
      rw [Nat.mul_succ]
      omega
    rw [hat, Nat.mul_mod_mul_left, Nat.mul_div_cancel_left _ hw] at hnext
    rcases Nat.lt_or_ge (a / w + 1) m with hin | hout
    · rw [Nat.mod_eq_of_lt hin] at hnext
      omega
    · -- the next is the first one again
      obtain rfl : m = a / w + 1 := by omega
      rw [Nat.mod_self] at hnext
      rw [← hnext] at hne
      exact hne (Nat.mul_one w).symm
  · rintro hall i hi
    have hpos : 0 < w * m := by omega
    have hround := Nat.mod_lt (a + i) hpos
    by_cases hone : w = w * m
    · rw [Nat.div_eq_of_lt (by omega), Nat.div_eq_of_lt (by omega)]
    · have hin : a % w + len ≤ w := by omega
      rw [Nat.mod_eq_of_lt (by omega)]
      exact (inWindow_iff hw (by omega)).mpr hin i hi

end VmkDrivers.Lib
