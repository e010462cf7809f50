/-
  VmkDrivers.Lib.CString

  Strings in a buffer: the characters from a position up to the first that is
  `nul`.
-/

import Mathlib

namespace VmkDrivers.Lib

variable {α : Type} [DecidableEq α]

def strAt (nul : α) (buf : List α) (i : Nat) : List α := (buf.drop i).takeWhile (· ≠ nul)

/-- The length of the string at the front, at most `n`. -/
def strnlen (nul : α) (buf : List α) (n : Nat) : Nat := (strAt nul (buf.take n) 0).length

def strchr (nul : α) (buf : List α) (i : Nat) (c : α) : Option Nat :=
  ((strAt nul buf i).idxOf? c).map (i + ·)

variable {nul c : α} {buf pre s r junk : List α} {i j n : Nat}

theorem strAt_append (h : nul ∉ s) : strAt nul (pre ++ (s ++ nul :: junk)) pre.length = s := by
  have hall : ∀ x ∈ s, decide (x ≠ nul) = true := fun x hx => decide_eq_true fun heq => h (heq ▸ hx)
  rw [strAt, List.drop_left, List.takeWhile_append_of_pos hall,
    List.takeWhile_cons_of_neg (by simp), List.append_nil]

theorem strnlen_append (h : nul ∉ s) (hn : s.length < n) :
    strnlen nul (s ++ nul :: junk) n = s.length := by
  obtain ⟨m, rfl⟩ := Nat.exists_eq_add_of_lt hn
  have htake : (s ++ nul :: junk).take (s.length + m + 1) = [] ++ (s ++ nul :: junk.take m) := by
    rw [Nat.add_assoc, List.take_length_add_append, List.take_succ_cons, List.nil_append]
  rw [strnlen, htake]
  exact congrArg List.length (strAt_append h)

theorem le_of_strchr (h : strchr nul buf i c = some j) : i ≤ j := by
  obtain ⟨k, -, rfl⟩ := Option.map_eq_some_iff.mp h
  exact Nat.le_add_right _ _

theorem strchr_of_notMem (h : nul ∉ s) (hc : c ∉ s) :
    strchr nul (pre ++ (s ++ nul :: junk)) pre.length c = none := by
  rw [strchr, strAt_append h, List.idxOf?_eq_none_iff.mpr hc, Option.map_none]

theorem strchr_append (h : nul ∉ s ++ c :: r) (hc : c ∉ s) :
    strchr nul (pre ++ (s ++ c :: r ++ nul :: junk)) pre.length c =
      some (pre.length + s.length) := by
  have hidx : (s ++ c :: r).idxOf? c = some s.length := by
    induction s with
    | nil => simp [List.idxOf?_cons]
    | cons x s ih =>
      rw [List.mem_cons, not_or] at hc
      rw [List.cons_append, List.mem_cons, not_or] at h
      rw [List.cons_append, List.idxOf?_cons, beq_false_of_ne fun heq => hc.1 heq.symm,
        ih h.2 hc.2]
      rfl
  rw [strchr, strAt_append h, hidx, Option.map_some]

end VmkDrivers.Lib
