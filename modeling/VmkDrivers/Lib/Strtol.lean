/-
  VmkDrivers.Lib.Strtol

  Numbers read from text, as `strtol` reads them.

  `Numeral base s n` says that the whole of `s` is a numeral of the base and
  denotes `n`.  `strtol` asks for less: it skips blanks, takes a sign and, for
  base 16, a `0x`, reads digits as far as there are any (none at all counts as
  zero) and leaves the rest.  On a numeral the two agree (`numeral_iff_lead`).
-/

import Mathlib

namespace VmkDrivers.Lib

/-! ## Numerals -/

def digitVal (c : Char) : Option Nat :=
  if '0' ≤ c ∧ c ≤ '9' then some (c.toNat - '0'.toNat)
  else if 'a' ≤ c ∧ c ≤ 'z' then some (c.toNat - 'a'.toNat + 10)
  else if 'A' ≤ c ∧ c ≤ 'Z' then some (c.toNat - 'A'.toNat + 10)
  else none

def digitOf (base : Nat) (c : Char) : Option Nat := (digitVal c).filter (· < base)

def isDigitOf (base : Nat) (c : Char) : Bool := (digitOf base c).isSome

/-- `s` is a numeral of the base, and denotes `n`. -/
inductive Numeral (base : Nat) : List Char → Nat → Prop
  | one {c : Char} {d : Nat} (h_digit : digitOf base c = some d) : Numeral base [c] d
  | snoc {s : List Char} {n : Nat} {c : Char} {d : Nat} (h_init : Numeral base s n)
      (h_digit : digitOf base c = some d) : Numeral base (s ++ [c]) (n * base + d)

def IsNumeral (base : Nat) (s : List Char) : Prop := s ≠ [] ∧ ∀ c ∈ s, isDigitOf base c

instance (base : Nat) (s : List Char) : Decidable (IsNumeral base s) :=
  inferInstanceAs (Decidable (s ≠ [] ∧ ∀ c ∈ s, isDigitOf base c))

def digitsValue (base : Nat) (s : List Char) : Nat :=
  s.foldl (fun n c => n * base + (digitOf base c).getD 0) 0

variable {base : Nat} {s t : List Char} {n : Nat} {c : Char}

theorem digitsValue_snoc (c : Char) :
    digitsValue base (s ++ [c]) = digitsValue base s * base + (digitOf base c).getD 0 := by
  unfold digitsValue
  rw [List.foldl_append, List.foldl_cons, List.foldl_nil]

theorem digitsValue_zero_cons : digitsValue base ('0' :: t) = digitsValue base t := by
  have hzero : (digitOf base '0').getD 0 = 0 := by
    have hval : digitVal '0' = some 0 := by decide
    unfold digitOf
    rw [hval, Option.filter_some]
    split <;> rfl
  unfold digitsValue
  rw [List.foldl_cons, hzero, Nat.zero_mul, Nat.add_zero]

theorem Numeral.isNumeral (h : Numeral base s n) : IsNumeral base s := by
  induction h with
  | one hd =>
    refine ⟨List.cons_ne_nil _ _, fun x hx => ?_⟩
    rw [List.mem_singleton.mp hx, isDigitOf, hd]
    rfl
  | snoc _ hd ih =>
    refine ⟨List.append_ne_nil_of_right_ne_nil _ (List.cons_ne_nil _ _), fun x hx => ?_⟩
    rcases List.mem_append.mp hx with hx | hx
    · exact ih.2 x hx
    · rw [List.mem_singleton.mp hx, isDigitOf, hd]
      rfl

theorem Numeral.digitsValue_eq (h : Numeral base s n) : digitsValue base s = n := by
  induction h with
  | one hd => simp [digitsValue, hd]
  | snoc _ hd ih => rw [digitsValue_snoc, ih, hd, Option.getD_some]

theorem IsNumeral.numeral (h : IsNumeral base s) : Numeral base s (digitsValue base s) := by
  obtain ⟨hne, hdigits⟩ := h
  -- From the left, as the value grows: a digit is added behind a shorter numeral.
  induction s using List.reverseRecOn with
  | nil => exact absurd rfl hne
  | append_singleton s c ih =>
    obtain ⟨d, hd⟩ := Option.isSome_iff_exists.mp (hdigits c (by simp))
    rw [digitsValue_snoc, hd, Option.getD_some]
    by_cases hs : s = []
    · subst hs
      simpa [digitsValue] using Numeral.one hd
    · exact .snoc (ih hs fun x hx => hdigits x (List.mem_append_left _ hx)) hd

theorem isNumeral_iff : IsNumeral base s ↔ ∃ n, Numeral base s n :=
  ⟨fun h => ⟨_, h.numeral⟩, fun ⟨_, h⟩ => h.isNumeral⟩

/-! ## What strtol reads -/

/-- `isspace`. -/
def isBlank (c : Char) : Bool :=
  c = ' ' ∨ ('\t' ≤ c ∧ c ≤ '\r')

def isNegative : List Char → Bool
  | '-' :: _ => true
  | _ => false

def dropSign : List Char → List Char
  | '-' :: s => s
  | '+' :: s => s
  | s => s

/-- A `0x` of base 16; only a digit behind it makes it more than the number zero. -/
def dropMark (base : Nat) : List Char → List Char
  | '0' :: x :: c :: s =>
    if base = 16 ∧ (x = 'x' ∨ x = 'X') ∧ isDigitOf 16 c then c :: s else '0' :: x :: c :: s
  | s => s

def digitsOn (base : Nat) (s : List Char) : List Char :=
  dropMark base (dropSign (s.dropWhile isBlank))

def lead (base : Nat) (s : List Char) : Int :=
  let n := digitsValue base ((digitsOn base s).takeWhile (isDigitOf base))
  if isNegative (s.dropWhile isBlank) then -n else n

def behind (base : Nat) (s : List Char) : List Char :=
  if (digitsOn base s).takeWhile (isDigitOf base) = [] then s
  else (digitsOn base s).dropWhile (isDigitOf base)

/-- `LONG_MAX` and `LONG_MIN` for a `long` of `w` bits. -/
def longMax (w : Nat) : Int := 2 ^ (w - 1) - 1
def longMin (w : Nat) : Int := -2 ^ (w - 1)

/-- The results of `strtol`, and whether it sets `errno` to `ERANGE`. -/
structure Strtol where
  val : Int
  endptr : List Char
  erange : Bool

/-- `strtol`, with a `long` of `w` bits. -/
def strtol (w base : Nat) (s : List Char) : Strtol :=
  if lead base s > longMax w then ⟨longMax w, behind base s, true⟩
  else if lead base s < longMin w then ⟨longMin w, behind base s, true⟩
  else ⟨lead base s, behind base s, false⟩

theorem le_of_isDigitOf (h : isDigitOf base c) : 48 ≤ c.toNat := by
  obtain ⟨d, hd⟩ := Option.isSome_iff_exists.mp h
  have hval : digitVal c = some d := (Option.filter_eq_some_iff.mp hd).1
  unfold digitVal at hval
  have hle (a : Char) (ha : a ≤ c) : a.toNat ≤ c.toNat := ha
  split at hval
  · exact hle '0' (by tauto)
  split at hval
  · exact le_trans (by decide) (hle 'a' (by tauto))
  split at hval
  · exact le_trans (by decide) (hle 'A' (by tauto))
  · cases hval

theorem isBlank_digit (h : isDigitOf base c) : isBlank c = false := by
  have hc := le_of_isDigitOf h
  have hblank : ¬c = ' ' := by
    rintro rfl
    exact absurd hc (by decide)
  have hrow : ¬c ≤ '\r' := by
    intro hle
    have : c.toNat ≤ '\r'.toNat := hle
    exact absurd (le_trans hc this) (by decide)
  simp [isBlank, hblank, hrow]

theorem not_sign_of_isDigitOf (h : isDigitOf base c) : c ≠ '-' ∧ c ≠ '+' := by
  have hc := le_of_isDigitOf h
  constructor <;> rintro rfl <;> exact absurd hc (by decide)

theorem dropSign_digit (h : isDigitOf base c) : dropSign (c :: t) = c :: t := by
  obtain ⟨hminus, hplus⟩ := not_sign_of_isDigitOf h
  unfold dropSign
  split
  · simp_all
  · simp_all
  · rfl

theorem isNegative_digit (h : isDigitOf base c) : isNegative (c :: t) = false := by
  obtain ⟨hminus, _⟩ := not_sign_of_isDigitOf h
  unfold isNegative
  split
  · simp_all
  · rfl

theorem dropMark_numeral (hs : ∀ c ∈ s, isDigitOf base c) (ht : base = 16 → t = []) :
    dropMark base (s ++ t) = s ++ t := by
  unfold dropMark
  split
  · rename_i x c r heq
    split
    · rename_i hmark
      obtain ⟨hbase, hx, -⟩ := hmark
      rw [ht hbase, List.append_nil] at heq
      have hdigit := hs x (by rw [heq]; simp)
      rw [hbase] at hdigit
      rcases hx with rfl | rfl <;> exact absurd hdigit (by decide)
    · exact heq.symm
  · rfl

theorem dropWhile_isBlank_digit (h : isDigitOf base c) : (c :: t).dropWhile isBlank = c :: t :=
  List.dropWhile_cons_of_neg (by rw [isBlank_digit h]; exact Bool.false_ne_true)

theorem digitsOn_numeral (hs : IsNumeral base s) (ht : base = 16 → t = []) :
    digitsOn base (s ++ t) = s ++ t := by
  obtain ⟨hne, hdigits⟩ := hs
  obtain ⟨c, s, rfl⟩ := List.exists_cons_of_ne_nil hne
  have hc := hdigits c List.mem_cons_self
  unfold digitsOn
  rw [List.cons_append, dropWhile_isBlank_digit hc, dropSign_digit hc, ← List.cons_append,
    dropMark_numeral hdigits ht]

section Behind

-- The text behind the numeral does not go on with a digit.
variable (hs : IsNumeral base s) (hbreak : ∀ c ∈ t.head?, isDigitOf base c = false)

include hs hbreak

theorem takeWhile_numeral : (s ++ t).takeWhile (isDigitOf base) = s := by
  have hstop : t.takeWhile (isDigitOf base) = [] := by
    cases t with
    | nil => rfl
    | cons c t =>
      apply List.takeWhile_cons_of_neg
      rw [hbreak c rfl]
      exact Bool.false_ne_true
  rw [List.takeWhile_append_of_pos hs.2, hstop, List.append_nil]

theorem dropWhile_numeral : (s ++ t).dropWhile (isDigitOf base) = t := by
  have hsplit := List.takeWhile_append_dropWhile (p := isDigitOf base) (l := s ++ t)
  rw [takeWhile_numeral hs hbreak] at hsplit
  exact List.append_cancel_left hsplit

variable (ht : base = 16 → t = [])

include ht

theorem lead_numeral : lead base (s ++ t) = digitsValue base s := by
  have hsign : isNegative ((s ++ t).dropWhile isBlank) = false := by
    obtain ⟨c, s, rfl⟩ := List.exists_cons_of_ne_nil hs.1
    have hc := hs.2 c List.mem_cons_self
    rw [List.cons_append, dropWhile_isBlank_digit hc, isNegative_digit hc]
  unfold lead
  rw [digitsOn_numeral hs ht, takeWhile_numeral hs hbreak, hsign]
  rfl

theorem behind_numeral : behind base (s ++ t) = t := by
  unfold behind
  rw [digitsOn_numeral hs ht, takeWhile_numeral hs hbreak, if_neg hs.1, dropWhile_numeral hs hbreak]

end Behind

theorem IsNumeral.lead_eq (h : IsNumeral base s) : lead base s = digitsValue base s := by
  rw [← lead_numeral h (by simp : ∀ c ∈ [].head?, isDigitOf base c = false) (fun _ => rfl),
    List.append_nil]

theorem numeral_iff_lead : Numeral base s n ↔ IsNumeral base s ∧ lead base s = n := by
  constructor
  · intro h
    rw [h.isNumeral.lead_eq, h.digitsValue_eq]
    exact ⟨h.isNumeral, rfl⟩
  · rintro ⟨hs, hn⟩
    rw [hs.lead_eq] at hn
    rw [← Int.ofNat_inj.mp hn]
    exact hs.numeral

theorem numeral_zero_cons_iff (h_base : 0 < base) :
    Numeral base ('0' :: s) n ↔ (IsNumeral base s ∨ s = []) ∧ lead base s = n := by
  have hzero : isDigitOf base '0' = true := by
    have hval : digitVal '0' = some 0 := by decide
    simp [isDigitOf, digitOf, hval, h_base]
  have hdigits : IsNumeral base ('0' :: s) ↔ IsNumeral base s ∨ s = [] := by
    simp only [IsNumeral, ne_eq, reduceCtorEq, not_false_eq_true, List.mem_cons, forall_eq_or_imp,
      hzero, true_and]
    by_cases hs : s = []
    · simp [hs]
    · simp [hs]
  have hlead (hs : IsNumeral base s ∨ s = []) : lead base s = digitsValue base s := by
    rcases hs with hs | rfl
    · exact hs.lead_eq
    · rfl
  rw [numeral_iff_lead, hdigits]
  apply and_congr_right
  intro hs
  rw [(hdigits.mpr hs).lead_eq, hlead hs, digitsValue_zero_cons]

/-! ## The range of a long -/

variable {w : Nat}

theorem strtol_of_fits (h_min : longMin w ≤ lead base s) (h_max : lead base s ≤ longMax w) :
    strtol w base s = ⟨lead base s, behind base s, false⟩ := by
  unfold strtol
  rw [if_neg (by omega), if_neg (by omega)]

theorem strtol_of_not_fits (h : ¬(longMin w ≤ lead base s ∧ lead base s ≤ longMax w)) :
    (strtol w base s).erange = true ∧
      ((strtol w base s).val = longMax w ∨ (strtol w base s).val = longMin w) := by
  unfold strtol
  split
  · exact ⟨rfl, .inl rfl⟩
  · rw [if_pos (by omega)]
    exact ⟨rfl, .inr rfl⟩

end VmkDrivers.Lib
