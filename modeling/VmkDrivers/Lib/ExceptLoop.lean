/-
  VmkDrivers.Lib.ExceptLoop

  Steps that may fail, one after the other, and invariant rules for loops over a
  list whose body may fail.

  The invariant may depend on the elements still to come.  `foldlM_total`
  concludes that the loop does not fail, `foldlM_partial` assumes that it
  did not.  For a loop that counts, `foldlM_range`, `foldlM_range_of_ok` and
  `foldlM_range_ne_ok`.
-/

import Mathlib

namespace VmkDrivers.Lib

section Bind

universe u v

variable {ε : Type u} {α β : Type v}

@[simp] theorem ok_bind (a : α) (k : α → Except ε β) : (Except.ok a >>= k) = k a := rfl

@[simp] theorem error_bind (e : ε) (k : α → Except ε β) :
    (Except.error e >>= k) = .error e := rfl

theorem bind_eq_ok {x : Except ε α} {k : α → Except ε β} {b : β} :
    x >>= k = .ok b ↔ ∃ a, x = .ok a ∧ k a = .ok b := by
  cases x with
  | error e => simp
  | ok a => simp

end Bind

variable {α σ ε : Type*} {f : σ → α → Except ε σ} {l : List α} {s : σ} {I : List α → σ → Prop}
  {P : Nat → σ → Prop}

theorem foldlM_cons_ok {a : α} {t : σ} :
    (a :: l).foldlM f s = .ok t ↔ ∃ s', f s a = .ok s' ∧ l.foldlM f s' = .ok t := by
  rw [List.foldlM_cons]
  exact bind_eq_ok

/-- **Total loop rule.** If the body succeeds from the invariant and re-establishes it
    for the remaining elements, the loop succeeds and ends in the invariant. -/
theorem foldlM_total (hbody : ∀ a l s, I (a :: l) s → ∃ s', f s a = .ok s' ∧ I l s') (h : I l s) :
    ∃ t, l.foldlM f s = .ok t ∧ I [] t := by
  induction l generalizing s with
  | nil => exact ⟨s, rfl, h⟩
  | cons a l ih =>
    obtain ⟨s', hs', hI⟩ := hbody a l s h
    obtain ⟨t, ht, hIt⟩ := ih hI
    exact ⟨t, foldlM_cons_ok.mpr ⟨s', hs', ht⟩, hIt⟩

/-- **Partial loop rule.** -/
theorem foldlM_partial (hbody : ∀ a l s s', I (a :: l) s → f s a = .ok s' → I l s') {t : σ}
    (ht : l.foldlM f s = .ok t) (h : I l s) : I [] t := by
  induction l generalizing s with
  | nil =>
    have hst : s = t := by simpa [pure, Except.pure] using ht
    exact hst ▸ h
  | cons a l ih =>
    obtain ⟨s', hs', ht'⟩ := foldlM_cons_ok.mp ht
    exact ih ht' (hbody a l s s' h hs')

theorem foldlM_invariant {I : σ → Prop} {P : α → Prop}
    (hbody : ∀ a s, P a → I s → ∃ s', f s a = .ok s' ∧ I s') (hl : ∀ a ∈ l, P a) (h : I s) :
    ∃ t, l.foldlM f s = .ok t ∧ I t := by
  have hstep : ∀ a l s, (I s ∧ ∀ b ∈ a :: l, P b) →
      ∃ s', f s a = .ok s' ∧ (I s' ∧ ∀ b ∈ l, P b) := by
    intro a l s hI
    obtain ⟨s', hs', hI'⟩ := hbody a s (hI.2 a (by simp)) hI.1
    exact ⟨s', hs', hI', fun b hb => hI.2 b (by simp [hb])⟩
  obtain ⟨t, ht, hI⟩ := foldlM_total (I := fun l s => I s ∧ ∀ b ∈ l, P b) hstep ⟨h, hl⟩
  exact ⟨t, ht, hI.1⟩

/-! ## Counting loops -/

/-- **Counting rule.** The invariant says how many iterations are done. -/
theorem foldlM_range {f : σ → Nat → Except ε σ} {n : Nat} (h : P 0 s)
    (hbody : ∀ i < n, ∀ s, P i s → ∃ s', f s i = .ok s' ∧ P (i + 1) s') :
    ∃ t, (List.range n).foldlM f s = .ok t ∧ P n t := by
  -- on the number of iterations: the last one comes after all the others
  induction n with
  | zero => exact ⟨s, rfl, h⟩
  | succ n ih =>
    obtain ⟨t, ht, hP⟩ := ih fun i hi => hbody i (Nat.lt_succ_of_lt hi)
    obtain ⟨u, hu, hPu⟩ := hbody n (Nat.lt_succ_self n) t hP
    refine ⟨u, ?_, hPu⟩
    rw [List.range_succ, List.foldlM_append, ht, ok_bind]
    exact foldlM_cons_ok.mpr ⟨u, hu, rfl⟩

theorem foldlM_range_of_ok {f : σ → Nat → Except ε σ} {n : Nat} {t : σ}
    (ht : (List.range n).foldlM f s = .ok t) (h : P 0 s)
    (hbody : ∀ i < n, ∀ s s', P i s → f s i = .ok s' → P (i + 1) s') : P n t := by
  induction n generalizing t with
  | zero =>
    obtain rfl : s = t := Except.ok.inj ht
    exact h
  | succ n ih =>
    rw [List.range_succ, List.foldlM_append] at ht
    obtain ⟨u, hu, hlast⟩ := bind_eq_ok.mp ht
    obtain ⟨v, hv, hdone⟩ := foldlM_cons_ok.mp hlast
    obtain rfl : v = t := Except.ok.inj hdone
    have hP := ih hu fun i hi => hbody i (Nat.lt_succ_of_lt hi)
    exact hbody n (Nat.lt_succ_self n) u v hP hv

theorem foldlM_range_ne_ok {f : σ → Nat → Except ε σ} {n k : Nat} (hk : k < n)
    (hfail : ∀ s t, f s k ≠ .ok t) (s t : σ) : (List.range n).foldlM f s ≠ .ok t := by
  induction n generalizing t with
  | zero => exact absurd hk (Nat.not_lt_zero k)
  | succ n ih =>
    rw [List.range_succ, List.foldlM_append]
    intro hok
    obtain ⟨u, hu, hlast⟩ := bind_eq_ok.mp hok
    -- the index was passed before, or is the last one
    rcases Nat.lt_succ_iff_lt_or_eq.mp hk with hless | rfl
    · exact ih hless u hu
    · obtain ⟨v, hv, -⟩ := foldlM_cons_ok.mp hlast
      exact hfail u v hv

end VmkDrivers.Lib
