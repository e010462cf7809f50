/-
  VmkDrivers.Lib.Acquire

  Loops that acquire a resource for each of a number of slots, or none.

  `acquireAll` sets up the slots one after the other and, at the first one
  that fails, releases those in front of it.  `acquireAll_spec` is the rule
  for a start with all slots free: either each slot below the bound holds its
  resource, or all slots are free again.
-/

import Mathlib

namespace VmkDrivers.Lib

variable {R : Type*} (setup : Nat → R → R × Bool) (release : R → R)

/-- Release the slots below `n`. -/
def releaseAll (n : Nat) (slots : Nat → R) : Nat → R :=
  fun i => if i < n then release (slots i) else slots i

/-- Set up the slots below `n`, rewinding at the first failure. -/
def acquireAll : (n : Nat) → (slots : Nat → R) → (Nat → R) × Bool
  | 0, slots => (slots, true)
  | n + 1, slots =>
    match acquireAll n slots with
    | (slots, false) => (slots, false)
    | (slots, true) =>
      let (r, ok) := setup n (slots n)
      let slots := Function.update slots n r
      if ok then (slots, true) else (releaseAll release n slots, false)

/-- What the slots are after `acquireAll n` that started with all of them free. -/
def Acquired (Free : R → Prop) (Held : Nat → R → Prop) (n : Nat) (slots : Nat → R) : Prop :=
  ∀ i, if i < n then Held i (slots i) else Free (slots i)

variable {setup release} {Free : R → Prop} {Held : Nat → R → Prop} {n : Nat} {slots : Nat → R}

theorem releaseAll_free (hrel : ∀ i r, Held i r → Free (release r)) (h : Acquired Free Held n slots)
    (i : Nat) : Free (releaseAll release n slots i) := by
  have hi := h i
  unfold releaseAll
  split
  · next hlt => rw [if_pos hlt] at hi; exact hrel i _ hi
  · next hge => rwa [if_neg hge] at hi

theorem Acquired.succ {r : R} (h : Acquired Free Held n slots) (hr : Held n r) :
    Acquired Free Held (n + 1) (Function.update slots n r) := by
  intro i
  have hi := h i
  by_cases hn : i = n
  · subst hn
    rwa [if_pos (Nat.lt_succ_self i), Function.update_self]
  · rw [Function.update_of_ne hn]
    split
    · next hlt => rwa [if_pos (by omega)] at hi
    · next hge => rwa [if_neg (by omega)] at hi

theorem Acquired.fail {r : R} (h : Acquired Free Held n slots) (hr : Free r) :
    Acquired Free Held n (Function.update slots n r) := by
  intro i
  by_cases hn : i = n
  · subst hn
    rwa [if_neg (Nat.lt_irrefl i), Function.update_self]
  · rw [Function.update_of_ne hn]
    exact h i

/-- **All or nothing.** Given what one set-up does to a free slot, the loop succeeds exactly
    if each one would; it leaves all slots held then, and all free otherwise. -/
theorem acquireAll_spec (Free : R → Prop) (Held : Nat → R → Prop) (ok : Nat → Prop)
    (hok : ∀ i r, Free r → ok i → (setup i r).2 = true ∧ Held i (setup i r).1)
    (hfail : ∀ i r, Free r → ¬ok i → (setup i r).2 = false ∧ Free (setup i r).1)
    (hrel : ∀ i r, Held i r → Free (release r)) (hfree : ∀ i, Free (slots i)) (n : Nat) :
    (∀ i < n, ok i) ∧ (acquireAll setup release n slots).2 = true ∧
        Acquired Free Held n (acquireAll setup release n slots).1 ∨
      ¬(∀ i < n, ok i) ∧ (acquireAll setup release n slots).2 = false ∧
        ∀ i, Free ((acquireAll setup release n slots).1 i) := by
  induction n with
  | zero =>
    refine .inl ⟨fun i hi => absurd hi (Nat.not_lt_zero i), rfl, fun i => ?_⟩
    rw [if_neg (Nat.not_lt_zero i)]
    exact hfree i
  | succ n ih =>
    rw [acquireAll]
    rcases hprev : acquireAll setup release n slots with ⟨mid, done⟩
    rw [hprev] at ih
    obtain ⟨hall, rfl, hacq⟩ | ⟨hsome, rfl, hnone⟩ := ih
    · have hn : Free (mid n) := by
        have h := hacq n
        rwa [if_neg (Nat.lt_irrefl n)] at h
      by_cases hokn : ok n
      · -- the loop goes on
        obtain ⟨hdone, hheld⟩ := hok n _ hn hokn
        refine .inl ⟨fun i hi => ?_, ?_⟩
        · rcases Nat.lt_succ_iff_lt_or_eq.mp hi with hlt | rfl
          · exact hall i hlt
          · exact hokn
        · simp only [hdone, if_true]
          exact ⟨trivial, hacq.succ hheld⟩
      · -- the loop rewinds
        obtain ⟨hdone, hfreed⟩ := hfail n _ hn hokn
        refine .inr ⟨fun h => hokn (h n (Nat.lt_succ_self n)), ?_⟩
        simp only [hdone, Bool.false_eq_true, if_false]
        exact ⟨trivial, releaseAll_free hrel (hacq.fail hfreed)⟩
    · exact .inr ⟨fun h => hsome fun i hi => h i (Nat.lt_succ_of_lt hi), rfl, hnone⟩

end VmkDrivers.Lib
