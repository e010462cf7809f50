/-
  VmkDrivers.Lib.GapCount

  Counting losses by sequence numbers.

  A receiver of numbered messages keeps the number it expects next.  A larger
  one skips the numbers in between, which it counts as dropped; a smaller one
  is late.  Nothing is ever taken back, so a message that was skipped and
  arrives later is counted both ways.  The expected number is where the
  receiver started plus what it accepted and what it dropped
  (`expected_run`), and if every message arrives once at most, dropped minus
  late is what has not arrived (`card_missing`).
-/

import Mathlib

namespace VmkDrivers.Lib

structure GapCount where
  expected : ℕ
  accepted : ℕ := 0
  late : ℕ := 0
  dropped : ℕ := 0

namespace GapCount

/-- The message `n` arrives. -/
def step (g : GapCount) (n : ℕ) : GapCount :=
  if n < g.expected then { g with late := g.late + 1 }
  else
    { g with
      expected := n + 1
      accepted := g.accepted + 1
      dropped := g.dropped + (n - g.expected) }

/-- The messages `ns` arrive one after the other. -/
def run (g : GapCount) (ns : List ℕ) : GapCount := ns.foldl step g

variable (g : GapCount)

@[simp] theorem run_cons (n : ℕ) (ns : List ℕ) : g.run (n :: ns) = (g.step n).run ns := rfl

theorem expected_le_step (n : ℕ) : g.expected ≤ (g.step n).expected := by
  unfold step
  split
  · exact Nat.le_refl _
  · next hge => exact Nat.le_succ_of_le (Nat.not_lt.mp hge)

theorem lt_expected_step (n : ℕ) : n < (g.step n).expected := by
  unfold step
  split
  · assumption
  · exact Nat.lt_succ_self n

theorem expected_le_run (ns : List ℕ) : g.expected ≤ (g.run ns).expected := by
  induction ns generalizing g with
  | nil => exact Nat.le_refl _
  | cons n ns ih => exact Nat.le_trans (g.expected_le_step n) (ih _)

theorem lt_expected_run {ns : List ℕ} {n : ℕ} (h : n ∈ ns) : n < (g.run ns).expected := by
  induction ns generalizing g with
  | nil => exact absurd h List.not_mem_nil
  | cons m ns ih =>
    rcases List.mem_cons.mp h with rfl | h
    · exact Nat.lt_of_lt_of_le (g.lt_expected_step n) (expected_le_run _ ns)
    · exact ih _ h

theorem expected_step (n : ℕ) :
    (g.step n).expected + g.accepted + g.dropped =
      g.expected + (g.step n).accepted + (g.step n).dropped := by
  unfold step
  split
  · rfl
  · simp only
    omega

theorem expected_run (ns : List ℕ) :
    (g.run ns).expected + g.accepted + g.dropped =
      g.expected + (g.run ns).accepted + (g.run ns).dropped := by
  induction ns generalizing g with
  | nil => rfl
  | cons n ns ih =>
    have hstep := g.expected_step n
    have hrest := ih (g.step n)
    rw [run_cons]
    omega

theorem accepted_add_late_step (n : ℕ) :
    (g.step n).accepted + (g.step n).late = g.accepted + g.late + 1 := by
  unfold step
  split
  · rfl
  · exact Nat.add_right_comm g.accepted 1 g.late

theorem accepted_add_late_run (ns : List ℕ) :
    (g.run ns).accepted + (g.run ns).late = g.accepted + g.late + ns.length := by
  induction ns generalizing g with
  | nil => rfl
  | cons n ns ih =>
    have hstep := g.accepted_add_late_step n
    rw [run_cons, ih, List.length_cons]
    omega

/-- **The true loss.** From the start on, if nothing below the first number expected arrives
    and nothing twice, what is missing is what was dropped without the late ones. -/
theorem card_missing {e₀ : ℕ} {ns : List ℕ} (hlow : ∀ n ∈ ns, e₀ ≤ n) (hnodup : ns.Nodup) :
    let g := ({ expected := e₀ } : GapCount).run ns
    ({k ∈ Finset.Ico e₀ g.expected | k ∉ ns}.card : ℤ) = g.dropped - g.late := by
  intro g
  have hsub : ns.toFinset ⊆ Finset.Ico e₀ g.expected := by
    intro n hn
    have hmem := List.mem_toFinset.mp hn
    exact Finset.mem_Ico.mpr ⟨hlow n hmem, lt_expected_run _ hmem⟩
  have hmissing : {k ∈ Finset.Ico e₀ g.expected | k ∉ ns} =
      Finset.Ico e₀ g.expected \ ns.toFinset := by
    ext k
    simp only [Finset.mem_filter, Finset.mem_sdiff, List.mem_toFinset]
  have hcard := Finset.card_sdiff_add_card_eq_card hsub
  rw [List.toFinset_card_of_nodup hnodup, Nat.card_Ico] at hcard
  have hexpected := expected_run { expected := e₀ } ns
  have hcount := accepted_add_late_run { expected := e₀ } ns
  have hle := expected_le_run { expected := e₀ } ns
  rw [hmissing]
  simp only [g] at hcard hexpected hcount hle ⊢
  omega

end GapCount

end VmkDrivers.Lib
