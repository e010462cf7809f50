/-
  VmkDrivers.Lib.Activities

  Systems in which any number of activities work on a shared state, one step
  of one activity at a time.

  An activity is what remains to be done of a call.  A step of it may be
  blocked, may fail, or leaves a new shared state with the activities that take
  its place.  The activities under way form a multiset: which of two alike
  makes a step is of no interest.

  An invariant of the shared state and the activities is one of all runs if it
  is kept by every beginning and every step (`Program.keeps_run`).  What all
  activities contribute together is a `total`.
-/

import VmkDrivers.Lib.Transition

namespace VmkDrivers.Lib

/-! ## Totals -/

section Total

variable {π M : Type*} [AddCommMonoid M] {ps : Multiset π} (f : π → M)

def total (f : π → M) (ps : Multiset π) : M := (ps.map f).sum

@[simp] theorem total_zero : total f 0 = 0 := rfl

@[simp] theorem total_cons (p : π) (ps : Multiset π) : total f (p ::ₘ ps) = f p + total f ps := by
  simp [total]

@[simp] theorem total_add (ps qs : Multiset π) : total f (ps + qs) = total f ps + total f qs := by
  simp [total]

@[simp] theorem total_coe (ps : List π) : total f (ps : Multiset π) = (ps.map f).sum := by
  simp [total]

theorem total_eq_zero {f : π → M} (h : ∀ p ∈ ps, f p = 0) : total f ps = 0 :=
  Multiset.sum_eq_zero fun _ hx => by
    obtain ⟨p, hp, rfl⟩ := Multiset.mem_map.mp hx
    exact h p hp

theorem mem_total {α : Type*} {f : π → Multiset α} {a : α} :
    a ∈ total f ps ↔ ∃ p ∈ ps, a ∈ f p := by
  induction ps using Multiset.induction_on with
  | empty => simp
  | cons p ps ih => simp [ih]

end Total

/-! ## Systems -/

structure Pool (σ π : Type*) where
  shared : σ
  active : Multiset π

/-- What begins from the outside, and how an activity goes on.  The outside may choose between
    several ways to go on. -/
structure Program (σ π ε β φ : Type*) where
  begin : σ → ε → Option (σ × List π)
  move : σ → π → β → Option (Except φ (σ × List π))

inductive PoolEvent (π ε β : Type*) where
  | begin (e : ε)
  | move (p : π) (b : β)
deriving DecidableEq

namespace Program

variable {σ π ε β φ : Type*} [DecidableEq π] (P : Program σ π ε β φ)

def next? (r : Except φ (Pool σ π)) (e : PoolEvent π ε β) : Option (Except φ (Pool σ π)) :=
  match r, e with
  | .error _, _ => none
  | .ok s, .begin e => (P.begin s.shared e).map fun (t, ps) => .ok ⟨t, ps + s.active⟩
  | .ok s, .move p b =>
    if p ∈ s.active then
      (P.move s.shared p b).map fun r => r.map fun (t, ps) => ⟨t, ps + s.active.erase p⟩
    else none

def Step (r : Except φ (Pool σ π)) (e : PoolEvent π ε β) (t : Except φ (Pool σ π)) : Prop :=
  P.next? r e = some t

variable {P} {e : PoolEvent π ε β} {I : σ → Multiset π → Prop}

theorem Step.unique {r t t' : Except φ (Pool σ π)} (h : P.Step r e t) (h' : P.Step r e t') :
    t = t' :=
  Option.some.inj (h.symm.trans h')

theorem step_cases {r t : Except φ (Pool σ π)} (h : P.Step r e t) :
    (∃ s ev u ps, r = .ok s ∧ e = .begin ev ∧ P.begin s.shared ev = some (u, ps) ∧
        t = .ok ⟨u, ps + s.active⟩) ∨
      ∃ s p b rest o, r = .ok ⟨s, p ::ₘ rest⟩ ∧ e = .move p b ∧ P.move s p b = some o ∧
        t = o.map fun (u, ps) => ⟨u, ps + rest⟩ := by
  unfold Step next? at h
  split at h
  · cases h
  · next s ev =>
    obtain ⟨⟨u, ps⟩, hbegin, rfl⟩ := Option.map_eq_some_iff.mp h
    exact .inl ⟨s, ev, u, ps, rfl, rfl, hbegin, rfl⟩
  · next s p b =>
    split at h
    · next hmem =>
      obtain ⟨o, hmove, rfl⟩ := Option.map_eq_some_iff.mp h
      refine .inr ⟨s.shared, p, b, s.active.erase p, o, ?_, rfl, hmove, rfl⟩
      rw [Multiset.cons_erase hmem]
    · cases h

def Holds (I : σ → Multiset π → Prop) : Except φ (Pool σ π) → Prop
  | .ok s => I s.shared s.active
  | .error _ => False

/-- **Step rule.** What every beginning and every move keep, every step keeps. -/
theorem keeps_step (hbegin : ∀ s a e t ps, I s a → P.begin s e = some (t, ps) → I t (ps + a))
    (hmove : ∀ s p rest b o, I s (p ::ₘ rest) → P.move s p b = some o →
      ∃ t ps, o = .ok (t, ps) ∧ I t (ps + rest))
    {r t : Except φ (Pool σ π)} (h : Holds I r) (hstep : P.Step r e t) :
    Holds I t := by
  rcases step_cases hstep with ⟨s, ev, u, ps, rfl, rfl, hstart, rfl⟩ |
    ⟨s, p, b, rest, o, rfl, rfl, hgo, rfl⟩
  · exact hbegin _ _ _ _ _ h hstart
  · obtain ⟨u, ps, rfl, hkept⟩ := hmove _ _ _ _ _ h hgo
    exact hkept

/-- **Run rule.** -/
theorem keeps_run (hbegin : ∀ s a e t ps, I s a → P.begin s e = some (t, ps) → I t (ps + a))
    (hmove : ∀ s p rest b o, I s (p ::ₘ rest) → P.move s p b = some o →
      ∃ t ps, o = .ok (t, ps) ∧ I t (ps + rest))
    {r t : Except φ (Pool σ π)} {es : List (PoolEvent π ε β)} (h : Holds I r)
    (hrun : Run P.Step r es t) : Holds I t :=
  hrun.invariant (fun _ _ _ hI hstep => keeps_step hbegin hmove hI hstep) h

end Program

end VmkDrivers.Lib
