/-
  VmkDrivers.Lib.Frames

  Activities that carry a frame: what they belong to, or what they have to
  return.

  `Program.framed` gives each activity that begins a frame, and hands it on to
  those that take its place.  Beside the shared state it keeps a history, from
  which an activity may be told to wait.  A run with frames is a run of the
  program when they are forgotten (`Program.forget_run`), so that what is known
  of the runs of the program is known of those with frames.
-/

import VmkDrivers.Lib.Activities

namespace VmkDrivers.Lib

/-- The frames of a program: those of an activity that begins and of one that has gone on, with
    the history, and whether an activity may go on. -/
structure Framing (σ π ε κ γ : Type*) where
  start : γ → ε → γ × κ
  may : γ → κ → σ → π → Bool
  next : γ → κ → σ → π → σ → List π → γ × κ

namespace Program

variable {σ π ε β φ κ γ : Type*}

def framed (P : Program σ π ε β φ) (F : Framing σ π ε κ γ) :
    Program (σ × γ) (π × κ) ε β φ where
  begin s e := (P.begin s.1 e).map fun (t, ps) =>
    ((t, (F.start s.2 e).1), ps.map fun p => (p, (F.start s.2 e).2))
  move s x b :=
    if F.may s.2 x.2 s.1 x.1 then
      (P.move s.1 x.1 b).map fun o => o.map fun (t, ps) =>
        ((t, (F.next s.2 x.2 s.1 x.1 t ps).1), ps.map fun p => (p, (F.next s.2 x.2 s.1 x.1 t ps).2))
    else none

theorem map_fst_frame (ps : List π) (k : κ) (rest : Multiset (π × κ)) :
    (((ps.map fun p => (p, k) : List (π × κ)) : Multiset (π × κ)) + rest).map Prod.fst =
      ps + rest.map Prod.fst := by
  rw [Multiset.map_add, Multiset.map_coe, List.map_map]
  congr 1
  exact congrArg _ (List.map_id ps)

variable [DecidableEq π] [DecidableEq κ] {P : Program σ π ε β φ} {F : Framing σ π ε κ γ}

def forget (r : Except φ (Pool (σ × γ) (π × κ))) : Except φ (Pool σ π) :=
  r.map fun s => ⟨s.shared.1, s.active.map Prod.fst⟩

def forgetEvent : PoolEvent (π × κ) ε β → PoolEvent π ε β
  | .begin e => .begin e
  | .move x b => .move x.1 b

theorem forget_step {r t : Except φ (Pool (σ × γ) (π × κ))} {e : PoolEvent (π × κ) ε β}
    (h : (P.framed F).Step r e t) : P.Step (forget r) (forgetEvent e) (forget t) := by
  rcases step_cases h with ⟨s, ev, u, ps, rfl, rfl, hbegin, rfl⟩ |
    ⟨s, x, b, rest, o, rfl, rfl, hmove, rfl⟩
  · obtain ⟨⟨v, qs⟩, hP, heq⟩ := Option.map_eq_some_iff.mp hbegin
    cases heq
    have hP' : P.begin s.shared.1 ev = some (v, qs) := hP
    show P.next? (.ok ⟨s.shared.1, s.active.map Prod.fst⟩) (.begin ev) = _
    simp only [next?, hP', Option.map_some, forget, Except.map, map_fst_frame]
  · obtain ⟨-, hmove⟩ := Option.ite_none_right_eq_some.mp hmove
    obtain ⟨o', hP, rfl⟩ := Option.map_eq_some_iff.mp hmove
    show P.next? (.ok ⟨s.1, (x ::ₘ rest).map Prod.fst⟩) (.move x.1 b) = _
    have hmem : x.1 ∈ (x ::ₘ rest).map Prod.fst := by simp
    have herase : ((x ::ₘ rest).map Prod.fst).erase x.1 = rest.map Prod.fst := by simp
    simp only [next?, if_pos hmem, hP, Option.map_some, herase]
    cases o' with
    | error a => rfl
    | ok v => simp only [forget, Except.map, map_fst_frame]

/-- **Forgetting.** A run with frames is a run of the program. -/
theorem forget_run {r t : Except φ (Pool (σ × γ) (π × κ))} {es : List (PoolEvent (π × κ) ε β)}
    (h : Run (P.framed F).Step r es t) : Run P.Step (forget r) (es.map forgetEvent) (forget t) := by
  induction h with
  | nil s => exact .nil _
  | cons hstep _ ih => exact .cons (forget_step hstep) ih

end Program

end VmkDrivers.Lib
