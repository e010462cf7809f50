/-
  VmkDrivers.Lib.Custody

  Who has to give back an object, told from what is done to it.

  A trace names the objects that are acquired, used and released.  It is in
  order if each object it names is acquired, used a number of times, and
  released, once and in that order (`ReleasedOnce`).  The life of an object runs
  through four states, which a trace can be followed through from the front
  (`life_append`); in an orderly trace it ends as it should for each object
  (`releasedOnce_iff`).
-/

import Mathlib

namespace VmkDrivers.Lib

inductive Handling where
  | acquire
  | use
  | release
deriving DecidableEq, Repr

/-- Where the life of an object is; `broken` after something out of turn. -/
inductive Life where
  | absent
  | live
  | released
  | broken
deriving DecidableEq, Repr

namespace Life

def step : Life → Handling → Life
  | absent, .acquire => live
  | live, .use => live
  | live, .release => released
  | _, _ => broken

def Over : Life → Prop
  | absent => True
  | released => True
  | _ => False

instance : DecidablePred Over
  | absent => .isTrue trivial
  | live => .isFalse id
  | released => .isTrue trivial
  | broken => .isFalse id

end Life

variable {ι : Type*} [DecidableEq ι]

/-- What a trace does to the object `x`. -/
def handlings (x : ι) (es : List (ι × Handling)) : List Handling :=
  (es.filter fun e => e.1 = x).map Prod.snd

/-- Each object is acquired, used and released once, or not named at all. -/
def ReleasedOnce (es : List (ι × Handling)) : Prop :=
  ∀ x, handlings x es = [] ∨
    ∃ n, handlings x es = .acquire :: (List.replicate n .use ++ [.release])

/-- The life of the object `x` after a trace. -/
def life (x : ι) (es : List (ι × Handling)) : Life := (handlings x es).foldl Life.step .absent

variable {x y : ι} {es fs : List (ι × Handling)} {hs : List Handling}

theorem handlings_append (x : ι) (es fs : List (ι × Handling)) :
    handlings x (es ++ fs) = handlings x es ++ handlings x fs := by
  simp only [handlings, List.filter_append, List.map_append]

@[simp] theorem life_concat_self (x : ι) (es : List (ι × Handling)) (h : Handling) :
    life x (es ++ [(x, h)]) = (life x es).step h := by
  have hone : handlings x [(x, h)] = [h] := by simp [handlings]
  rw [life, handlings_append, hone, List.foldl_append]
  rfl

theorem life_concat_of_ne (hne : y ≠ x) (es : List (ι × Handling)) (h : Handling) :
    life x (es ++ [(y, h)]) = life x es := by
  have hnone : handlings x [(y, h)] = [] := by simp [handlings, hne]
  rw [life, handlings_append, hnone, List.append_nil]
  rfl

/-! ## What the end of a life says -/

theorem foldl_broken (hs : List Handling) : hs.foldl Life.step .broken = .broken := by
  induction hs with
  | nil => rfl
  | cons h hs ih =>
    rw [List.foldl_cons]
    exact ih

theorem foldl_released : (hs.foldl Life.step .released).Over ↔ hs = [] := by
  cases hs with
  | nil => exact iff_of_true trivial rfl
  | cons h hs =>
    have hstep : Life.step .released h = .broken := by cases h <;> rfl
    rw [List.foldl_cons, hstep, foldl_broken]
    exact iff_of_false id (List.cons_ne_nil h hs)

theorem foldl_live :
    (hs.foldl Life.step .live).Over ↔ ∃ n, hs = List.replicate n .use ++ [.release] := by
  induction hs with
  | nil =>
    refine iff_of_false id ?_
    rintro ⟨n, h⟩
    exact List.append_ne_nil_of_right_ne_nil _ (List.cons_ne_nil _ _) h.symm
  | cons h hs ih =>
    rw [List.foldl_cons]
    cases h with
    | acquire =>
      rw [show Life.step .live .acquire = .broken from rfl, foldl_broken]
      refine iff_of_false id ?_
      rintro ⟨n, h⟩
      cases n <;> cases h
    | use =>
      rw [show Life.step .live .use = .live from rfl, ih]
      constructor
      · rintro ⟨n, rfl⟩
        exact ⟨n + 1, rfl⟩
      · rintro ⟨n, h⟩
        cases n with
        | zero => cases h
        | succ n => exact ⟨n, (List.cons.inj h).2⟩
    | release =>
      rw [show Life.step .live .release = .released from rfl, foldl_released]
      constructor
      · rintro rfl
        exact ⟨0, rfl⟩
      · rintro ⟨n, h⟩
        cases n with
        | zero => exact (List.cons.inj h).2
        | succ n => cases h

/-- **A trace is in order** exactly if the life of no object is left open or broken. -/
theorem releasedOnce_iff : ReleasedOnce es ↔ ∀ x, (life x es).Over := by
  refine forall_congr' fun x => ?_
  unfold life
  cases handlings x es with
  | nil => exact iff_of_true (.inl rfl) trivial
  | cons h hs =>
    rw [or_iff_right (List.cons_ne_nil h hs), List.foldl_cons]
    cases h with
    | acquire =>
      rw [show Life.step .absent .acquire = .live from rfl, foldl_live]
      refine exists_congr fun n => ⟨fun h => (List.cons.inj h).2, fun h => by rw [h]⟩
    | use =>
      rw [show Life.step .absent .use = .broken from rfl, foldl_broken]
      refine iff_of_false ?_ id
      rintro ⟨n, h⟩
      cases h
    | release =>
      rw [show Life.step .absent .release = .broken from rfl, foldl_broken]
      refine iff_of_false ?_ id
      rintro ⟨n, h⟩
      cases h

end VmkDrivers.Lib
