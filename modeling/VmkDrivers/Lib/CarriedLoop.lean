/-
  VmkDrivers.Lib.CarriedLoop

  Loops over a list whose local variables live across the turns.

  A turn gives a result for its element and leaves the variables for the next one
  (`carryLoop`).  The result for an element is that of its turn with what the elements
  before it have left (`getElem?_carryLoop`).
-/

import Mathlib

namespace VmkDrivers.Lib

variable {ρ α β : Type*} (turn : ρ → α → ρ × β)

def carryLoop : ρ → List α → List β
  | _, [] => []
  | r, a :: l => (turn r a).2 :: carryLoop (turn r a).1 l

def carried (r : ρ) (l : List α) : ρ := l.foldl (fun r a => (turn r a).1) r

variable {turn} {r : ρ} {a : α} {pre post : List α}

@[simp] theorem length_carryLoop (l : List α) : (carryLoop turn r l).length = l.length := by
  induction l generalizing r with
  | nil => rfl
  | cons a l ih => rw [carryLoop, List.length_cons, ih, List.length_cons]

theorem carryLoop_append :
    carryLoop turn r (pre ++ post) =
      carryLoop turn r pre ++ carryLoop turn (carried turn r pre) post := by
  induction pre generalizing r with
  | nil => rfl
  | cons a pre ih =>
    rw [List.cons_append, carryLoop, ih]
    rfl

/-- **The result for an element**. -/
theorem getElem?_carryLoop :
    (carryLoop turn r (pre ++ a :: post))[pre.length]? = some (turn (carried turn r pre) a).2 := by
  rw [carryLoop_append, List.getElem?_append_right (Nat.le_of_eq (length_carryLoop pre)),
    length_carryLoop, Nat.sub_self]
  rfl

end VmkDrivers.Lib
