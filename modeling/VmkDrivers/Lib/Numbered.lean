/-
  VmkDrivers.Lib.Numbered

  Queues whose entries are numbered one after the other.

  `Numbered P k q` says that the entries of `q` are the `k`-th, the next one
  and so on of a sequence of messages, `P i` being what the `i`-th message
  looks like.  A first-in first-out channel keeps it: a message is put at the
  end (`Numbered.snoc`) and taken from the front (`numbered_cons`).
-/

import Mathlib

namespace VmkDrivers.Lib

variable {α : Type*} {P Q : Nat → α → Prop} {q : List α}

/-- The entries of `q` are the messages `k`, `k + 1` and so on. -/
def Numbered (P : Nat → α → Prop) : (k : Nat) → (q : List α) → Prop
  | _, [] => True
  | k, x :: q => P k x ∧ Numbered P (k + 1) q

theorem numbered_nil (k : Nat) : Numbered P k [] := trivial

theorem numbered_cons {k : Nat} {x : α} :
    Numbered P k (x :: q) ↔ P k x ∧ Numbered P (k + 1) q := Iff.rfl

theorem Numbered.snoc {k : Nat} (h : Numbered P k q) {x : α} (hx : P (k + q.length) x) :
    Numbered P k (q ++ [x]) := by
  induction q generalizing k with
  | nil => exact ⟨hx, trivial⟩
  | cons y q ih =>
    refine ⟨h.1, ih h.2 ?_⟩
    have hindex : k + 1 + q.length = k + (y :: q).length := by
      rw [List.length_cons]
      omega
    exact hindex ▸ hx

end VmkDrivers.Lib
