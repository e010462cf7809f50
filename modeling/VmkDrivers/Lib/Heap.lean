/-
  VmkDrivers.Lib.Heap

  A heap of objects at numbered addresses.

  Addresses are handed out in order and never twice, so that a pointer to a
  released object stays recognisable: it names an address with no object.
-/

import Mathlib

namespace VmkDrivers.Lib

structure Heap (α : Type*) where
  obj : Nat → Option α
  next : Nat
  fresh : ∀ a, next ≤ a → obj a = none

namespace Heap

variable {α : Type*} {h : Heap α} {a b : Nat} {x y : α}

def empty : Heap α := ⟨fun _ => none, 0, fun _ _ => rfl⟩

theorem lt_next (hx : h.obj a = some x) : a < h.next := by
  by_contra hle
  rw [h.fresh a (Nat.le_of_not_lt hle)] at hx
  cases hx

/-- A new object at `next`. -/
def alloc (h : Heap α) (x : α) : Heap α where
  obj := Function.update h.obj h.next (some x)
  next := h.next + 1
  fresh a hle := by
    rw [Function.update_of_ne (by omega)]
    exact h.fresh a (by omega)

@[simp] theorem alloc_obj_next (h : Heap α) (x : α) : (h.alloc x).obj h.next = some x :=
  Function.update_self ..

theorem alloc_obj_iff : (h.alloc x).obj a = some y ↔ (a = h.next ∧ y = x) ∨ h.obj a = some y := by
  by_cases ha : a = h.next
  · subst ha
    simp [h.fresh h.next (Nat.le_refl _), eq_comm]
  · simp [alloc, ha]

theorem alloc_obj_of_some (x : α) (hy : h.obj a = some y) : (h.alloc x).obj a = some y :=
  alloc_obj_iff.mpr (.inr hy)

/-- The object at `a` is released. -/
def release (h : Heap α) (a : Nat) : Heap α where
  obj := Function.update h.obj a none
  next := h.next
  fresh b hle := by
    by_cases hb : b = a
    · rw [hb, Function.update_self]
    · rw [Function.update_of_ne hb]
      exact h.fresh b hle

@[simp] theorem release_obj_self (h : Heap α) (a : Nat) : (h.release a).obj a = none :=
  Function.update_self ..

theorem release_obj_of_ne (hb : b ≠ a) : (h.release a).obj b = h.obj b :=
  Function.update_of_ne hb ..

/-- The object at `a` is changed, if there is one. -/
def modify (h : Heap α) (a : Nat) (f : α → α) : Heap α where
  obj := Function.update h.obj a ((h.obj a).map f)
  next := h.next
  fresh b hle := by
    by_cases hb : b = a
    · rw [hb] at hle ⊢
      rw [Function.update_self, h.fresh a hle, Option.map_none]
    · rw [Function.update_of_ne hb]
      exact h.fresh b hle

@[simp] theorem modify_obj_self (h : Heap α) (a : Nat) (f : α → α) :
    (h.modify a f).obj a = (h.obj a).map f :=
  Function.update_self ..

theorem modify_obj_of_ne {f : α → α} (hb : b ≠ a) : (h.modify a f).obj b = h.obj b :=
  Function.update_of_ne hb ..

end Heap

end VmkDrivers.Lib
