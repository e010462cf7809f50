/-
  VmkDrivers.Lib.IntrusiveQueue

  Singly linked FIFO queues threaded through a link field of the queued
  objects themselves, kept by a head and a tail pointer.

  Objects are named by addresses of an arbitrary type `α` and the link field
  is a function `next : α → Option α`, `none` being the null pointer.
  `IsQueue next head tail l` states that the queue holds exactly the
  objects `l`, in this order; it is well formed in that the tail is the last
  object and both ends are null exactly when the queue is empty.  The rules
  say what a push at the tail, a pop at the head and a write to an object
  outside the queue do to `l`.
-/

import Mathlib

namespace VmkDrivers.Lib

variable {α : Type*} {next : α → Option α} {p : Option α} {l : List α}

/-- Following `next` from `p` visits exactly `l` and then meets the null pointer. -/
def Chain (next : α → Option α) : Option α → List α → Prop
  | p, [] => p = none
  | p, a :: l => p = some a ∧ Chain next (next a) l

/-- The queue with ends `head` and `tail` holds exactly `l`. -/
structure IsQueue (next : α → Option α) (head tail : Option α) (l : List α) : Prop where
  chain : Chain next head l
  tail_eq : tail = l.getLast?
  nodup : l.Nodup

/-- The link fields after appending `a`: its own link is nulled and the old last
    object, if there is one, points to it. -/
def pushNext [DecidableEq α] (next : α → Option α) (tail : Option α) (a : α) : α → Option α :=
  match tail with
  | some t => Function.update (Function.update next a none) t (some a)
  | none => Function.update next a none

/-- The head after appending `a`: unchanged unless the queue was empty. -/
def pushHead (head tail : Option α) (a : α) : Option α :=
  match tail with
  | some _ => head
  | none => some a

theorem pushNext_of_ne [DecidableEq α] {next : α → Option α} {tail : Option α} {a b : α}
    (ha : b ≠ a) (ht : tail ≠ some b) : pushNext next tail a b = next b := by
  cases tail with
  | none => exact Function.update_of_ne ha _ _
  | some t =>
    have hbt : b ≠ t := fun hbt => ht (by rw [hbt])
    simp [pushNext, Function.update_of_ne hbt, Function.update_of_ne ha]

/-! ## Chains -/

@[simp] theorem chain_nil : Chain next p [] ↔ p = none := Iff.rfl

@[simp] theorem chain_cons {a : α} :
    Chain next p (a :: l) ↔ p = some a ∧ Chain next (next a) l := Iff.rfl

theorem Chain.congr {next' : α → Option α} (h : Chain next p l) (heq : ∀ a ∈ l, next' a = next a) :
    Chain next' p l := by
  induction l generalizing p with
  | nil => exact h
  | cons a l ih =>
    refine ⟨h.1, ?_⟩
    rw [heq a (by simp)]
    exact ih h.2 (fun b hb => heq b (by simp [hb]))

theorem Chain.head_eq (h : Chain next p l) : p = l.head? := by
  cases l with
  | nil => exact h
  | cons a l => exact h.1

theorem Chain.unique {l' : List α} (h : Chain next p l) (h' : Chain next p l') : l = l' := by
  induction l generalizing p l' with
  | nil =>
    cases l' with
    | nil => rfl
    | cons b l' =>
      have hp : p = none := h
      rw [hp] at h'
      exact absurd h'.1 (by simp)
  | cons a l ih =>
    cases l' with
    | nil =>
      have hp : p = none := h'
      rw [hp] at h
      exact absurd h.1 (by simp)
    | cons b l' =>
      have hab : a = b := Option.some.inj (h.1.symm.trans h'.1)
      subst hab
      rw [ih h.2 h'.2]

theorem Chain.snoc [DecidableEq α] {next : α → Option α} {p : Option α} {l : List α} {t a : α}
    (h : Chain next p l) (hnd : l.Nodup) (ht : l.getLast? = some t) (ha : a ∉ l) :
    Chain (Function.update (Function.update next a none) t (some a)) p (l ++ [a]) := by
  induction l generalizing p with
  | nil => simp at ht
  | cons b l ih =>
    have hba : b ≠ a := by
      intro hba
      exact ha (by simp [hba])
    refine ⟨h.1, ?_⟩
    cases l with
    | nil =>
      simp only [List.getLast?_singleton, Option.some.injEq] at ht
      subst ht
      have hab : a ≠ b := fun hab => hba hab.symm
      simp [Chain, Function.update_of_ne hab]
    | cons c l =>
      have hbt : b ≠ t := by
        have hmem : t ∈ c :: l := List.mem_of_getLast? (by simpa using ht)
        intro hbt
        rw [hbt] at hnd
        exact (List.nodup_cons.mp hnd).1 hmem
      rw [Function.update_of_ne hbt, Function.update_of_ne hba]
      exact ih h.2 (List.nodup_cons.mp hnd).2 (by simpa using ht)
        (fun hmem => ha (by simp [hmem]))

/-! ## Queues -/

namespace IsQueue

variable {next : α → Option α} {head tail : Option α} {l : List α}

theorem nil (next : α → Option α) : IsQueue next none none [] :=
  ⟨rfl, rfl, List.nodup_nil⟩

theorem head_eq (h : IsQueue next head tail l) : head = l.head? := h.chain.head_eq

theorem head_eq_none_iff (h : IsQueue next head tail l) : head = none ↔ l = [] := by
  rw [h.head_eq, List.head?_eq_none_iff]

theorem tail_eq_none_iff (h : IsQueue next head tail l) : tail = none ↔ l = [] := by
  rw [h.tail_eq, List.getLast?_eq_none_iff]

/-- **Frame rule.** Writes to objects outside the queue do not change it. -/
theorem congr {next' : α → Option α} (h : IsQueue next head tail l)
    (heq : ∀ a ∈ l, next' a = next a) : IsQueue next' head tail l :=
  ⟨h.chain.congr heq, h.tail_eq, h.nodup⟩

/-- **Push.** The queue after `pushNext` and `pushHead`, with `a` as the new tail. -/
theorem push [DecidableEq α] (h : IsQueue next head tail l) {a : α} (ha : a ∉ l) :
    IsQueue (pushNext next tail a) (pushHead head tail a) (some a) (l ++ [a]) := by
  have hnd : (l ++ [a]).Nodup := by
    rw [List.nodup_append]
    refine ⟨h.nodup, by simp, ?_⟩
    intro b hb c hc
    rw [List.mem_singleton.mp hc]
    exact fun hba => ha (hba ▸ hb)
  cases tail with
  | none =>
    have hl : l = [] := h.tail_eq_none_iff.mp rfl
    subst hl
    exact ⟨by simp [pushNext, pushHead], by simp, hnd⟩
  | some t => exact ⟨h.chain.snoc h.nodup h.tail_eq.symm ha, by simp, hnd⟩

/-- **Pop.** The head moves to its successor, and the tail is cleared when that is null. -/
theorem pop {a : α} (h : IsQueue next head tail (a :: l)) :
    IsQueue next (next a) (if next a = none then none else tail) l := by
  refine ⟨h.chain.2, ?_, (List.nodup_cons.mp h.nodup).2⟩
  have hnext : next a = l.head? := Chain.head_eq h.chain.2
  cases l with
  | nil => simp [hnext]
  | cons b l => simp [hnext, h.tail_eq]

end IsQueue

end VmkDrivers.Lib
