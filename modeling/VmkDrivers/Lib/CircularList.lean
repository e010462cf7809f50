/-
  VmkDrivers.Lib.CircularList

  Circular doubly linked lists threaded through two link fields of the listed
  objects, with a head that is linked in but not listed.

  Objects and heads are named by addresses of an arbitrary type `α`.
  `Circular l head xs` states that following `next` from the head visits exactly
  the objects `xs` and comes back, and `prev` the other way round.  The rules
  say what initialising a head, adding behind the head and removing do to `xs`;
  the links determine it (`Circular.unique`).  Where the order is of no
  interest `Lists` has the objects as a set.
-/

import Mathlib

namespace VmkDrivers.Lib

variable {α : Type*}

structure Links (α : Type*) where
  next : α → α
  prev : α → α

namespace Links

section Operations

variable [DecidableEq α] (l : Links α)

def setNext (a b : α) : Links α := { l with next := Function.update l.next a b }

def setPrev (a b : α) : Links α := { l with prev := Function.update l.prev a b }

def init (a : α) : Links α := (l.setNext a a).setPrev a a

/-- Link `a` in between its new neighbours. -/
def insert (a p n : α) : Links α :=
  (((l.setPrev n a).setNext a n).setPrev a p).setNext p a

/-- Add `a` behind the head. -/
def add (a head : α) : Links α := l.insert a head (l.next head)

/-- Link the neighbours of `a` to each other. -/
def unlink (a : α) : Links α :=
  let p := l.prev a
  let n := l.next a
  (l.setPrev n p).setNext p n

/-- Remove `a`, which then is linked to itself. -/
def removeInit (a : α) : Links α := (l.unlink a).init a

end Operations

/-! ## Segments -/

/-- From `a` over `xs` to `b`. -/
def Seg (l : Links α) : α → List α → α → Prop
  | a, [], b => l.next a = b ∧ l.prev b = a
  | a, x :: xs, b => (l.next a = x ∧ l.prev x = a) ∧ l.Seg x xs b

variable {l m : Links α} {a b x : α} {xs ys : List α}

theorem Seg.congr (h : l.Seg a xs b) (hnext : ∀ c ∈ a :: xs, m.next c = l.next c)
    (hprev : ∀ c ∈ xs ++ [b], m.prev c = l.prev c) : m.Seg a xs b := by
  induction xs generalizing a with
  | nil => exact ⟨(hnext a (by simp)).trans h.1, (hprev b (by simp)).trans h.2⟩
  | cons x xs ih =>
    refine ⟨⟨(hnext a (by simp)).trans h.1.1, (hprev x (by simp)).trans h.1.2⟩, ?_⟩
    exact ih h.2 (fun c hc => hnext c (List.mem_cons_of_mem a hc))
      fun c hc => hprev c (List.mem_cons_of_mem x hc)

theorem seg_append : l.Seg a (xs ++ x :: ys) b ↔ l.Seg a xs x ∧ l.Seg x ys b := by
  induction xs generalizing a with
  | nil => exact Iff.rfl
  | cons y xs ih =>
    rw [List.cons_append]
    show _ ∧ l.Seg y (xs ++ x :: ys) b ↔ (_ ∧ l.Seg y xs x) ∧ _
    rw [ih]
    simp only [and_assoc]

theorem Seg.next_mem (h : l.Seg a xs b) : l.next a ∈ xs ++ [b] := by
  cases xs with
  | nil => simp [h.1]
  | cons x xs => simp [h.1.1]

theorem Seg.prev_mem (h : l.Seg a xs b) : l.prev b ∈ a :: xs := by
  induction xs generalizing a with
  | nil => simp [h.2]
  | cons x xs ih => exact List.mem_cons_of_mem a (ih h.2)

theorem Seg.unique (h : l.Seg a xs b) (h' : l.Seg a ys b) (hxs : b ∉ xs) (hys : b ∉ ys) :
    xs = ys := by
  induction xs generalizing a ys with
  | nil =>
    cases ys with
    | nil => rfl
    | cons y ys => exact absurd (h.1.symm.trans h'.1.1) (fun heq => hys (by simp [heq]))
  | cons x xs ih =>
    cases ys with
    | nil => exact absurd (h'.1.symm.trans h.1.1) (fun heq => hxs (by simp [heq]))
    | cons y ys =>
      obtain rfl : x = y := h.1.1.symm.trans h'.1.1
      rw [ih h.2 h'.2 (fun hb => hxs (by simp [hb])) fun hb => hys (by simp [hb])]

end Links

/-- The list of the head `a` has exactly the objects `xs`. -/
structure Circular (l : Links α) (a : α) (xs : List α) : Prop where
  nodup : (a :: xs).Nodup
  seg : l.Seg a xs a

namespace Circular

variable {l : Links α} {a x : α} {xs ys : List α}

theorem head_not_mem (h : Circular l a xs) : a ∉ xs := (List.nodup_cons.mp h.nodup).1

theorem unique (h : Circular l a xs) (h' : Circular l a ys) : xs = ys :=
  h.seg.unique h'.seg h.head_not_mem h'.head_not_mem

variable [DecidableEq α]

theorem init (l : Links α) (a : α) : Circular (l.init a) a [] := by
  refine ⟨List.nodup_singleton a, ?_, ?_⟩
  · exact Function.update_self ..
  · exact Function.update_self ..

/-- **Adding** an object puts it in front. -/
theorem add (h : Circular l a xs) (hx : x ∉ a :: xs) : Circular (l.add x a) a (x :: xs) := by
  have hxa : x ≠ a := fun heq => hx (by simp [heq])
  have hxs : x ∉ xs := fun hmem => hx (by simp [hmem])
  have haxs := h.head_not_mem
  have hnext : ∀ c, (l.add x a).next c = if c = a then x else if c = x then l.next a
      else l.next c := by
    intro c
    simp [Links.add, Links.insert, Links.setNext, Links.setPrev, Function.update_apply]
  have hprev : ∀ c, (l.add x a).prev c = if c = x then a else if c = l.next a then x
      else l.prev c := by
    intro c
    simp [Links.add, Links.insert, Links.setNext, Links.setPrev, Function.update_apply]
  refine ⟨?_, ⟨by rw [hnext, if_pos rfl], by rw [hprev, if_pos rfl]⟩, ?_⟩
  · have hnodup := h.nodup
    simp only [List.nodup_cons, List.mem_cons, not_or] at hnodup ⊢
    exact ⟨⟨Ne.symm hxa, haxs⟩, hxs, hnodup.2⟩
  · have hseg := h.seg
    -- the object behind the new one is the head or the first of the old ones
    cases xs with
    | nil => exact ⟨by rw [hnext, if_neg hxa, if_pos rfl, hseg.1],
        by rw [hprev, if_neg (Ne.symm hxa), if_pos hseg.1.symm]⟩
    | cons y ys =>
      obtain ⟨⟨hay, -⟩, hrest⟩ := hseg
      have hyx : y ≠ x := fun heq => hxs (by simp [heq])
      have hynodup : y ∉ ys := (List.nodup_cons.mp (List.nodup_cons.mp h.nodup).2).1
      have hya : a ≠ y := fun heq => haxs (by simp [heq])
      refine ⟨⟨by rw [hnext, if_neg hxa, if_pos rfl, hay],
        by rw [hprev, if_neg hyx, if_pos hay.symm]⟩, hrest.congr ?_ ?_⟩
      · intro c hc
        have hca : c ≠ a := fun heq => haxs (heq ▸ hc)
        have hcx : c ≠ x := fun heq => hxs (heq ▸ hc)
        rw [hnext, if_neg hca, if_neg hcx]
      · intro c hc
        have hcy : c ≠ y := by
          rintro rfl
          rcases List.mem_append.mp hc with hmem | hmem
          · exact hynodup hmem
          · exact hya (List.mem_singleton.mp hmem).symm
        have hcx : c ≠ x := by
          rintro rfl
          rcases List.mem_append.mp hc with hmem | hmem
          · exact hxs (by simp [hmem])
          · exact hxa (List.mem_singleton.mp hmem)
        rw [hprev, if_neg hcx, hay, if_neg hcy]

end Circular

namespace Links

variable [DecidableEq α] {l : Links α} {a b x : α} {xs ys : List α}

theorem Seg.unlink (h : l.Seg a (xs ++ x :: ys) b) (hnodup : (xs ++ x :: ys).Nodup)
    (ha : a ∉ xs ++ x :: ys) (hb : b ∉ xs ++ x :: ys) : (l.unlink x).Seg a (xs ++ ys) b := by
  have hnext : ∀ c, (l.unlink x).next c = if c = l.prev x then l.next x else l.next c := by
    intro c
    simp [Links.unlink, setNext, setPrev, Function.update_apply]
  have hprev : ∀ c, (l.unlink x).prev c = if c = l.next x then l.prev x else l.prev c := by
    intro c
    simp [Links.unlink, setNext, setPrev, Function.update_apply]
  induction xs generalizing a with
  | nil =>
    obtain ⟨⟨hax, hxa⟩, hrest⟩ := h
    cases ys with
    | nil => exact ⟨by rw [hnext, if_pos hxa.symm, hrest.1],
        by rw [hprev, if_pos hrest.1.symm, hxa]⟩
    | cons y ys =>
      obtain ⟨⟨hxy, -⟩, hrest⟩ := hrest
      have hy : y ∉ ys := (List.nodup_cons.mp (List.nodup_cons.mp hnodup).2).1
      refine ⟨⟨by rw [hnext, if_pos hxa.symm, hxy],
        by rw [hprev, if_pos hxy.symm, hxa]⟩, hrest.congr ?_ ?_⟩
      · intro c hc
        have hcp : c ≠ l.prev x := by
          rintro rfl
          rw [hxa] at hc
          exact ha (List.mem_cons_of_mem x hc)
        rw [hnext, if_neg hcp]
      · intro c hc
        have hcn : c ≠ l.next x := by
          rintro rfl
          rw [hxy] at hc
          rcases List.mem_append.mp hc with hmem | hmem
          · exact hy hmem
          · exact hb (by simp [List.mem_singleton.mp hmem])
        rw [hprev, if_neg hcn]
  | cons z zs ih =>
    obtain ⟨⟨haz, hza⟩, hrest⟩ := h
    obtain ⟨hz, hnodup'⟩ := List.nodup_cons.mp hnodup
    obtain ⟨hleft, hright⟩ := seg_append.mp hrest
    -- the neighbours of `x` are behind `a` and `z`
    have hap : a ≠ l.prev x := by
      rintro rfl
      have hmem := hleft.prev_mem
      exact ha (by simpa using Or.imp_right Or.inl (List.mem_cons.mp hmem))
    have hzn : z ≠ l.next x := by
      rintro rfl
      rcases List.mem_append.mp hright.next_mem with hmem | hmem
      · exact hz (by simp [hmem])
      · exact hb (by simp [List.mem_singleton.mp hmem])
    refine ⟨⟨by rw [hnext, if_neg hap, haz], by rw [hprev, if_neg hzn, hza]⟩, ?_⟩
    exact ih hrest hnodup' hz fun hmem => hb (List.mem_cons_of_mem z hmem)

end Links

namespace Circular

variable [DecidableEq α] {l : Links α} {a x : α} {xs ys : List α}

theorem init_of_not_mem (h : Circular l a xs) (hx : x ∉ a :: xs) : Circular (l.init x) a xs := by
  refine ⟨h.nodup, h.seg.congr ?_ ?_⟩
  · intro c hc
    have hcx : c ≠ x := by
      rintro rfl
      exact hx hc
    exact Function.update_of_ne hcx ..
  · intro c hc
    have hcx : c ≠ x := by
      rintro rfl
      exact hx (by simpa [or_comm] using hc)
    exact Function.update_of_ne hcx ..

/-- **Removing** an object takes it out of the list. -/
theorem removeInit (h : Circular l a xs) (hx : x ∈ xs) :
    Circular (l.removeInit x) a (xs.erase x) := by
  have hnodup := (List.nodup_cons.mp h.nodup).2
  have ha := h.head_not_mem
  have herase : a ∉ xs.erase x := fun hmem => ha (List.mem_of_mem_erase hmem)
  have hcirc : Circular (l.unlink x) a (xs.erase x) := by
    refine ⟨List.nodup_cons.mpr ⟨herase, hnodup.erase x⟩, ?_⟩
    obtain ⟨ys, zs, rfl⟩ := List.append_of_mem hx
    have hys : x ∉ ys := fun hmem => (List.nodup_append.mp hnodup).2.2 x hmem x (by simp) rfl
    rw [List.erase_append_right _ hys, List.erase_cons_head]
    exact h.seg.unlink hnodup ha ha
  refine hcirc.init_of_not_mem ?_
  rintro (_ | ⟨_, hmem⟩)
  · exact ha hx
  · exact ((hnodup.mem_erase_iff).mp hmem).1 rfl

end Circular

/-! ## Sets of objects -/

/-- The list of the head `a` is well formed and has exactly the objects of `L`. -/
def Lists (l : Links α) (a : α) (L : Set α) : Prop :=
  ∃ xs, Circular l a xs ∧ ∀ x, x ∈ xs ↔ x ∈ L

namespace Lists

variable {l : Links α} {a x : α} {L L' : Set α}

theorem unique (h : Lists l a L) (h' : Lists l a L') : L = L' := by
  obtain ⟨xs, hcirc, hmem⟩ := h
  obtain ⟨ys, hcirc', hmem'⟩ := h'
  obtain rfl := hcirc.unique hcirc'
  ext x
  rw [← hmem, hmem']

variable [DecidableEq α]

theorem init (l : Links α) (a : α) : Lists (l.init a) a ∅ :=
  ⟨[], .init l a, by simp⟩

theorem add (h : Lists l a L) (hx : x ∉ L) (hxa : x ≠ a) : Lists (l.add x a) a (insert x L) := by
  obtain ⟨xs, hcirc, hmem⟩ := h
  refine ⟨x :: xs, hcirc.add ?_, fun y => by simp [hmem, Set.mem_insert_iff]⟩
  rw [List.mem_cons, hmem]
  exact not_or.mpr ⟨hxa, hx⟩

theorem removeInit (h : Lists l a L) (hx : x ∈ L) : Lists (l.removeInit x) a (L \ {x}) := by
  obtain ⟨xs, hcirc, hmem⟩ := h
  refine ⟨xs.erase x, hcirc.removeInit ((hmem x).mpr hx), fun y => ?_⟩
  rw [(List.nodup_cons.mp hcirc.nodup).2.mem_erase_iff, hmem, and_comm]
  exact Iff.rfl

end Lists

end VmkDrivers.Lib
