/-
  VmkDrivers.Lib.SearchTree

  Binary search trees over nodes of an arbitrary type, as a red-black tree
  library with user-supplied comparisons exposes them: the user walks down
  the tree with a comparison of its own, links a new node at the empty
  position it reached and calls the library to recolour.

  A comparison with a fixed key is a function `cmp : α → Int` on nodes
  (negative: the key is smaller than the node's, go left).  It fits a node
  order `lt` when it never grows along it (`IsCut`).  On a tree whose in-order
  sequence is `lt`-increasing, `search` is then `List.find?` on that sequence
  and `descend` places the new node at its sorted position.

  The rebalancing of the library is a parameter, `Balancer`: any pair of
  functions that keep the in-order sequence.
-/

import Mathlib

namespace VmkDrivers.Lib

inductive Tree (α : Type) where
  | nil
  | node (l : Tree α) (a : α) (r : Tree α)
deriving Repr, DecidableEq

namespace Tree

variable {α : Type}

def inorder : Tree α → List α
  | .nil => []
  | .node l a r => l.inorder ++ a :: r.inorder

def last : Tree α → Option α
  | .nil => none
  | .node _ a .nil => some a
  | .node _ _ r => r.last

def search (cmp : α → Int) : Tree α → Option α
  | .nil => none
  | .node l a r =>
    if cmp a < 0 then l.search cmp
    else if 0 < cmp a then r.search cmp
    else some a

/-- Walk down like `search`; at the empty position link the new node `n`.  The
    result is the equal node met on the way, or the tree with `n` linked. -/
def descend (cmp : α → Int) (n : α) : Tree α → α ⊕ Tree α
  | .nil => .inr (.node .nil n .nil)
  | .node l a r =>
    if cmp a < 0 then (l.descend cmp n).map id (fun l' => .node l' a r)
    else if 0 < cmp a then (r.descend cmp n).map id (fun r' => .node l a r')
    else .inl a

@[simp] theorem inorder_nil : (nil : Tree α).inorder = [] := rfl

@[simp] theorem inorder_node (l : Tree α) (a : α) (r : Tree α) :
    (node l a r).inorder = l.inorder ++ a :: r.inorder := rfl

theorem last_eq (t : Tree α) : t.last = t.inorder.getLast? := by
  fun_induction last t with
  | case1 => rfl
  | case2 => simp
  | case3 l a r hr ih =>
    cases r with
    | nil => exact absurd rfl hr
    | node => simp [ih, List.getLast?_append, List.getLast?_cons]

/-! ## Search -/

def IsCut (lt : α → α → Prop) (cmp : α → Int) : Prop :=
  ∀ a b, lt a b → cmp a ≤ 0 → cmp b < 0

section Cut

variable {lt : α → α → Prop} {cmp : α → Int} {a : α} {t : Tree α}

theorem IsCut.right_neg (hcut : IsCut lt cmp) {r : List α} (h : ∀ b ∈ r, lt a b) (ha : cmp a ≤ 0) :
    ∀ b ∈ r, cmp b < 0 :=
  fun b hb => hcut a b (h b hb) ha

theorem IsCut.left_pos (hcut : IsCut lt cmp) {l : List α} (h : ∀ b ∈ l, lt b a) (ha : 0 ≤ cmp a) :
    ∀ b ∈ l, 0 < cmp b := by
  intro b hb
  by_contra hle
  have := hcut b a (h b hb) (by omega)
  omega

theorem pairwise_node {l r : Tree α} (h : (node l a r).inorder.Pairwise lt) :
    l.inorder.Pairwise lt ∧ r.inorder.Pairwise lt ∧
      (∀ b ∈ l.inorder, lt b a) ∧ (∀ b ∈ r.inorder, lt a b) := by
  rw [inorder_node, List.pairwise_append, List.pairwise_cons] at h
  obtain ⟨hl, ⟨har, hr⟩, hla⟩ := h
  exact ⟨hl, hr, fun b hb => hla b hb a (by simp), har⟩

/-- **Search is `find?`.** In a sorted tree the walk finds the node that compares equal. -/
theorem search_eq_find? (hcut : IsCut lt cmp) (hs : t.inorder.Pairwise lt) :
    t.search cmp = t.inorder.find? (fun a => cmp a = 0) := by
  induction t with
  | nil => rfl
  | node l a r ihl ihr =>
    obtain ⟨hl, hr, hla, har⟩ := pairwise_node hs
    simp only [search, inorder_node, List.find?_append]
    split
    · next hneg =>
      have hnone : (a :: r.inorder).find? (fun b => cmp b = 0) = none := by
        rw [List.find?_eq_none]
        intro b hb
        rcases List.mem_cons.mp hb with rfl | hb
        · simp only [decide_eq_true_eq]; omega
        · have := hcut.right_neg har (by omega) b hb
          simp only [decide_eq_true_eq]; omega
      rw [ihl hl, hnone, Option.or_none]
    · next hneg =>
      have hnone : l.inorder.find? (fun b => cmp b = 0) = none := by
        rw [List.find?_eq_none]
        intro b hb
        have := hcut.left_pos hla (by omega) b hb
        simp only [decide_eq_true_eq]; omega
      rw [hnone, Option.none_or]
      split
      · next hpos => rw [ihr hr, List.find?_cons_of_neg (by simp only [decide_eq_true_eq]; omega)]
      · next hpos => rw [List.find?_cons_of_pos (by simp only [decide_eq_true_eq]; omega)]

theorem search_of_descend_inl {n : α} (h : t.descend cmp n = .inl a) : t.search cmp = some a := by
  induction t with
  | nil => simp [descend] at h
  | node l b r ihl ihr =>
    simp only [descend] at h
    simp only [search]
    split at h
    · next hneg =>
      rw [if_pos hneg]
      cases hd : l.descend cmp n with
      | inl c =>
        rw [hd] at h
        exact ihl (h ▸ hd)
      | inr l' => rw [hd] at h; simp at h
    · next hneg =>
      rw [if_neg hneg]
      split at h
      · next hpos =>
        rw [if_pos hpos]
        cases hd : r.descend cmp n with
        | inl c =>
          rw [hd] at h
          exact ihr (h ▸ hd)
        | inr r' => rw [hd] at h; simp at h
      · next hpos =>
        rw [if_neg hpos]
        simpa using h

/-- **Insertion point.** A linked node stands between the nodes that compare below
    its key and the nodes that compare above it. -/
theorem inorder_of_descend_inr (hcut : IsCut lt cmp) {n : α} {t' : Tree α}
    (hs : t.inorder.Pairwise lt) (h : t.descend cmp n = .inr t') :
    ∃ l r, t.inorder = l ++ r ∧ t'.inorder = l ++ n :: r ∧
      (∀ b ∈ l, 0 < cmp b) ∧ (∀ b ∈ r, cmp b < 0) := by
  induction t generalizing t' with
  | nil =>
    simp only [descend, Sum.inr.injEq] at h
    subst h
    exact ⟨[], [], rfl, rfl, by simp, by simp⟩
  | node tl a tr ihl ihr =>
    obtain ⟨hl, hr, hla, har⟩ := pairwise_node hs
    simp only [descend] at h
    split at h
    · next hneg =>
      cases hd : tl.descend cmp n with
      | inl c => rw [hd] at h; simp at h
      | inr l' =>
        rw [hd] at h
        simp only [Sum.map_inr, Sum.inr.injEq] at h
        subst h
        obtain ⟨x, y, hxy, hxny, hx, hy⟩ := ihl hl hd
        refine ⟨x, y ++ a :: tr.inorder, by simp [hxy], by simp [hxny], hx, ?_⟩
        intro b hb
        rcases List.mem_append.mp hb with hb | hb
        · exact hy b hb
        · rcases List.mem_cons.mp hb with rfl | hb
          · exact hneg
          · exact hcut.right_neg har (by omega) b hb
    · next hneg =>
      split at h
      · next hpos =>
        cases hd : tr.descend cmp n with
        | inl c => rw [hd] at h; simp at h
        | inr r' =>
          rw [hd] at h
          simp only [Sum.map_inr, Sum.inr.injEq] at h
          subst h
          obtain ⟨x, y, hxy, hxny, hx, hy⟩ := ihr hr hd
          refine ⟨tl.inorder ++ a :: x, y, by simp [hxy], by simp [hxny], ?_, hy⟩
          intro b hb
          rcases List.mem_append.mp hb with hb | hb
          · exact hcut.left_pos hla (by omega) b hb
          · rcases List.mem_cons.mp hb with rfl | hb
            · exact hpos
            · exact hx b hb
      · next hpos => simp at h

end Cut

end Tree

def Tree.spine : List α → Tree α
  | [] => .nil
  | a :: as => .node .nil a (.spine as)

theorem Tree.inorder_spine (l : List α) : (Tree.spine l).inorder = l := by
  induction l with
  | nil => rfl
  | cons a as ih => rw [spine, inorder, ih, inorder, List.nil_append]

/-! ## The rebalancing library -/

/-- The two rebalancing entry points of a red-black tree library.  `insertColor n t`
    is called after node `n` was linked into `t`, `erase n t` unlinks node `n`;
    both may restructure the tree as long as the in-order sequence is kept. -/
structure Balancer (α : Type) [DecidableEq α] where
  insertColor : α → Tree α → Tree α
  erase : α → Tree α → Tree α
  insertColor_inorder : ∀ n t, (insertColor n t).inorder = t.inorder
  erase_inorder : ∀ n t, n ∈ t.inorder → t.inorder.Nodup →
    (erase n t).inorder = t.inorder.erase n

namespace Balancer

variable {α : Type} [DecidableEq α] (rb : Balancer α)

theorem erase_last {t : Tree α} {n : α} (hlast : t.last = some n) (hnd : t.inorder.Nodup) :
    (rb.erase n t).inorder = t.inorder.dropLast := by
  rw [Tree.last_eq] at hlast
  rw [rb.erase_inorder n t (List.mem_of_getLast? hlast) hnd]
  obtain ⟨l, hl⟩ := List.getLast?_eq_some_iff.mp hlast
  rw [hl, List.dropLast_concat]
  rw [hl, List.nodup_append] at hnd
  have hn : n ∉ l := fun hmem => hnd.2.2 n hmem n (by simp) rfl
  rw [List.erase_append_right _ hn]
  simp

def plain : Balancer α where
  insertColor _ t := t
  erase n t := .spine (t.inorder.erase n)
  insertColor_inorder _ _ := rfl
  erase_inorder _ _ _ _ := Tree.inorder_spine _

end Balancer

end VmkDrivers.Lib
