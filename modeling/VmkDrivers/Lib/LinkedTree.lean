/-
  VmkDrivers.Lib.LinkedTree

  Trees whose nodes are kept apart, each with the list of its children.

  `LinkedTree live children root` says that the nodes that are `live` are those
  of a tree: every one descends from the root, and all but the root are in
  exactly one list.  A new leaf may be linked (`link`), and a node without
  children unlinked (`unlink`).
-/

import Mathlib

namespace VmkDrivers.Lib

variable {α : Type*} {live live' : α → Prop} {children children' : α → List α} {root p c n : α}

inductive Descends (children : α → List α) (root : α) : α → Prop
  | root : Descends children root root
  | child {p c : α} : Descends children root p → c ∈ children p → Descends children root c

structure LinkedTree (live : α → Prop) (children : α → List α) (root : α) : Prop where
  root_live : live root
  child_live : ∀ {p c}, live p → c ∈ children p → live c
  nodup : ∀ {p}, live p → (children p).Nodup
  sole : ∀ {p q c}, live p → live q → c ∈ children p → c ∈ children q → p = q
  not_root : ∀ {p}, live p → root ∉ children p
  descends : ∀ {n}, live n → Descends children root n

namespace LinkedTree

theorem live_of_descends (h : LinkedTree live children root) (hn : Descends children root n) :
    live n := by
  induction hn with
  | root => exact h.root_live
  | child _ hc ih => exact h.child_live ih hc

theorem existsUnique_parent (h : LinkedTree live children root) (hn : Descends children root n)
    (hne : n ≠ root) : ∃! p, Descends children root p ∧ n ∈ children p := by
  cases hn with
  | root => exact absurd rfl hne
  | @child p _ hp hc =>
    refine ⟨p, ⟨hp, hc⟩, fun q hq => ?_⟩
    exact h.sole (h.live_of_descends hq.1) (h.live_of_descends hp) hq.2 hc

theorem link [DecidableEq α] (h : LinkedTree live children root) (hp : live p) (hn : ¬live n)
    (hlive : ∀ a, live' a ↔ live a ∨ a = n)
    (hchildren : ∀ a, live a → children' a = if a = p then n :: children a else children a)
    (hleaf : children' n = []) : LinkedTree live' children' root := by
  have hsub : ∀ {a b}, live a → b ∈ children a → b ∈ children' a := fun {a b} ha hb => by
    rw [hchildren a ha]
    split
    · exact List.mem_cons_of_mem n hb
    · exact hb
  -- what is new in a list is the leaf, in that of its parent
  have hcases : ∀ {a b}, live' a → b ∈ children' a →
      live a ∧ ((a = p ∧ b = n) ∨ b ∈ children a) := fun {a b} ha hb => by
    rcases (hlive a).mp ha with hold | rfl
    · rw [hchildren a hold] at hb
      refine ⟨hold, ?_⟩
      split at hb
      · next heq => exact (List.mem_cons.mp hb).imp_left fun hbn => ⟨heq, hbn⟩
      · exact .inr hb
    · rw [hleaf] at hb
      cases hb
  have hdescends : ∀ {a}, Descends children root a → Descends children' root a := fun ha => by
    induction ha with
    | root => exact .root
    | child hb hc ih => exact .child ih (hsub (h.live_of_descends hb) hc)
  have hnot : ∀ {a}, live a → n ∉ children a := fun ha hmem => hn (h.child_live ha hmem)
  refine ⟨(hlive root).mpr (.inl h.root_live), fun ha hb => ?_, fun {a} ha => ?_,
    fun ha hb hc hd => ?_, fun ha hmem => ?_, fun {a} ha => ?_⟩
  · obtain ⟨hold, ⟨-, rfl⟩ | hb⟩ := hcases ha hb
    · exact (hlive _).mpr (.inr rfl)
    · exact (hlive _).mpr (.inl (h.child_live hold hb))
  · rcases (hlive a).mp ha with hold | rfl
    · rw [hchildren a hold]
      split
      · exact List.nodup_cons.mpr ⟨hnot hold, h.nodup hold⟩
      · exact h.nodup hold
    · rw [hleaf]
      exact List.nodup_nil
  · obtain ⟨hlivea, ⟨rfl, rfl⟩ | hca⟩ := hcases ha hc
    · obtain ⟨hliveb, ⟨rfl, -⟩ | hcb⟩ := hcases hb hd
      · rfl
      · exact absurd hcb (hnot hliveb)
    · obtain ⟨hliveb, ⟨rfl, rfl⟩ | hcb⟩ := hcases hb hd
      · exact absurd hca (hnot hlivea)
      · exact h.sole hlivea hliveb hca hcb
  · obtain ⟨hold, ⟨-, heq⟩ | hroot⟩ := hcases ha hmem
    · exact hn (heq ▸ h.root_live)
    · exact h.not_root hold hroot
  · rcases (hlive a).mp ha with hold | rfl
    · exact hdescends (h.descends hold)
    · refine .child (hdescends (h.descends hp)) ?_
      rw [hchildren p hp, if_pos rfl]
      exact List.mem_cons_self

theorem unlink [DecidableEq α] (h : LinkedTree live children root) (hroot : n ≠ root)
    (hleaf : children n = []) (hlive : ∀ a, live' a ↔ live a ∧ a ≠ n)
    (hchildren : ∀ a, live a → a ≠ n → children' a = (children a).erase n) :
    LinkedTree live' children' root := by
  have hold : ∀ {a b}, live' a → b ∈ children' a → live a ∧ b ∈ children a ∧ b ≠ n :=
    fun {a b} ha hb => by
      obtain ⟨hlivea, hne⟩ := (hlive a).mp ha
      rw [hchildren a hlivea hne] at hb
      obtain ⟨hbn, hb⟩ := (h.nodup hlivea).mem_erase_iff.mp hb
      exact ⟨hlivea, hb, hbn⟩
  -- no way leads through the leaf
  have hdescends : ∀ {a}, Descends children root a → a ≠ n → Descends children' root a :=
    fun ha => by
      induction ha with
      | root => exact fun _ => .root
      | @child q b hq hb ih =>
        intro hbn
        have hqn : q ≠ n := fun heq => by
          rw [heq, hleaf] at hb
          cases hb
        refine .child (ih hqn) ?_
        rw [hchildren q (h.live_of_descends hq) hqn]
        exact (List.mem_erase_of_ne hbn).mpr hb
  refine ⟨(hlive root).mpr ⟨h.root_live, hroot.symm⟩, fun ha hb => ?_, fun {a} ha => ?_,
    fun ha hb hc hd => ?_, fun ha hmem => ?_, fun {a} ha => ?_⟩
  · obtain ⟨hlivea, hmem, hbn⟩ := hold ha hb
    exact (hlive _).mpr ⟨h.child_live hlivea hmem, hbn⟩
  · obtain ⟨hlivea, hne⟩ := (hlive a).mp ha
    rw [hchildren a hlivea hne]
    exact (h.nodup hlivea).erase n
  · obtain ⟨hlivea, hca, -⟩ := hold ha hc
    obtain ⟨hliveb, hcb, -⟩ := hold hb hd
    exact h.sole hlivea hliveb hca hcb
  · obtain ⟨hlivea, hmem, -⟩ := hold ha hmem
    exact h.not_root hlivea hmem
  · obtain ⟨hlivea, hne⟩ := (hlive a).mp ha
    exact hdescends (h.descends hlivea) hne

end LinkedTree

end VmkDrivers.Lib
