/-
  VmkDrivers.Lib.Paging

  A list read page by page.

  The reader keeps a cursor: it asks for the elements from a position on, moves
  the cursor by the number it has got, and stops at the first empty page.  The
  pages are cut off after `n` elements.  The reader then gets the whole list,
  each element once and in order (`readPages_spec`), whatever else the answers
  hold.
-/

import VmkDrivers.Lib.ExceptLoop

namespace VmkDrivers.Lib

universe u v

variable {ε : Type u} {β : Type v} {α : Type*}

/-- At most `n` of the elements from position `start` on. -/
def page (n : Nat) (xs : List α) (start : Nat) : List α := (xs.drop start).take n

theorem length_page_le (n : Nat) (xs : List α) (start : Nat) :
    (page n xs start).length ≤ xs.length - start := by
  rw [page, List.length_take, List.length_drop]
  omega

theorem page_eq_nil_iff {n : Nat} (hn : 0 < n) {xs : List α} {start : Nat} :
    page n xs start = [] ↔ xs.length ≤ start := by
  rw [page, List.take_eq_nil_iff, List.drop_eq_nil_iff]
  omega

theorem page_append_drop (n : Nat) (xs : List α) (start : Nat) :
    page n xs start ++ xs.drop (start + (page n xs start).length) = xs.drop start := by
  have hrest : xs.drop (start + (page n xs start).length) = (xs.drop start).drop n := by
    rw [page, List.length_take, List.length_drop, List.drop_drop]
    by_cases hle : n ≤ xs.length - start
    · rw [Nat.min_eq_left hle]
    · rw [List.drop_eq_nil_of_le (by omega), List.drop_eq_nil_of_le (by omega)]
  rw [hrest]
  exact List.take_append_drop n (xs.drop start)

/-- Ask for page after page; `read k start` is the answer to the `k`-th request, and `out` means
    that there was no end after all the turns. -/
def readPages (read : Nat → Nat → Except ε (List β)) (out : ε) :
    (turns k start : Nat) → Except ε (List β)
  | 0, _, _ => .error out
  | turns + 1, k, start => do
    let ys ← read k start
    if ys.isEmpty then pure []
    else do
      let rest ← readPages read out turns (k + 1) (start + ys.length)
      pure (ys ++ rest)

/-- **Reading page by page** ends with the whole list, if the pages are what `f` shows of the
    answers. -/
theorem readPages_spec {read : Nat → Nat → Except ε (List β)} {out : ε} {f : β → α} {n : Nat}
    {xs : List α} (hn : 0 < n)
    (hread : ∀ k start, start ≤ xs.length →
      ∃ ys, read k start = .ok ys ∧ ys.map f = page n xs start)
    {turns k start : Nat} (hstart : start ≤ xs.length) (hturns : xs.length - start < turns) :
    ∃ zs, readPages read out turns k start = .ok zs ∧ zs.map f = xs.drop start := by
  induction turns generalizing k start with
  | zero => omega
  | succ turns ih =>
    obtain ⟨ys, hys, hpage⟩ := hread k start hstart
    rw [readPages, hys, ok_bind]
    have hlen : ys.length = (page n xs start).length := by rw [← hpage, List.length_map]
    by_cases hend : ys = []
    · rw [hend]
      refine ⟨[], rfl, ?_⟩
      rw [hend, List.map_nil] at hpage
      rw [List.map_nil, List.drop_eq_nil_of_le ((page_eq_nil_iff hn).mp hpage.symm)]
    · -- the cursor moves on, but not beyond the end
      have hpos : 0 < ys.length := List.length_pos_iff.mpr hend
      have hle := length_page_le n xs start
      have hnext : start + ys.length ≤ xs.length := by omega
      obtain ⟨rest, hrest, hmap⟩ := ih (k := k + 1) hnext (by omega)
      rw [if_neg (by rwa [List.isEmpty_iff]), hrest]
      refine ⟨ys ++ rest, rfl, ?_⟩
      rw [List.map_append, hpage, hmap, hlen, page_append_drop]

end VmkDrivers.Lib
