/-
  VmkDrivers.Lib.RingLog

  A ring of slots that keeps the latest entries of a log.

  `RingLog n R h slot cur full` says that the slots hold the last `n` entries of the
  history `h`, each in the slot of its position, with `cur` the slot that comes next
  and `full` set once all have been used.  `R` says how a slot represents an entry.
  Writing the next slot is one more entry (`RingLog.push`), and the entries come out
  again from the slots behind `cur` and then from those before it
  (`RingLog.copy_full`, `RingLog.copy_partial`).
-/

import VmkDrivers.Lib.RingBuffer

namespace VmkDrivers.Lib

variable {α β : Type*} {n m cur : Nat} {full : Bool} {R : α → β → Prop} {h : List α}
  {slot : Nat → β}

/-- The last `n` entries. -/
def latest (n : Nat) (h : List α) : List α := h.drop (h.length - n)

@[simp] theorem length_latest (n : Nat) (h : List α) : (latest n h).length = min n h.length := by
  rw [latest, List.length_drop]
  omega

/-- What is in `len` slots from `start` on. -/
def copyOut (slot : Nat → β) (start len : Nat) : List β := (List.range' start len).map slot

@[simp] theorem length_copyOut (slot : Nat → β) (start len : Nat) :
    (copyOut slot start len).length = len := by
  rw [copyOut, List.length_map, List.length_range']

theorem getElem_copyOut {start len i : Nat} (hi : i < (copyOut slot start len).length) :
    (copyOut slot start len)[i] = slot (start + i) := by
  simp [copyOut]

structure RingLog (n : Nat) (R : α → β → Prop) (h : List α) (slot : Nat → β) (cur : Nat)
    (full : Bool) : Prop where
  cur_eq : cur = h.length % n
  full_iff : full = true ↔ n ≤ h.length
  holds : ∀ j (hj : j < h.length), h.length ≤ j + n → R h[j] (slot (j % n))

namespace RingLog

theorem nil (hn : 0 < n) : RingLog n R [] slot 0 false where
  cur_eq := (Nat.zero_mod n).symm
  full_iff := iff_of_false Bool.false_ne_true (Nat.not_le.mpr hn)
  holds := nofun

variable {R' : α → β → Prop}

theorem mono (hlog : RingLog n R h slot cur full) (hR : ∀ a b, R a b → R' a b) :
    RingLog n R' h slot cur full :=
  ⟨hlog.cur_eq, hlog.full_iff, fun j hj hlast => hR _ _ (hlog.holds j hj hlast)⟩

theorem cur_lt (hlog : RingLog n R h slot cur full) (hn : 0 < n) : cur < n := by
  rw [hlog.cur_eq]
  exact Nat.mod_lt _ hn

theorem push {a : α} {b : β} (hlog : RingLog n R h slot cur full) (hn : 0 < n) (hab : R a b) :
    RingLog n R (h ++ [a]) (Function.update slot cur b) (if cur = n - 1 then 0 else cur + 1)
      (if cur = n - 1 then true else full) := by
  have hcur := hlog.cur_eq
  have hlt := hlog.cur_lt hn
  have hdiv := Nat.mod_add_div h.length n
  refine ⟨?_, ?_, fun j hj hlast => ?_⟩
  · rw [List.length_append, List.length_singleton, ← nextSlot_mod hn, nextSlot, ← hcur]
    split
    · rw [if_pos (by omega)]
    · rw [if_neg (by omega)]
  · rw [List.length_append, List.length_singleton]
    split
    · refine iff_of_true rfl ?_
      have hle := Nat.mod_le h.length n
      omega
    · next hmore =>
      rw [hlog.full_iff]
      refine ⟨fun hle => by omega, fun hle => ?_⟩
      -- `n - 1` entries would have brought `cur` to the last slot
      by_contra hless
      have hsmall : h.length % n = h.length := Nat.mod_eq_of_lt (by omega)
      omega
  · rw [List.length_append, List.length_singleton] at hj hlast
    rw [List.getElem_append]
    split
    · next hold =>
      have hslot : j % n ≠ cur := by
        intro heq
        have hsame := slot_injective (heq.trans hcur) (by omega) (by omega)
        omega
      rw [Function.update_of_ne hslot]
      exact hlog.holds j hold (by omega)
    · next hnew =>
      obtain rfl : j = h.length := by omega
      rw [← hcur, Function.update_self]
      simpa using hab

theorem copy_partial (hlog : RingLog n R h slot cur full) (hfull : full = false) (m : Nat) :
    List.Forall₂ R ((latest n h).take m) (copyOut slot 0 (min cur m)) := by
  have hless : h.length < n := by
    rw [← Nat.not_le, ← hlog.full_iff, hfull]
    exact Bool.false_ne_true
  have hcur : cur = h.length := hlog.cur_eq.trans (Nat.mod_eq_of_lt hless)
  have hall : latest n h = h := by
    rw [latest, Nat.sub_eq_zero_of_le hless.le, List.drop_zero]
  rw [hall, hcur, List.forall₂_iff_get]
  refine ⟨by simp [Nat.min_comm], fun i hi hi' => ?_⟩
  rw [List.length_take] at hi
  have hslot : i % n = i := Nat.mod_eq_of_lt (by omega)
  have hR := hlog.holds i (by omega) (by omega)
  rw [hslot] at hR
  simpa [getElem_copyOut] using hR

theorem copy_full (hlog : RingLog n R h slot cur full) (hn : 0 < n) (hfull : full = true)
    (hm : m ≤ n) :
    List.Forall₂ R ((latest n h).take m)
      (if m < n - cur then copyOut slot cur m
        else copyOut slot cur (n - cur) ++ copyOut slot 0 (m - (n - cur))) := by
  have hle := hlog.full_iff.mp hfull
  have hlt := hlog.cur_lt hn
  -- the entry at `i` stands in the slot at `i` behind `cur`
  have hentry : ∀ i (hi : i < n), R (h.get ⟨h.length - n + i, by omega⟩)
      (slot (if cur + i < n then cur + i else cur + i - n)) := by
    intro i hi
    have hslot : (h.length - n + i) % n = if cur + i < n then cur + i else cur + i - n := by
      have hbehind : h.length - n + i + n = h.length + i := by omega
      rw [← Nat.add_mod_right, hbehind, ← Nat.mod_add_mod, ← hlog.cur_eq]
      split
      · next hin => exact Nat.mod_eq_of_lt hin
      · next hout => rw [Nat.mod_eq_sub_mod (by omega), Nat.mod_eq_of_lt (by omega)]
    rw [← hslot]
    exact hlog.holds _ (by omega) (by omega)
  rw [List.forall₂_iff_get]
  constructor
  · rw [List.length_take, length_latest]
    split
    · rw [length_copyOut]
      omega
    · rw [List.length_append, length_copyOut, length_copyOut]
      omega
  · intro i hi hi'
    rw [List.length_take, length_latest] at hi
    have hR := hentry i (by omega)
    have hget : ((latest n h).take m).get ⟨i, by simpa using hi⟩ =
        h.get ⟨h.length - n + i, by omega⟩ := by
      simp [latest]
    rw [hget]
    split at hi'
    · next hone =>
      rw [if_pos (by omega)] at hR
      simpa [hone, getElem_copyOut] using hR
    · next htwo =>
      simp only [List.get_eq_getElem, if_neg htwo]
      rw [List.getElem_append]
      split
      · next hfirst =>
        rw [length_copyOut] at hfirst
        rw [getElem_copyOut]
        rw [if_pos (by omega)] at hR
        exact hR
      · next hsecond =>
        rw [length_copyOut] at hsecond
        rw [getElem_copyOut, length_copyOut, Nat.zero_add]
        rw [if_neg (by omega)] at hR
        have hindex : cur + i - n = i - (n - cur) := by omega
        rw [hindex] at hR
        exact hR

theorem positions (hlog : RingLog n R h slot cur full) :
    RingLog n (fun j b => b = slot (j % n)) (List.range h.length) slot cur full where
  cur_eq := by rw [List.length_range]; exact hlog.cur_eq
  full_iff := by rw [List.length_range]; exact hlog.full_iff
  holds j hj _ := by rw [List.getElem_range]

theorem of_copy {out : List β} (hlog : RingLog n R h slot cur full)
    (hpos : List.Forall₂ (fun j b => b = slot (j % n)) (latest n (List.range h.length)) out)
    (hout : List.Forall₂ R' (latest n h) out) : RingLog n R' h slot cur full := by
  refine ⟨hlog.cur_eq, hlog.full_iff, fun j hj hlast => ?_⟩
  rw [List.forall₂_iff_get] at hpos hout
  obtain ⟨hlen, hpos⟩ := hpos
  obtain ⟨hlen', hout⟩ := hout
  -- `j` is this many entries behind the oldest
  let i := j - (h.length - n)
  have hi : i < (latest n h).length := by
    rw [length_latest]
    show j - (h.length - n) < min n h.length
    omega
  have hi' : i < (latest n (List.range h.length)).length := by
    rw [length_latest, List.length_range, ← length_latest n h]
    exact hi
  have hj' : h.length - n + (j - (h.length - n)) = j := by omega
  have hslot := hpos i hi' (hlen ▸ hi')
  have hR := hout i hi (hlen' ▸ hi)
  rw [hslot] at hR
  simpa [latest, i, hj'] using hR

end RingLog

end VmkDrivers.Lib
