/-
  VmkDrivers.Lib.KeyedList

  Finite maps as lists of objects with a key and a value.

  `tableOf key val l` maps a key to the value of the first object of `l` that
  has it.  As long as the keys of `l` are pairwise different the order of
  the objects does not matter, and inserting, removing, filtering and
  overwriting objects are the corresponding operations on the map.
-/

import Mathlib

namespace VmkDrivers.Lib

variable {α κ ν : Type*} [DecidableEq κ]

def tableOf (key : α → κ) (val : α → ν) (l : List α) (k : κ) : Option ν :=
  (l.find? fun a => key a = k).map val

section Table

variable {key : α → κ} {val : α → ν} {l l' : List α} {k : κ} {v : ν} {a : α}

@[simp] theorem tableOf_nil : tableOf key val [] k = none := rfl

theorem tableOf_cons (a : α) (l : List α) :
    tableOf key val (a :: l) k = if key a = k then some (val a) else tableOf key val l k := by
  unfold tableOf
  rw [List.find?_cons]
  by_cases h : key a = k <;> simp [h]

theorem tableOf_eq_none_iff : tableOf key val l k = none ↔ ∀ a ∈ l, key a ≠ k := by
  unfold tableOf
  rw [Option.map_eq_none_iff, List.find?_eq_none]
  simp only [decide_eq_true_eq]

theorem tableOf_eq_some_iff (h : (l.map key).Nodup) :
    tableOf key val l k = some v ↔ ∃ a ∈ l, key a = k ∧ val a = v := by
  induction l with
  | nil => simp
  | cons a l ih =>
    rw [List.map_cons, List.nodup_cons] at h
    rw [tableOf_cons]
    by_cases hk : key a = k
    · rw [if_pos hk, Option.some.injEq]
      constructor
      · exact fun hv => ⟨a, by simp, hk, hv⟩
      · rintro ⟨b, hb, hkb, hv⟩
        rcases List.mem_cons.mp hb with rfl | hb
        · exact hv
        · exact absurd (List.mem_map.mpr ⟨b, hb, hkb.trans hk.symm⟩) h.1
    · rw [if_neg hk, ih h.2]
      constructor
      · rintro ⟨b, hb, hh⟩
        exact ⟨b, by simp [hb], hh⟩
      · rintro ⟨b, hb, hkb, hv⟩
        rcases List.mem_cons.mp hb with rfl | hb
        · exact absurd hkb hk
        · exact ⟨b, hb, hkb, hv⟩

theorem tableOf_perm (hp : l.Perm l') (h : (l.map key).Nodup) :
    tableOf key val l = tableOf key val l' := by
  funext k
  have h' : (l'.map key).Nodup := (hp.map key).nodup_iff.mp h
  apply Option.ext
  intro v
  rw [tableOf_eq_some_iff h, tableOf_eq_some_iff h']
  simp only [hp.mem_iff]

theorem tableOf_congr {key' : α → κ} {val' : α → ν} (hkey : ∀ a ∈ l, key' a = key a)
    (hval : ∀ a ∈ l, val' a = val a) : tableOf key' val' l = tableOf key val l := by
  funext k
  induction l with
  | nil => rfl
  | cons a l ih =>
    rw [tableOf_cons, tableOf_cons, hkey a (by simp), hval a (by simp),
      ih (fun b hb => hkey b (by simp [hb])) (fun b hb => hval b (by simp [hb]))]

/-- **Insertion.** -/
theorem tableOf_insert {l₁ l₂ : List α} (h : ((l₁ ++ a :: l₂).map key).Nodup) :
    tableOf key val (l₁ ++ a :: l₂) =
      Function.update (tableOf key val (l₁ ++ l₂)) (key a) (some (val a)) := by
  rw [tableOf_perm List.perm_middle h]
  funext k
  rw [tableOf_cons]
  by_cases hk : key a = k
  · subst hk
    rw [if_pos rfl, Function.update_self]
  · rw [if_neg hk, Function.update_of_ne (Ne.symm hk)]

/-- **Removal.** -/
theorem tableOf_erase [DecidableEq α] {a : α} (h : (l.map key).Nodup) (ha : a ∈ l) :
    tableOf key val (l.erase a) = Function.update (tableOf key val l) (key a) none := by
  have hp := List.perm_cons_erase ha
  have hnd := (hp.map key).nodup_iff.mp h
  rw [List.map_cons, List.nodup_cons] at hnd
  rw [tableOf_perm hp h]
  funext k
  by_cases hk : k = key a
  · subst hk
    rw [Function.update_self, tableOf_eq_none_iff]
    exact fun b hb heq => hnd.1 (List.mem_map.mpr ⟨b, hb, heq⟩)
  · rw [Function.update_of_ne hk, tableOf_cons, if_neg (Ne.symm hk)]

/-- **Overwriting** the value of an object. -/
theorem tableOf_overwrite {val' : α → ν} (h : (l.map key).Nodup) (ha : a ∈ l)
    (hval : ∀ b ∈ l, b ≠ a → val' b = val b) :
    tableOf key val' l = Function.update (tableOf key val l) (key a) (some (val' a)) := by
  have hother : ∀ b ∈ l, key b = key a → b = a :=
    fun b hb heq => List.inj_on_of_nodup_map h hb ha heq
  funext k
  apply Option.ext
  intro v
  rw [tableOf_eq_some_iff h]
  by_cases hk : k = key a
  · subst hk
    rw [Function.update_self, Option.some.injEq]
    constructor
    · rintro ⟨b, hb, hkb, hv⟩
      exact hother b hb hkb ▸ hv
    · exact fun hv => ⟨a, ha, rfl, hv⟩
  · rw [Function.update_of_ne hk, tableOf_eq_some_iff h]
    constructor
    · rintro ⟨b, hb, hkb, hv⟩
      have hba : b ≠ a := fun hba => hk (by rw [← hkb, hba])
      exact ⟨b, hb, hkb, hval b hb hba ▸ hv⟩
    · rintro ⟨b, hb, hkb, hv⟩
      have hba : b ≠ a := fun hba => hk (by rw [← hkb, hba])
      exact ⟨b, hb, hkb, (hval b hb hba).trans hv⟩

/-- **Filtering** by the value. -/
theorem tableOf_filter [DecidableEq ν] (h : (l.map key).Nodup) (w : ν) :
    tableOf key val (l.filter fun a => val a ≠ w) =
      fun k => if tableOf key val l k = some w then none else tableOf key val l k := by
  have hnd : ((l.filter fun a => val a ≠ w).map key).Nodup :=
    h.sublist (List.filter_sublist.map key)
  funext k
  apply Option.ext
  intro v
  rw [tableOf_eq_some_iff hnd]
  simp only [List.mem_filter, decide_eq_true_eq]
  split
  · next hw =>
    rw [tableOf_eq_some_iff h] at hw
    obtain ⟨a, ha, hka, hva⟩ := hw
    constructor
    · rintro ⟨b, ⟨hb, hne⟩, hkb, _⟩
      have hba : b = a := List.inj_on_of_nodup_map h hb ha (hkb.trans hka.symm)
      exact absurd (hba ▸ hva) hne
    · exact fun hno => nomatch hno
  · next hw =>
    rw [tableOf_eq_some_iff h]
    constructor
    · rintro ⟨b, ⟨hb, _⟩, hkb, hv⟩
      exact ⟨b, hb, hkb, hv⟩
    · rintro ⟨b, hb, hkb, hv⟩
      refine ⟨b, ⟨hb, fun hbw => hw ?_⟩, hkb, hv⟩
      exact (tableOf_eq_some_iff h).mpr ⟨b, hb, hkb, hbw⟩

end Table

end VmkDrivers.Lib
