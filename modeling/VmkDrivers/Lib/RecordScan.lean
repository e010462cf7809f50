/-
  VmkDrivers.Lib.RecordScan

  Searching a sequence of records that name their own length.

  A record stands where the one before it ends (`recordAt`).  A search goes
  from record to record until it hits one or leaves the area (`scan`); it
  looks at the first byte of a record, and at the second one, the length, if
  the record is not what it looks for (`scanReads`).  A record of length 0
  stands where it ends, so the search ends exactly if it meets none that it
  passes over (`scan_ends_iff`).
-/

import Mathlib

namespace VmkDrivers.Lib

/-- The offset of the `k`-th record, `len o` being the length of the one at offset `o`. -/
def recordAt (len : ℕ → ℕ) : ℕ → ℕ
  | 0 => 0
  | k + 1 => recordAt len k + len (recordAt len k)

/-! ## Searches -/

section Scan

variable (len : ℕ → ℕ) (hit : ℕ → Prop)

/-- The search passes over the `k`-th record. -/
structure Passes (area : ℤ) (k : ℕ) : Prop where
  inside : (recordAt len k : ℤ) < area
  miss : ∀ j ≤ k, ¬hit (recordAt len j)

/-- The search finds the `k`-th record. -/
structure Finds (area : ℤ) (k : ℕ) : Prop where
  inside : (recordAt len k : ℤ) < area
  found : hit (recordAt len k)
  first : ∀ j < k, ¬hit (recordAt len j)

/-- The search ends in turn `k` with the outcome `r`. -/
def EndsAt (area : ℤ) (k : ℕ) (r : Option ℕ) : Prop :=
  (∀ j < k, Passes len hit area j) ∧
    (area ≤ recordAt len k ∧ r = none ∨ Finds len hit area k ∧ r = some (recordAt len k))

variable [DecidablePred hit]

/-- At most `n` turns of the search at offset `o`, with `left` bytes to go: its outcome, if it
    has ended by then. -/
def scan : (n : ℕ) → (left : ℤ) → (o : ℕ) → Option (Option ℕ)
  | 0, _, _ => none
  | n + 1, left, o =>
    if left ≤ 0 then some none
    else if hit o then some (some o)
    else scan n (left - len o) (o + len o)

/-- The offsets that the first `n` turns read. -/
def scanReads : (n : ℕ) → (left : ℤ) → (o : ℕ) → List ℕ
  | 0, _, _ => []
  | n + 1, left, o =>
    if left ≤ 0 then []
    else if hit o then [o]
    else o :: (o + 1) :: scanReads n (left - len o) (o + len o)

end Scan

variable {len : ℕ → ℕ} {hit : ℕ → Prop} {area : ℤ} {k : ℕ} {r : Option ℕ}

theorem recordAt_mono (len : ℕ → ℕ) {j : ℕ} (h : j ≤ k) : recordAt len j ≤ recordAt len k := by
  induction h with
  | refl => exact Nat.le_refl _
  | step _ ih => exact Nat.le_trans ih (Nat.le_add_right _ _)

theorem recordAt_stuck (h : len (recordAt len k) = 0) {j : ℕ} (hj : k ≤ j) :
    recordAt len j = recordAt len k := by
  induction hj with
  | refl => rfl
  | step _ ih => rw [recordAt, ih, h, Nat.add_zero]

theorem le_recordAt (h : ∀ j < k, len (recordAt len j) ≠ 0) : k ≤ recordAt len k := by
  induction k with
  | zero => exact Nat.zero_le _
  | succ k ih =>
    have hprev := ih fun j hj => h j (Nat.lt_succ_of_lt hj)
    have hlen := h k (Nat.lt_succ_self k)
    rw [recordAt]
    omega

theorem Finds.passes (h : Finds len hit area k) {j : ℕ} (hj : j < k) :
    Passes len hit area j where
  inside := by
    have hle := recordAt_mono len (Nat.le_of_lt hj)
    have hin := h.inside
    omega
  miss i hi := h.first i (Nat.lt_of_le_of_lt hi hj)

theorem Finds.unique {l : ℕ} (hk : Finds len hit area k) (hl : Finds len hit area l) : k = l := by
  rcases Nat.lt_trichotomy k l with hlt | heq | hgt
  · exact absurd hk.found (hl.first k hlt)
  · exact heq
  · exact absurd hl.found (hk.first l hgt)

/-! ## The turns of a search -/

theorem passes_of_turn (hbefore : ∀ j < k, Passes len hit area j) (hin : ¬area - recordAt len k ≤ 0)
    (hmiss : ¬hit (recordAt len k)) : ∀ j < k + 1, Passes len hit area j := by
  intro j hj
  rcases Nat.lt_succ_iff_lt_or_eq.mp hj with hlt | rfl
  · exact hbefore j hlt
  · refine ⟨by omega, fun i hi => ?_⟩
    rcases Nat.lt_or_eq_of_le hi with hlt | rfl
    · exact (hbefore i hlt).miss i (Nat.le_refl i)
    · exact hmiss

theorem left_next (area : ℤ) (k : ℕ) :
    area - recordAt len k - len (recordAt len k) = area - recordAt len (k + 1) := by
  rw [recordAt]
  omega

variable [DecidablePred hit]

/-- **One turn after the other.** From the `k`-th record on the search ends within `n` turns
    exactly if it ends in one of these turns. -/
theorem scan_eq_some_iff {n : ℕ} (hbefore : ∀ j < k, Passes len hit area j) :
    scan len hit n (area - recordAt len k) (recordAt len k) = some r ↔
      ∃ m < k + n, k ≤ m ∧ EndsAt len hit area m r := by
  induction n generalizing k with
  | zero =>
    constructor
    · intro h
      cases h
    · rintro ⟨m, hlt, hle, -⟩
      omega
  | succ n ih =>
    rw [scan]
    by_cases hout : area - recordAt len k ≤ 0
    · rw [if_pos hout, Option.some.injEq]
      constructor
      · rintro rfl
        exact ⟨k, by omega, Nat.le_refl k, hbefore, .inl ⟨by omega, rfl⟩⟩
      · rintro ⟨m, -, hle, hpassed, hend⟩
        obtain rfl : m = k := by
          by_contra hne
          have hin := (hpassed k (by omega)).inside
          omega
        rcases hend with ⟨-, rfl⟩ | ⟨hfinds, -⟩
        · rfl
        · have hin := hfinds.inside
          omega
    · rw [if_neg hout]
      by_cases hhit : hit (recordAt len k)
      · have hfinds : Finds len hit area k :=
          ⟨by omega, hhit, fun j hj => (hbefore j hj).miss j (Nat.le_refl j)⟩
        rw [if_pos hhit, Option.some.injEq]
        constructor
        · rintro rfl
          exact ⟨k, by omega, Nat.le_refl k, hbefore, .inr ⟨hfinds, rfl⟩⟩
        · rintro ⟨m, -, hle, hpassed, hend⟩
          obtain rfl : m = k := by
            by_contra hne
            exact (hpassed k (by omega)).miss k (Nat.le_refl k) hhit
          rcases hend with ⟨hleft, -⟩ | ⟨-, rfl⟩
          · omega
          · rfl
      · rw [if_neg hhit, left_next]
        have hnext := passes_of_turn hbefore hout hhit
        change scan len hit n _ (recordAt len (k + 1)) = _ ↔ _
        rw [ih hnext]
        constructor
        · rintro ⟨m, hlt, hle, hend⟩
          exact ⟨m, by omega, by omega, hend⟩
        · rintro ⟨m, hlt, hle, hend⟩
          have hne : m ≠ k := by
            rintro rfl
            rcases hend.2 with ⟨hleft, -⟩ | ⟨hfinds, -⟩
            · omega
            · exact hhit hfinds.found
          exact ⟨m, by omega, by omega, hend⟩

theorem scan_unique {n m o : ℕ} {left : ℤ} {r' : Option ℕ} (h : scan len hit n left o = some r)
    (h' : scan len hit m left o = some r') : r = r' := by
  induction n generalizing m left o with
  | zero => cases h
  | succ n ih =>
    cases m with
    | zero => cases h'
    | succ m =>
      rw [scan] at h h'
      split at h
      · next hout =>
          rw [if_pos hout] at h'
          exact Option.some.inj (h.symm.trans h')
      · next hin =>
          rw [if_neg hin] at h'
          split at h
          · next hhit =>
              rw [if_pos hhit] at h'
              exact Option.some.inj (h.symm.trans h')
          · next hmiss =>
              rw [if_neg hmiss] at h'
              exact ih h h'

theorem scan_start_iff : (∃ n, scan len hit n area 0 = some r) ↔ ∃ k, EndsAt len hit area k r := by
  have hstart : ∀ n, scan len hit n area 0 =
      scan len hit n (area - recordAt len 0) (recordAt len 0) := by
    intro n
    rw [recordAt, Int.natCast_zero, Int.sub_zero]
  constructor
  · rintro ⟨n, h⟩
    rw [hstart, scan_eq_some_iff (fun j hj => absurd hj (Nat.not_lt_zero j))] at h
    obtain ⟨m, -, -, hend⟩ := h
    exact ⟨m, hend⟩
  · rintro ⟨k, hend⟩
    refine ⟨k + 1, ?_⟩
    rw [hstart, scan_eq_some_iff (fun j hj => absurd hj (Nat.not_lt_zero j))]
    exact ⟨k, by omega, Nat.zero_le k, hend⟩

theorem scan_finds_iff {o : ℕ} :
    (∃ n, scan len hit n area 0 = some (some o)) ↔
      ∃ k, Finds len hit area k ∧ o = recordAt len k := by
  rw [scan_start_iff]
  constructor
  · rintro ⟨k, -, ⟨-, hr⟩ | ⟨hfinds, hr⟩⟩
    · cases hr
    · exact ⟨k, hfinds, Option.some.inj hr⟩
  · rintro ⟨k, hfinds, rfl⟩
    exact ⟨k, fun j hj => hfinds.passes hj, .inr ⟨hfinds, rfl⟩⟩

theorem scan_stuck (h : Passes len hit area k) (hzero : len (recordAt len k) = 0) (n : ℕ) :
    scan len hit n area 0 = none := by
  by_contra hne
  obtain ⟨r, hr⟩ := Option.ne_none_iff_exists'.mp hne
  obtain ⟨m, -, hend⟩ := scan_start_iff.mp ⟨n, hr⟩
  have hin := h.inside
  -- The search would end at the record of length 0, or before it.
  rcases Nat.le_total m k with hle | hle
  · rcases hend with ⟨hout, -⟩ | ⟨hfinds, -⟩
    · have hmono := recordAt_mono len hle
      omega
    · exact h.miss m hle hfinds.found
  · have hsame := recordAt_stuck hzero hle
    rcases hend with ⟨hout, -⟩ | ⟨hfinds, -⟩
    · omega
    · apply h.miss k (Nat.le_refl k)
      rw [← hsame]
      exact hfinds.found

/-- **A search ends** exactly if it passes over no record of length 0. -/
theorem scan_ends_iff :
    (∃ n r, scan len hit n area 0 = some r) ↔
      ∀ k, Passes len hit area k → len (recordAt len k) ≠ 0 := by
  constructor
  · rintro ⟨n, r, hr⟩ k hpass hzero
    rw [scan_stuck hpass hzero] at hr
    cases hr
  · intro hpos
    by_contra hnever
    push Not at hnever
    -- A search that does not end passes over every record, so it outruns the area.
    have hall : ∀ k, ∀ j < k, Passes len hit area j := by
      intro k
      induction k with
      | zero => exact fun j hj => absurd hj (Nat.not_lt_zero j)
      | succ k ih =>
        apply passes_of_turn ih
        · intro hout
          obtain ⟨n, hn⟩ := scan_start_iff.mpr ⟨k, ih, .inl ⟨by omega, rfl⟩⟩
          exact hnever n _ hn
        · intro hhit
          by_cases hin : (recordAt len k : ℤ) < area
          · have hfinds : Finds len hit area k :=
              ⟨hin, hhit, fun j hj => (ih j hj).miss j (Nat.le_refl j)⟩
            obtain ⟨n, hn⟩ := scan_start_iff.mpr ⟨k, ih, .inr ⟨hfinds, rfl⟩⟩
            exact hnever n _ hn
          · obtain ⟨n, hn⟩ := scan_start_iff.mpr ⟨k, ih, .inl ⟨by omega, rfl⟩⟩
            exact hnever n _ hn
    have hfar := hall (area.toNat + 1) area.toNat (Nat.lt_succ_self _)
    have hadvance : area.toNat ≤ recordAt len area.toNat :=
      le_recordAt fun j hj => hpos j (hall _ j hj)
    have hin := hfar.inside
    omega

theorem scan_misses_iff :
    (∃ n, scan len hit n area 0 = some none) ↔
      ∀ k, (recordAt len k : ℤ) < area → ¬hit (recordAt len k) ∧ len (recordAt len k) ≠ 0 := by
  constructor
  · intro h k hin
    obtain ⟨m, hpassed, hend⟩ := scan_start_iff.mp h
    rcases hend with ⟨hout, -⟩ | ⟨-, hr⟩
    · have hlt : k < m := by
        by_contra hge
        have hmono := recordAt_mono len (Nat.not_lt.mp hge)
        omega
      refine ⟨(hpassed k hlt).miss k (Nat.le_refl k), fun hzero => ?_⟩
      obtain ⟨n, hn⟩ := h
      rw [scan_stuck (hpassed k hlt) hzero] at hn
      cases hn
    · cases hr
  · intro hmiss
    obtain ⟨n, r, hr⟩ := scan_ends_iff.mpr fun k (hpass : Passes len hit area k) =>
      (hmiss k hpass.inside).2
    cases r with
    | none => exact ⟨n, hr⟩
    | some o =>
      obtain ⟨k, hfinds, -⟩ := scan_finds_iff.mp ⟨n, hr⟩
      exact absurd hfinds.found (hmiss k hfinds.inside).1

/-! ## What a search reads -/

theorem mem_scanReads_iff {n i : ℕ} (hbefore : ∀ j < k, Passes len hit area j) :
    i ∈ scanReads len hit n (area - recordAt len k) (recordAt len k) ↔
      ∃ m < k + n, k ≤ m ∧
        (Passes len hit area m ∧ (i = recordAt len m ∨ i = recordAt len m + 1) ∨
          Finds len hit area m ∧ i = recordAt len m) := by
  induction n generalizing k with
  | zero =>
    rw [scanReads]
    constructor
    · intro h
      exact absurd h List.not_mem_nil
    · rintro ⟨m, hlt, hle, -⟩
      omega
  | succ n ih =>
    rw [scanReads]
    by_cases hout : area - recordAt len k ≤ 0
    · rw [if_pos hout]
      constructor
      · intro h
        exact absurd h List.not_mem_nil
      · rintro ⟨m, -, hle, hm⟩
        have hmono := recordAt_mono len hle
        rcases hm with ⟨hpass, -⟩ | ⟨hfinds, -⟩
        · have hin := hpass.inside
          omega
        · have hin := hfinds.inside
          omega
    · rw [if_neg hout]
      by_cases hhit : hit (recordAt len k)
      · have hfinds : Finds len hit area k :=
          ⟨by omega, hhit, fun j hj => (hbefore j hj).miss j (Nat.le_refl j)⟩
        rw [if_pos hhit, List.mem_singleton]
        constructor
        · rintro rfl
          exact ⟨k, by omega, Nat.le_refl k, .inr ⟨hfinds, rfl⟩⟩
        · rintro ⟨m, -, hle, ⟨hpass, -⟩ | ⟨hfinds', rfl⟩⟩
          · exact absurd hhit (hpass.miss k hle)
          · rw [hfinds.unique hfinds']
      · rw [if_neg hhit, left_next, List.mem_cons, List.mem_cons]
        have hnext := passes_of_turn hbefore hout hhit
        change _ ∨ _ ∨ i ∈ scanReads len hit n _ (recordAt len (k + 1)) ↔ _
        rw [ih hnext]
        have hthis := hnext k (Nat.lt_succ_self k)
        constructor
        · rintro (rfl | rfl | ⟨m, hlt, hle, hm⟩)
          · exact ⟨k, by omega, Nat.le_refl k, .inl ⟨hthis, .inl rfl⟩⟩
          · exact ⟨k, by omega, Nat.le_refl k, .inl ⟨hthis, .inr rfl⟩⟩
          · exact ⟨m, by omega, by omega, hm⟩
        · rintro ⟨m, hlt, hle, hm⟩
          rcases Nat.lt_or_eq_of_le hle with hlt' | rfl
          · exact .inr (.inr ⟨m, by omega, by omega, hm⟩)
          · rcases hm with ⟨-, heq | heq⟩ | ⟨hfinds, -⟩
            · exact .inl heq
            · exact .inr (.inl heq)
            · exact absurd hfinds.found hhit

/-- **The reads of a search**, whether it ends or not. -/
theorem mem_scanReads_start {i : ℕ} :
    (∃ n, i ∈ scanReads len hit n area 0) ↔
      ∃ k, Passes len hit area k ∧ (i = recordAt len k ∨ i = recordAt len k + 1) ∨
        Finds len hit area k ∧ i = recordAt len k := by
  have hstart : ∀ n, scanReads len hit n area 0 =
      scanReads len hit n (area - recordAt len 0) (recordAt len 0) := by
    intro n
    rw [recordAt, Int.natCast_zero, Int.sub_zero]
  constructor
  · rintro ⟨n, h⟩
    rw [hstart, mem_scanReads_iff (fun j hj => absurd hj (Nat.not_lt_zero j))] at h
    obtain ⟨m, -, -, hm⟩ := h
    exact ⟨m, hm⟩
  · rintro ⟨k, hk⟩
    refine ⟨k + 1, ?_⟩
    rw [hstart, mem_scanReads_iff (fun j hj => absurd hj (Nat.not_lt_zero j))]
    exact ⟨k, by omega, Nat.zero_le k, hk⟩

end VmkDrivers.Lib
