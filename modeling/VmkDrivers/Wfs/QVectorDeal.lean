/-
  VmkDrivers.Wfs.QVectorDeal

  Which ring goes to which interrupt vector.

  The rings that are left are dealt out in turn: each vector gets its part of
  them, rounded up, and takes every so many-th ring.  So each queue below the
  count gets one ring (`hand_iff`, `hand_unique`), if there is a vector left to
  deal to.

  The error path frees the vectors of the last loop only.  The FCoE vectors come
  first, and stay where they are.  Besides, they may leave no vector for the
  other rings, or be counted from beyond the array (`q_vectors_iff`).
-/

import VmkDrivers.Wfs.QVectors

namespace VmkDrivers.Wfs

open VmkDrivers.Lib RingMap
open QueueAdapter (divRoundUp subU32 divRoundUp_mul_add)
open VectorLoop (share ring_lt exists_ring share_le_one)

/-! ## Dealing -/

/-- The `j`-th of `h` hands gets item `i` of `n`, when its items are `stride` apart. -/
def Hand (n h stride j i : Nat) : Prop := ∃ k < share n h j, i = j + k * stride

variable {n m h stride i j j' q : Nat} {c : VectorCall} {kind : RingKind} {r : Nat}
  {f : Nat → VectorCall}

/-- **Each item is dealt**, and no other. -/
theorem hand_iff (hpos : 0 < h) (hstride : stride = h ∨ n ≤ h) :
    (∃ j < h, Hand n h stride j i) ↔ i < n := by
  constructor
  · rintro ⟨j, hj, k, hk, rfl⟩
    exact ring_lt hj hstride hk
  · intro hi
    obtain ⟨k, hk, heq⟩ := exists_ring hpos hstride hi
    exact ⟨i % h, Nat.mod_lt i hpos, k, hk, heq.symm⟩

/-- **No item is dealt twice.** -/
theorem hand_unique (hj : j < h) (hj' : j' < h) (hstride : stride = h ∨ n ≤ h)
    (hhand : Hand n h stride j i) (hhand' : Hand n h stride j' i) : j = j' := by
  obtain ⟨k, hk, rfl⟩ := hhand
  obtain ⟨k', hk', heq⟩ := hhand'
  rcases hstride with rfl | hle
  · have hmod := congrArg (· % stride) heq
    simp only [Nat.add_mul_mod_self_right, Nat.mod_eq_of_lt hj, Nat.mod_eq_of_lt hj'] at hmod
    exact hmod
  · obtain ⟨hone, -⟩ := share_le_one hj hle
    obtain ⟨hone', -⟩ := share_le_one hj' hle
    obtain rfl : k = 0 := by omega
    obtain rfl : k' = 0 := by omega
    omega

theorem share_zero (h j : Nat) : share 0 h j = 0 := by
  rw [share, Nat.zero_div, Nat.zero_mod, if_neg (Nat.not_lt_zero j)]

/-- What is left of `n` items before the `j`-th of `h` hands. -/
def leftOver (n h j : Nat) : Nat := (h - j) * (n / h) + (n % h - j)

theorem leftOver_zero (n h : Nat) : leftOver n h 0 = n := by
  rw [leftOver, Nat.sub_zero, Nat.sub_zero, Nat.div_add_mod]

theorem divRoundUp_leftOver (hj : j < h) : divRoundUp (leftOver n h j) (h - j) = share n h j ∧
    leftOver n h j - share n h j = leftOver n h (j + 1) := by
  have hmod := Nat.mod_lt n (Nat.zero_lt_of_lt hj)
  obtain ⟨d, hd⟩ : ∃ d, h - j = d + 1 := ⟨h - j - 1, by omega⟩
  constructor
  · rw [leftOver, divRoundUp_mul_add _ (by omega) (by omega), share]
    simp only [Nat.sub_pos_iff_lt]
  · rw [leftOver, leftOver, hd, show h - (j + 1) = d from by omega, share, Nat.succ_mul]
    split <;> omega

/-! ## The calls -/

theorem rxCalls_eq (q n v i : Nat) :
    rxCalls q n v i = (List.range n).map fun j => ⟨q, v + j, 0, 0, 1, i + j⟩ := by
  induction n generalizing v i with
  | zero => rfl
  | succ n ih =>
    rw [rxCalls, ih, List.range_succ_eq_map, List.map_cons, List.map_map]
    simp [Function.comp_def, Nat.add_assoc, Nat.add_comm 1]

/-- Vector `first + j` is hand `j` of both kinds of rings. -/
def sharedCall (q n m h first ri ti j : Nat) : VectorCall :=
  ⟨q, first + j, share m h j, ti + j, share n h j, ri + j⟩

theorem sharedCalls_eq {first : Nat} (hq : q = first + h) (ri ti d : Nat) (hj : j + d = h) :
    sharedCalls q d (first + j) (leftOver n h j) (leftOver m h j) (ri + j) (ti + j) =
      (List.range' j d).map (sharedCall q n m h first ri ti) := by
  induction d generalizing j with
  | zero => rfl
  | succ d ih =>
    obtain ⟨hrx, hrx'⟩ := divRoundUp_leftOver (n := n) (show j < h by omega)
    obtain ⟨htx, htx'⟩ := divRoundUp_leftOver (n := m) (show j < h by omega)
    have hleft : q - (first + j) = h - j := by omega
    rw [sharedCalls, List.range'_succ, List.map_cons, hleft, hrx, htx, hrx', htx', ← ih (by omega)]
    rfl

theorem sharedCalls_start {first : Nat} (hq : q = first + h) (n m ri ti : Nat) :
    sharedCalls q h first n m ri ti = (List.range h).map (sharedCall q n m h first ri ti) := by
  have hcalls := sharedCalls_eq (n := n) (m := m) hq ri ti (j := 0) h (Nat.zero_add h)
  rw [leftOver_zero, leftOver_zero] at hcalls
  rw [List.range_eq_range']
  exact hcalls

def fcoeRxCall (n h v ri j : Nat) : VectorCall := ⟨h, v + j, 0, 0, share n h j, ri + j⟩

def fcoeTxCall (n h v ti j : Nat) : VectorCall := ⟨h, v + j + h, share n h j, ti + j, 0, 0⟩

theorem fcoeCalls_eq (v ri ti d : Nat) (hj : j + d = h) :
    fcoeCalls h d j (leftOver n h j) (v + j) (ri + j) (ti + j) =
      (List.range' j d).flatMap fun j => [fcoeRxCall n h v ri j, fcoeTxCall n h v ti j] := by
  induction d generalizing j with
  | zero => rfl
  | succ d ih =>
    obtain ⟨hcount, hrest⟩ := divRoundUp_leftOver (n := n) (show j < h by omega)
    rw [fcoeCalls, List.range'_succ, List.flatMap_cons, hcount, hrest, ← ih (by omega)]
    rfl

theorem fcoeCalls_start (n h v ri ti : Nat) : fcoeCalls h h 0 n v ri ti =
    (List.range h).flatMap fun j => [fcoeRxCall n h v ri j, fcoeTxCall n h v ti j] := by
  have hcalls := fcoeCalls_eq (n := n) v ri ti (j := 0) h (Nat.zero_add h)
  rw [leftOver_zero] at hcalls
  rw [List.range_eq_range']
  exact hcalls

/-! ## The queues of the calls -/

theorem has_iff (hcount : c.count kind = share n h j) (hidx : c.idx kind = r + j) :
    c.Has kind i ↔ ∃ i', i = r + i' ∧ Hand n h c.vCount j i' := by
  unfold VectorCall.Has Hand
  rw [hcount, hidx]
  constructor
  · rintro ⟨k, hk, rfl⟩
    exact ⟨j + k * c.vCount, by omega, k, hk, rfl⟩
  · rintro ⟨i', rfl, k, hk, rfl⟩
    exact ⟨k, hk, by omega⟩

theorem not_has_of_hand {d : VectorCall} (hstride : q = h ∨ n ≤ h) (hj : j < h) (hj' : j' < h)
    (hne : j ≠ j') (hc : c.vCount = q) (hd : d.vCount = q) (hcount : c.count kind = share n h j)
    (hidx : c.idx kind = r + j) (hcount' : d.count kind = share n h j')
    (hidx' : d.idx kind = r + j') (hhas : c.Has kind i) : ¬d.Has kind i := by
  rw [has_iff hcount hidx, hc] at hhas
  rw [has_iff hcount' hidx', hd]
  obtain ⟨a, rfl, hhand⟩ := hhas
  rintro ⟨b, heq, hhand'⟩
  obtain rfl : a = b := by omega
  exact hne (hand_unique hj hj' hstride hhand hhand')

theorem exists_has_iff (hpos : 0 < h) (hstride : q = h ∨ n ≤ h)
    (hf : ∀ j, (f j).vCount = q ∧ (f j).count kind = share n h j ∧ (f j).idx kind = r + j) :
    (∃ j < h, (f j).Has kind i) ↔ r ≤ i ∧ i < r + n := by
  have hone (j : Nat) : (f j).Has kind i ↔ ∃ i', i = r + i' ∧ Hand n h q j i' := by
    obtain ⟨hv, hcount, hidx⟩ := hf j
    rw [has_iff hcount hidx, hv]
  simp only [hone]
  constructor
  · rintro ⟨j, hj, i', rfl, hhand⟩
    have hlt := (hand_iff hpos hstride).mp ⟨j, hj, hhand⟩
    omega
  · rintro ⟨hle, hlt⟩
    obtain ⟨j, hj, hhand⟩ := (hand_iff (n := n) (i := i - r) hpos hstride).mpr (by omega)
    exact ⟨j, hj, i - r, by omega, hhand⟩

theorem not_has_of_count (hcount : c.count kind = 0) : ¬c.Has kind i := by
  rintro ⟨k, hk, -⟩
  rw [hcount] at hk
  exact Nat.not_lt_zero k hk

/-- What calls for the vectors below `q` are to do. -/
structure DealsOut (calls : List VectorCall) (q n m : Nat) : Prop where
  vIdx : calls.map VectorCall.vIdx = List.range q
  vCount : ∀ c ∈ calls, c.vCount = q
  apart : calls.Pairwise RingMap.Apart
  rx : 0 < q → ∀ i, (∃ c ∈ calls, c.Has .rx i) ↔ i < n
  tx : 0 < q → ∀ i, (∃ c ∈ calls, c.Has .tx i) ↔ i < m

theorem pairwise_map_range {R : VectorCall → VectorCall → Prop}
    (h : ∀ i < n, ∀ j < n, i < j → R (f i) (f j)) : ((List.range n).map f).Pairwise R := by
  rw [List.pairwise_map]
  refine List.pairwise_lt_range.imp_of_mem fun hi hj hlt => ?_
  exact h _ (List.mem_range.mp hi) _ (List.mem_range.mp hj) hlt

theorem exists_mem_map_range {P : VectorCall → Prop} :
    (∃ c ∈ (List.range n).map f, P c) ↔ ∃ j < n, P (f j) := by
  simp only [List.mem_map, List.mem_range, exists_exists_and_eq_and]

theorem sharedCall_apart {first ri ti : Nat} (hn : q = h ∨ n ≤ h) (hm : q = h ∨ m ≤ h)
    (hj : j < h) (hj' : j' < h) (hne : j ≠ j') :
    RingMap.Apart (sharedCall q n m h first ri ti j) (sharedCall q n m h first ri ti j') := by
  refine ⟨fun h => hne (Nat.add_left_cancel h), fun kind i => ?_⟩
  cases kind with
  | rx => exact not_has_of_hand hn hj hj' hne rfl rfl rfl rfl rfl rfl
  | tx => exact not_has_of_hand hm hj hj' hne rfl rfl rfl rfl rfl rfl

/-- **The shared vectors** deal out both kinds of rings. -/
theorem dealsOut_shared (q n m : Nat) : DealsOut (sharedCalls q q 0 n m 0 0) q n m := by
  rw [sharedCalls_start (Nat.zero_add q).symm]
  constructor
  · rw [List.map_map]
    refine (List.map_congr_left fun j _ => ?_).trans (List.map_id _)
    exact Nat.zero_add j
  · intro c hc
    obtain ⟨j, -, rfl⟩ := List.mem_map.mp hc
    rfl
  · exact pairwise_map_range fun i hi j hj hlt =>
      sharedCall_apart (.inl rfl) (.inl rfl) hi hj (Nat.ne_of_lt hlt)
  · intro hpos i
    rw [exists_mem_map_range, exists_has_iff (r := 0) (n := n) hpos (.inl rfl)
      fun j => ⟨rfl, rfl, rfl⟩]
    omega
  · intro hpos i
    rw [exists_mem_map_range, exists_has_iff (r := 0) (n := m) hpos (.inl rfl)
      fun j => ⟨rfl, rfl, rfl⟩]
    omega

/-- **With enough vectors** each receive ring has its own, and the transmit rings share the
    others. -/
theorem dealsOut_own (hle : n + m ≤ q) :
    DealsOut (rxCalls q n 0 0 ++ sharedCalls q (q - n) n 0 m n 0) q n m := by
  obtain ⟨h, rfl⟩ : ∃ h, q = n + h := ⟨q - n, by omega⟩
  have hm : m ≤ h := by omega
  rw [Nat.add_sub_cancel_left, sharedCalls_start rfl, rxCalls_eq]
  have hrx (j i : Nat) : (⟨n + h, 0 + j, 0, 0, 1, 0 + j⟩ : VectorCall).Has .rx i ↔ i = j := by
    change (∃ k < 1, i = 0 + j + k * (n + h)) ↔ _
    constructor
    · rintro ⟨k, hk, rfl⟩
      obtain rfl : k = 0 := by omega
      omega
    · rintro rfl
      exact ⟨0, Nat.one_pos, by omega⟩
  have hnorx (j i : Nat) : ¬(sharedCall (n + h) 0 m h n n 0 j).Has .rx i :=
    not_has_of_count (share_zero h j)
  have hnotx (j i : Nat) : ¬(⟨n + h, 0 + j, 0, 0, 1, 0 + j⟩ : VectorCall).Has .tx i :=
    not_has_of_count rfl
  constructor
  · -- the vectors are filled in turn
    rw [List.map_append, List.map_map, List.map_map, List.range_add]
    congr 1
    refine (List.map_congr_left fun j _ => ?_).trans (List.map_id _)
    exact Nat.zero_add j
  · intro c hc
    rcases List.mem_append.mp hc with hc | hc
    · obtain ⟨j, -, rfl⟩ := List.mem_map.mp hc
      rfl
    · obtain ⟨j, -, rfl⟩ := List.mem_map.mp hc
      rfl
  · -- two calls share nothing, be they both for receive rings, both for the others or one each
    refine List.pairwise_append.mpr ⟨?_, ?_, ?_⟩
    · refine pairwise_map_range fun i hi j hj hlt => ⟨?_, fun kind a => ?_⟩
      · change 0 + i ≠ 0 + j
        omega
      · cases kind with
        | rx =>
          rw [hrx, hrx]
          omega
        | tx => exact fun h => (hnotx i a h).elim
    · exact pairwise_map_range fun i hi j hj hlt =>
        sharedCall_apart (.inr (Nat.zero_le h)) (.inr hm) hi hj (Nat.ne_of_lt hlt)
    · intro c hc d hd
      obtain ⟨i, hi, rfl⟩ := List.mem_map.mp hc
      obtain ⟨j, hj, rfl⟩ := List.mem_map.mp hd
      rw [List.mem_range] at hi
      refine ⟨?_, fun kind a => ?_⟩
      · change 0 + i ≠ n + j
        omega
      · cases kind with
        | rx => exact fun _ => hnorx j a
        | tx => exact fun h => (hnotx i a h).elim
  · -- the receive rings are dealt out by the first calls alone, the transmit rings by the others
    intro hpos i
    simp only [List.mem_append, or_and_right, exists_or]
    rw [exists_mem_map_range, exists_mem_map_range, or_iff_left]
    · simp only [hrx]
      exact ⟨fun ⟨j, hj, hij⟩ => hij ▸ hj, fun hi => ⟨i, hi, rfl⟩⟩
    · rintro ⟨j, -, hhas⟩
      exact hnorx j i hhas
  · intro hpos i
    simp only [List.mem_append, or_and_right, exists_or]
    rw [exists_mem_map_range, exists_mem_map_range, or_iff_right]
    · by_cases hh : 0 < h
      · rw [exists_has_iff (f := sharedCall (n + h) 0 m h n n 0) (r := 0) (n := m) hh
          (.inr hm) fun j => ⟨rfl, rfl, rfl⟩]
        omega
      · -- no transmit rings either
        refine iff_of_false ?_ (by omega)
        rintro ⟨j, hj, -⟩
        omega
    · rintro ⟨j, -, hhas⟩
      exact hnotx j i hhas

theorem dealsOut_regular (hn : n ≤ maxTxQueues) (hm : m ≤ maxTxQueues) :
    DealsOut (regularCalls q n m) q n m := by
  have hsum : (n + m) % 2 ^ 32 = n + m := by
    unfold maxTxQueues at hn hm
    omega
  unfold regularCalls
  rw [hsum]
  split
  · next hle => exact dealsOut_own hle
  · exact dealsOut_shared q n m

/-! ## The FCoE vectors -/

theorem mem_fcoeCalls {v ri ti : Nat} : c ∈ fcoeCalls h h 0 n v ri ti ↔
    ∃ j < h, c = fcoeRxCall n h v ri j ∨ c = fcoeTxCall n h v ti j := by
  simp only [fcoeCalls_start, List.mem_flatMap, List.mem_range, List.mem_cons, List.not_mem_nil,
    or_false]

theorem fcoe_apart (n h v ri ti : Nat) : (fcoeCalls h h 0 n v ri ti).Pairwise RingMap.Apart := by
  have hnotx (j i : Nat) : ¬(fcoeRxCall n h v ri j).Has .tx i := not_has_of_count rfl
  have hnorx (j i : Nat) : ¬(fcoeTxCall n h v ti j).Has .rx i := not_has_of_count rfl
  have hmixed {i j : Nat} (hi : i < h) : RingMap.Apart (fcoeRxCall n h v ri i)
      (fcoeTxCall n h v ti j) := by
    refine ⟨?_, fun kind a => ?_⟩
    · change v + i ≠ v + j + h
      omega
    · cases kind with
      | rx => exact fun _ => hnorx j a
      | tx => exact fun hhas => (hnotx i a hhas).elim
  rw [fcoeCalls_start, List.pairwise_flatMap]
  refine ⟨fun j hj => ?_, ?_⟩
  · rw [List.pairwise_pair]
    exact hmixed (List.mem_range.mp hj)
  · refine List.pairwise_lt_range.imp_of_mem fun {i j} hi hj hlt c hc d hd => ?_
    rw [List.mem_range] at hi hj
    have hne := Nat.ne_of_lt hlt
    simp only [List.mem_cons, List.not_mem_nil, or_false] at hc hd
    rcases hc with rfl | rfl
    · rcases hd with rfl | rfl
      · refine ⟨fun heq => hne (Nat.add_left_cancel heq), fun kind a => ?_⟩
        cases kind with
        | rx => exact not_has_of_hand (.inl rfl) hi hj hne rfl rfl rfl rfl rfl rfl
        | tx => exact fun hhas => (hnotx i a hhas).elim
      · exact hmixed hi
    · rcases hd with rfl | rfl
      · refine ⟨?_, fun kind a => ?_⟩
        · change v + i + h ≠ v + j
          omega
        · cases kind with
          | rx => exact fun hhas => (hnorx i a hhas).elim
          | tx => exact fun _ => hnotx j a
      · refine ⟨?_, fun kind a => ?_⟩
        · change v + i + h ≠ v + j + h
          omega
        · cases kind with
          | rx => exact fun hhas => (hnorx i a hhas).elim
          | tx => exact not_has_of_hand (.inl rfl) hi hj hne rfl rfl rfl rfl rfl rfl

theorem fcoe_vIdx {v ri ti x : Nat} :
    (∃ c ∈ fcoeCalls h h 0 n v ri ti, c.vIdx = x) ↔ v ≤ x ∧ x < v + 2 * h := by
  simp only [mem_fcoeCalls]
  constructor
  · rintro ⟨c, ⟨j, hj, rfl | rfl⟩, rfl⟩
    · change v ≤ v + j ∧ v + j < v + 2 * h
      omega
    · change v ≤ v + j + h ∧ v + j + h < v + 2 * h
      omega
  · rintro ⟨hle, hlt⟩
    by_cases hfirst : x < v + h
    · refine ⟨_, ⟨x - v, by omega, .inl rfl⟩, ?_⟩
      change v + (x - v) = x
      omega
    · refine ⟨_, ⟨x - v - h, by omega, .inr rfl⟩, ?_⟩
      change v + (x - v - h) + h = x
      omega

theorem fcoe_has {v ri ti : Nat} (hpos : 0 < h) (kind : RingKind) :
    (∃ c ∈ fcoeCalls h h 0 n v ri ti, c.Has kind i) ↔
      (match kind with | .rx => ri | .tx => ti) ≤ i ∧
        i < (match kind with | .rx => ri | .tx => ti) + n := by
  simp only [mem_fcoeCalls]
  cases kind with
  | rx =>
    have hiff : (∃ j < h, (fcoeRxCall n h v ri j).Has .rx i) ↔ ri ≤ i ∧ i < ri + n :=
      exists_has_iff hpos (.inl rfl) fun j => ⟨rfl, rfl, rfl⟩
    rw [← hiff]
    constructor
    · rintro ⟨c, ⟨j, hj, rfl | rfl⟩, hhas⟩
      · exact ⟨j, hj, hhas⟩
      · exact (not_has_of_count rfl hhas).elim
    · rintro ⟨j, hj, hhas⟩
      exact ⟨_, ⟨j, hj, .inl rfl⟩, hhas⟩
  | tx =>
    have hiff : (∃ j < h, (fcoeTxCall n h v ti j).Has .tx i) ↔ ti ≤ i ∧ i < ti + n :=
      exists_has_iff hpos (.inl rfl) fun j => ⟨rfl, rfl, rfl⟩
    rw [← hiff]
    constructor
    · rintro ⟨c, ⟨j, hj, rfl | rfl⟩, hhas⟩
      · exact (not_has_of_count rfl hhas).elim
      · exact ⟨j, hj, hhas⟩
    · rintro ⟨j, hj, hhas⟩
      exact ⟨_, ⟨j, hj, .inr rfl⟩, hhas⟩

/-! ## What is promised -/

namespace QueueAdapter

def numQueues (a : QueueAdapter) : RingKind → Nat
  | .tx => a.numTxQueues
  | .rx => a.numRxQueues

/-- Each queue has one ring, in one vector, and the adapter's pointer is to it. -/
def Dealt (a : QueueAdapter) (s : RingMap) : Prop :=
  ∀ kind, ∀ i < a.numQueues kind, ∃ v j q, v < a.numQVectors ∧ s.qVector v = some q ∧
    s.ring kind i = some (q, j) ∧ s.ringAt q j = some ⟨kind, i⟩ ∧
    ∀ v' j' q', v' < a.numQVectors → s.qVector v' = some q' → s.ringAt q' j' = some ⟨kind, i⟩ →
      v' = v ∧ j' = j

/-- `ixgbe_alloc_q_vectors` for an adapter without vectors does as it should. -/
def VectorsRight (kzalloc : Nat → Bool) (a : QueueAdapter) : Prop :=
  ∃ a' s rc, a.allocRingVectors kzalloc {} = .ok (a', s, rc) ∧ (rc = 0 → a.Dealt s) ∧
    (rc = -12 → s.Cleared)

/-- Where FCoE gets vectors of its own, there is no memory for the first of them, or memory for
    all vectors, and more vectors than FCoE takes. -/
def SplitSound (kzalloc : Nat → Bool) (a : QueueAdapter) : Prop :=
  a.Splits → a.numQVectors ≤ minMsixCount ∨ a.fcoeIndices ≠ 0 →
    kzalloc a.fcoeShare.qVectors = false ∨
      (∀ v < a.numQVectors, kzalloc v = true) ∧
        (a.numQVectors ≤ minMsixCount ∨ a.fcoeIndices * 2 < a.numQVectors)

/-- Queue counts that the arrays hold, with those of FCoE among them. -/
structure CountsFit (a : QueueAdapter) : Prop where
  pos : ∀ kind, 0 < a.numQueues kind
  le : ∀ kind, a.numQueues kind ≤ maxTxQueues
  fcoe : a.cnaEnabled = true → ∀ kind, a.fcoeIndices ≤ a.numQueues kind

structure VectorsFit (a : QueueAdapter) : Prop extends CountsFit a where
  vectors : 0 < a.numQVectors ∧ a.numQVectors ≤ maxMsixQVectors
  cna : a.cnaEnabled = true → minMsixQFcoeVectors < a.numQVectors

variable {a : QueueAdapter} {kzalloc : Nat → Bool} {s t : RingMap} {c : VectorCall} {e : QueueFault}
  {a' : QueueAdapter}

theorem dealt_of_tied (hs : s.Tied) (hvectors : ∀ v, (s.qVector v).isSome → v < a.numQVectors)
    (hrings : ∀ kind, ∀ i < a.numQueues kind, (s.ring kind i).isSome) : a.Dealt s := by
  intro kind i hi
  obtain ⟨⟨q, j⟩, hring⟩ := Option.isSome_iff_exists.mp (hrings kind i hi)
  have hat := (hs.rings kind i q j).mp hring
  have hlive : (s.vector q).isSome := by
    cases hq : s.vector q with
    | none =>
      rw [ringAt, hq] at hat
      cases hat
    | some rings => rfl
  obtain ⟨v, hv⟩ := (hs.owned q).mp hlive
  refine ⟨v, j, q, hvectors v (by rw [hv]; rfl), hv, hring, hat, fun v' j' q' _ hv' hat' => ?_⟩
  have hring' := (hs.rings kind i q' j').mpr hat'
  rw [hring] at hring'
  cases hring'
  exact ⟨hs.injective hv' hv, rfl⟩

theorem vIdx_of_split {calls pre post : List VectorCall}
    (hcalls : calls.map VectorCall.vIdx = List.range q) (hsplit : calls = pre ++ c :: post) :
    c.vIdx < q ∧ ∀ v, (∃ d ∈ pre, d.vIdx = v) ↔ v < c.vIdx := by
  rw [hsplit, List.map_append, List.map_cons] at hcalls
  have hlen := congrArg List.length hcalls
  rw [List.length_append, List.length_cons, List.length_map, List.length_map,
    List.length_range] at hlen
  have hc : c.vIdx = pre.length := by
    have hget := congrArg (fun l => l[pre.length]?) hcalls
    simp only [List.getElem?_append_right (Nat.le_of_eq (List.length_map _)), List.length_map,
      Nat.sub_self, List.getElem?_cons_zero] at hget
    rw [List.getElem?_range (by omega)] at hget
    exact Option.some.inj hget
  have hpre : pre.map VectorCall.vIdx = List.range pre.length := by
    have htake := congrArg (List.take pre.length) hcalls
    rwa [List.take_left' (List.length_map _), List.take_range, Nat.min_eq_left (by omega)] at htake
  refine ⟨by omega, fun v => ?_⟩
  rw [hc, ← List.mem_range, ← hpre, List.mem_map]

/-- **The loops behind the FCoE vectors**, up to the first vector without memory. -/
theorem run_regular {calls : List VectorCall} (hs : s.Tied) (hcalls : DealsOut calls q n m)
    (hq : q ≤ maxMsixQVectors) (hn : n ≤ maxTxQueues) (hm : m ≤ maxTxQueues)
    (hfree : ∀ v < q, s.qVector v = none) (hrx : ∀ i < n, s.ring .rx i = none)
    (htx : ∀ i < m, s.ring .tx i = none) :
    (∃ t, s.runCalls kzalloc calls = .ok (t, none) ∧ (∀ v < q, kzalloc v = true) ∧ t.Tied ∧
        RingMap.GivesAll s t calls) ∨
      ∃ t c, s.runCalls kzalloc calls = .ok (t, some c) ∧ c.vIdx < q ∧ kzalloc c.vIdx = false ∧
        t.Tied ∧ (∀ v, (t.qVector v).isSome ↔ v < c.vIdx ∨ (s.qVector v).isSome) ∧
        ∀ v p, s.qVector v = some p → t.qVector v = some p := by
  have hvIdx {c : VectorCall} (hc : c ∈ calls) : c.vIdx < q := by
    rw [← List.mem_range, ← hcalls.vIdx]
    exact List.mem_map_of_mem hc
  have hfits : ∀ c ∈ calls, s.Fits c := by
    intro c hc
    have hpos : 0 < q := Nat.zero_lt_of_lt (hvIdx hc)
    refine ⟨by rwa [hcalls.vCount c hc], (hvIdx hc).trans_le hq, fun kind i hi => ?_,
      hfree _ (hvIdx hc), fun kind i hi => ?_⟩
    · cases kind with
      | rx => exact ((hcalls.rx hpos i).mp ⟨c, hc, hi⟩).trans_le hn
      | tx => exact ((hcalls.tx hpos i).mp ⟨c, hc, hi⟩).trans_le hm
    · cases kind with
      | rx => exact hrx i ((hcalls.rx hpos i).mp ⟨c, hc, hi⟩)
      | tx => exact htx i ((hcalls.tx hpos i).mp ⟨c, hc, hi⟩)
  obtain ⟨t, pre, post, hrun, hsplit, hok, hfail, htied, hgives⟩ :=
    runCalls_spec hs hfits hcalls.apart
  cases post with
  | nil =>
    rw [List.append_nil] at hsplit
    subst hsplit
    refine .inl ⟨t, hrun, fun v hv => ?_, htied, hgives⟩
    rw [← List.mem_range, ← hcalls.vIdx] at hv
    obtain ⟨c, hc, rfl⟩ := List.mem_map.mp hv
    exact hok c hc
  | cons c post =>
    obtain ⟨hlt, hbelow⟩ := vIdx_of_split hcalls.vIdx hsplit
    refine .inr ⟨t, c, hrun, hlt, hfail c rfl, htied, fun v => ?_, hgives.kept⟩
    rw [hgives.qVector, hbelow]

/-! ### The ways through `ixgbe_alloc_q_vectors` -/

def fcoeList (a : QueueAdapter) : List VectorCall :=
  fcoeCalls a.fcoeShare.qSplit a.fcoeShare.qSplit 0 a.fcoeShare.fcoeI a.fcoeShare.qVectors
    (subU32 a.numRxQueues a.fcoeShare.fcoeI) (subU32 a.numTxQueues a.fcoeShare.fcoeI)

def regularList (a : QueueAdapter) : List VectorCall :=
  regularCalls a.fcoeShare.qVectors (subU32 a.numRxQueues a.fcoeShare.fcoeI)
    (subU32 a.numTxQueues a.fcoeShare.fcoeI)

def noQueues (a : QueueAdapter) : QueueAdapter :=
  { a with numTxQueues := 0, numRxQueues := 0, numQVectors := 0 }

theorem allocRingVectors_fault (h : runCalls kzalloc a.fcoeList {} = .error e) :
    a.allocRingVectors kzalloc {} = .error e := by
  change (runCalls kzalloc a.fcoeList {} >>= _) = _
  rw [h]
  rfl

theorem allocRingVectors_fcoe (h : runCalls kzalloc a.fcoeList {} = .ok (s, some c)) :
    a.allocRingVectors kzalloc {} = .ok (a.noQueues, s, -12) := by
  change (runCalls kzalloc a.fcoeList {} >>= _) = _
  rw [h]
  rfl

theorem allocRingVectors_regular {u : RingMap} (h : runCalls kzalloc a.fcoeList {} = .ok (s, none))
    (h' : s.runCalls kzalloc a.regularList = .ok (t, some c)) (hfree : t.freeBelow c.vIdx = .ok u) :
    a.allocRingVectors kzalloc {} = .ok (a.noQueues, u, -12) := by
  change (runCalls kzalloc a.fcoeList {} >>= _) = _
  rw [h, ok_bind]
  change (s.runCalls kzalloc a.regularList >>= _) = _
  rw [h', ok_bind]
  change (t.freeBelow c.vIdx >>= _) = _
  rw [hfree]
  rfl

theorem allocRingVectors_done (h : runCalls kzalloc a.fcoeList {} = .ok (s, none))
    (h' : s.runCalls kzalloc a.regularList = .ok (t, none)) :
    a.allocRingVectors kzalloc {} = .ok (a, t, 0) := by
  change (runCalls kzalloc a.fcoeList {} >>= _) = _
  rw [h, ok_bind]
  change (s.runCalls kzalloc a.regularList >>= _) = _
  rw [h']
  rfl

theorem vectorsRight_iff {rc : Int} (h : a.allocRingVectors kzalloc {} = .ok (a', s, rc)) :
    VectorsRight kzalloc a ↔ (rc = 0 → a.Dealt s) ∧ (rc = -12 → s.Cleared) := by
  constructor
  · rintro ⟨a'', s', rc', h', hright⟩
    rw [h] at h'
    cases h'
    exact hright
  · intro hright
    exact ⟨a', s, rc, h, hright⟩

theorem not_vectorsRight {v : Nat} (h : a.allocRingVectors kzalloc {} = .ok (a', s, -12))
    (hv : (s.qVector v).isSome) : ¬VectorsRight kzalloc a := by
  rw [vectorsRight_iff h]
  rintro ⟨-, hcleared⟩
  rw [(hcleared rfl).qVector] at hv
  cases hv

theorem not_vectorsRight_of_fault (h : a.allocRingVectors kzalloc {} = .error e) :
    ¬VectorsRight kzalloc a := by
  rintro ⟨a', s, rc, h', -⟩
  rw [h] at h'
  cases h'

theorem subU32_of_le (hle : m ≤ n) (hn : n < 2 ^ 32) : subU32 n m = n - m := by
  unfold subU32
  omega

theorem regularList_eq (hfit : a.VectorsFit)
    (hfcoe : ∀ kind, a.fcoeShare.fcoeI ≤ a.numQueues kind) :
    DealsOut a.regularList a.fcoeShare.qVectors (a.numQueues .rx - a.fcoeShare.fcoeI)
      (a.numQueues .tx - a.fcoeShare.fcoeI) := by
  have hsub (kind : RingKind) : subU32 (a.numQueues kind) a.fcoeShare.fcoeI =
      a.numQueues kind - a.fcoeShare.fcoeI := by
    have hle := hfit.le kind
    unfold maxTxQueues at hle
    exact subU32_of_le (hfcoe kind) (by omega)
  have hrx : subU32 a.numRxQueues a.fcoeShare.fcoeI = _ := hsub .rx
  have htx : subU32 a.numTxQueues a.fcoeShare.fcoeI = _ := hsub .tx
  unfold regularList
  rw [hrx, htx]
  exact dealsOut_regular ((Nat.sub_le ..).trans (hfit.le .rx)) ((Nat.sub_le ..).trans (hfit.le .tx))

theorem vectorsRight_of_plain (hfit : a.VectorsFit)
    (hplain : a.fcoeShare = ⟨a.numQVectors, 0, 0⟩) : VectorsRight kzalloc a := by
  have hfcoe : runCalls kzalloc a.fcoeList {} = .ok ({}, none) := by
    unfold fcoeList
    rw [hplain]
    rfl
  have hdeals := regularList_eq hfit fun kind => by
    rw [hplain]
    exact Nat.zero_le _
  rw [hplain] at hdeals
  rcases run_regular tied_empty hdeals hfit.vectors.2 (hfit.le .rx)
    (hfit.le .tx) (fun _ _ => rfl) (fun _ _ => rfl) (fun _ _ => rfl) with
    ⟨t, hrun, -, htied, hgives⟩ | ⟨t, c, hrun, -, -, htied, hvectors, -⟩
  · rw [vectorsRight_iff (allocRingVectors_done hfcoe hrun)]
    refine ⟨fun _ => dealt_of_tied htied (fun v hv => ?_) (fun kind i hi => ?_), nofun⟩
    · rw [hgives.qVector, or_iff_left (by nofun)] at hv
      obtain ⟨c, hc, rfl⟩ := hv
      rw [← List.mem_range, ← hdeals.vIdx]
      exact List.mem_map_of_mem hc
    · rw [hgives.ring]
      cases kind with
      | rx => exact .inl ((hdeals.rx hfit.vectors.1 i).mpr hi)
      | tx => exact .inl ((hdeals.tx hfit.vectors.1 i).mpr hi)
  · -- the vectors made so far are all freed
    obtain ⟨u, hu, hutied, hufree⟩ := freeBelow_spec htied
      (fun v hv => (hvectors v).mpr (.inl hv))
    rw [vectorsRight_iff (allocRingVectors_regular hfcoe hrun hu)]
    refine ⟨nofun, fun _ => hutied.cleared_iff.mpr fun v => ?_⟩
    rw [hufree]
    split
    · rfl
    · next hge =>
      rw [← Option.not_isSome_iff_eq_none, hvectors, not_or]
      exact ⟨hge, nofun⟩

/-! ### With FCoE vectors -/

/-- **The FCoE loop**, up to the first vector without memory. -/
theorem run_fcoe {v ri ti : Nat} (hpos : 0 < h) (hv : v + 2 * h ≤ maxMsixQVectors)
    (hri : ri + n ≤ maxTxQueues) (hti : ti + n ≤ maxTxQueues) (hfirst : kzalloc v = true) :
    (∃ t, runCalls kzalloc (fcoeCalls h h 0 n v ri ti) {} = .ok (t, none) ∧
        (∀ x, v ≤ x → x < v + 2 * h → kzalloc x = true) ∧ t.Tied ∧
        RingMap.GivesAll {} t (fcoeCalls h h 0 n v ri ti)) ∨
      ∃ t c, runCalls kzalloc (fcoeCalls h h 0 n v ri ti) {} = .ok (t, some c) ∧
        c.vIdx < v + 2 * h ∧ kzalloc c.vIdx = false ∧ (t.qVector v).isSome := by
  obtain ⟨calls, hcalls⟩ : ∃ calls, calls = fcoeCalls h h 0 n v ri ti := ⟨_, rfl⟩
  have hvIdx (x : Nat) : (∃ c ∈ calls, c.vIdx = x) ↔ v ≤ x ∧ x < v + 2 * h := by
    rw [hcalls]
    exact fcoe_vIdx
  have hfits : ∀ c ∈ calls, RingMap.Fits {} c := by
    intro c hc
    obtain ⟨-, hlt⟩ := (hvIdx c.vIdx).mp ⟨c, hc, rfl⟩
    refine ⟨?_, by omega, fun kind i hi => ?_, rfl, fun _ _ _ => rfl⟩
    · rw [hcalls, mem_fcoeCalls] at hc
      obtain ⟨j, -, rfl | rfl⟩ := hc
      · exact hpos
      · exact hpos
    · have hbound := (fcoe_has hpos kind).mp ⟨c, hcalls ▸ hc, hi⟩
      cases kind with
      | rx => exact hbound.2.trans_le hri
      | tx => exact hbound.2.trans_le hti
  rw [← hcalls]
  obtain ⟨t, pre, post, hrun, hsplit, hok, hfail, htied, hgives⟩ :=
    runCalls_spec tied_empty hfits (hcalls ▸ fcoe_apart ..)
  cases post with
  | nil =>
    rw [List.append_nil] at hsplit
    subst hsplit
    refine .inl ⟨t, hrun, fun x hle hlt => ?_, htied, hgives⟩
    obtain ⟨c, hc, rfl⟩ := (hvIdx x).mpr ⟨hle, hlt⟩
    exact hok c hc
  | cons c post =>
    have hc : c ∈ calls := by
      rw [hsplit]
      exact List.mem_append_right _ List.mem_cons_self
    refine .inr ⟨t, c, hrun, ((hvIdx c.vIdx).mp ⟨c, hc, rfl⟩).2, hfail c rfl, ?_⟩
    -- the first vector has been made
    obtain ⟨h', rfl⟩ : ∃ h', h = h' + 1 := ⟨h - 1, by omega⟩
    rw [hgives.qVector]
    rw [fcoeCalls, hsplit] at hcalls
    cases pre with
    | nil =>
      obtain rfl := (List.cons.inj hcalls).1
      rw [hfail _ rfl] at hfirst
      cases hfirst
    | cons d pre =>
      obtain rfl := (List.cons.inj hcalls).1
      exact .inl ⟨_, List.mem_cons_self, rfl⟩

variable {h : Nat}

theorem fcoeList_cons (hpos : 0 < h)
    (hshare : a.fcoeShare = ⟨subU32 a.numQVectors (h * 2), h, a.fcoeIndices⟩) :
    ∃ c rest, a.fcoeList = c :: rest ∧ c.vIdx = a.fcoeShare.qVectors := by
  obtain ⟨h', rfl⟩ : ∃ h', h = h' + 1 := ⟨h - 1, by omega⟩
  unfold fcoeList
  rw [hshare]
  exact ⟨_, _, rfl, rfl⟩

theorem vectorsRight_of_pairs (hfit : a.VectorsFit) (hsplits : a.Splits) (hpos : 0 < h)
    (hq : a.numQVectors = q + 2 * h) (hh : q = 0 → h = a.fcoeIndices)
    (hshare : a.fcoeShare = ⟨q, h, a.fcoeIndices⟩) (hfirst : kzalloc q = true) :
    VectorsRight kzalloc a ↔ (∀ v < a.numQVectors, kzalloc v = true) ∧ 0 < q := by
  obtain ⟨hfewer, hcna⟩ := hsplits
  have hvectors := hfit.vectors.2
  have hfcoe := hfit.fcoe hcna
  have hdeals := regularList_eq hfit fun kind => by
    rw [hshare]
    exact hfcoe kind
  rw [hshare] at hdeals
  dsimp only at hdeals
  have hlist : a.fcoeList = fcoeCalls h h 0 a.fcoeIndices q (a.numQueues .rx - a.fcoeIndices)
      (a.numQueues .tx - a.fcoeIndices) := by
    have hsub (kind : RingKind) : subU32 (a.numQueues kind) a.fcoeIndices =
        a.numQueues kind - a.fcoeIndices := by
      have hle := hfit.le kind
      unfold maxTxQueues at hle
      exact subU32_of_le (hfcoe kind) (by omega)
    rw [← hsub, ← hsub, fcoeList, hshare]
    rfl
  have hbound (kind : RingKind) :
      a.numQueues kind - a.fcoeIndices + a.fcoeIndices = a.numQueues kind :=
    Nat.sub_add_cancel (hfcoe kind)
  rcases run_fcoe (n := a.fcoeIndices) hpos (hq ▸ hvectors) ((hbound .rx).trans_le (hfit.le .rx))
    ((hbound .tx).trans_le (hfit.le .tx)) hfirst with
    ⟨s, hrun, hmem, hs, hgives⟩ | ⟨s, c, hrun, hlt, hmem, hleft⟩
  · rw [← hlist] at hrun
    have hhas (kind : RingKind) (i : Nat) : (s.ring kind i).isSome ↔
        a.numQueues kind - a.fcoeIndices ≤ i ∧ i < a.numQueues kind := by
      rw [hgives.ring, or_iff_left (by nofun), fcoe_has hpos]
      have hsum := hbound kind
      cases kind with
      | rx => rw [hsum]
      | tx => rw [hsum]
    have hfree {kind : RingKind} :
        ∀ i < a.numQueues kind - a.fcoeIndices, s.ring kind i = none := by
      intro i hi
      rw [← Option.not_isSome_iff_eq_none, hhas]
      omega
    have hvec (v : Nat) : (s.qVector v).isSome ↔ q ≤ v ∧ v < q + 2 * h := by
      rw [hgives.qVector, or_iff_left (by nofun), fcoe_vIdx]
    rcases run_regular hs hdeals (by omega)
      ((Nat.sub_le ..).trans (hfit.le .rx)) ((Nat.sub_le ..).trans (hfit.le .tx))
      (fun v hv => by
        rw [← Option.not_isSome_iff_eq_none, hvec]
        omega)
      hfree hfree with
      ⟨t, hrun', hmem', ht, hgives'⟩ | ⟨t, c, hrun', hlt, hmem', ht, hmade, hkept⟩
    · rw [vectorsRight_iff (allocRingVectors_done hrun hrun')]
      have hall : ∀ v < a.numQVectors, kzalloc v = true := by
        intro v hv
        by_cases hlt : v < q
        · exact hmem' v hlt
        · exact hmem v (by omega) (by omega)
      rw [and_iff_left (by nofun), and_iff_right hall]
      constructor
      · intro hdealt
        by_contra hzero
        obtain rfl : q = 0 := by omega
        -- there are more rings than FCoE has, and no vector for them
        have hnone : a.regularList = [] := by
          have hvIdx := hdeals.vIdx
          rw [List.range_zero, List.map_eq_nil_iff] at hvIdx
          exact hvIdx
        have hpair := hh rfl
        obtain ⟨kind, hmore⟩ : ∃ kind, a.fcoeIndices < a.numQueues kind := by
          by_cases hrx : a.fcoeIndices < a.numRxQueues
          · exact ⟨.rx, hrx⟩
          · refine ⟨.tx, ?_⟩
            change a.fcoeIndices < a.numTxQueues
            omega
        obtain ⟨v, j, p, -, -, hring, -⟩ := hdealt rfl kind 0 (by omega)
        rw [hnone] at hgives'
        have hsome := (hgives'.ring kind 0).mp (by rw [hring]; rfl)
        rw [or_iff_right (by simp), hhas] at hsome
        omega
      · intro hq' _
        refine dealt_of_tied ht (fun v hv => ?_) fun kind i hi => ?_
        · rw [hgives'.qVector, hvec] at hv
          rcases hv with ⟨c, hc, rfl⟩ | ⟨-, hlt⟩
          · have hc' : c.vIdx < q := by
              rw [← List.mem_range, ← hdeals.vIdx]
              exact List.mem_map_of_mem hc
            omega
          · omega
        · rw [hgives'.ring, hhas]
          by_cases hlt : i < a.numQueues kind - a.fcoeIndices
          · cases kind with
            | rx => exact .inl ((hdeals.rx hq' i).mpr hlt)
            | tx => exact .inl ((hdeals.tx hq' i).mpr hlt)
          · exact .inr ⟨Nat.not_lt.mp hlt, hi⟩
    · -- the FCoE vectors are not below the one that fails
      refine iff_of_false ?_ fun hall => ?_
      · obtain ⟨p, hp⟩ := Option.isSome_iff_exists.mp ((hvec q).mpr ⟨Nat.le_refl q, by omega⟩)
        obtain ⟨u, hu, -, hrest⟩ := freeBelow_spec ht fun v hv => (hmade v).mpr (.inl hv)
        apply not_vectorsRight (allocRingVectors_regular hrun hrun' hu) (v := q)
        rw [hrest, if_neg (by omega), hkept q p hp]
        rfl
      · rw [hall.1 _ (by omega)] at hmem'
        cases hmem'
  · rw [← hlist] at hrun
    refine iff_of_false (not_vectorsRight (allocRingVectors_fcoe hrun) hleft) fun hall => ?_
    rw [hall.1 _ (by omega)] at hmem
    cases hmem

theorem vectorsRight_of_split (hfit : a.VectorsFit) (hsplits : a.Splits) (hpos : 0 < h)
    (hh : h ≤ maxTxQueues) (hh' : h = a.fcoeIndices ∨ h * 2 < a.numQVectors)
    (hshare : a.fcoeShare = ⟨subU32 a.numQVectors (h * 2), h, a.fcoeIndices⟩) :
    VectorsRight kzalloc a ↔ kzalloc a.fcoeShare.qVectors = false ∨
      (∀ v < a.numQVectors, kzalloc v = true) ∧ h * 2 < a.numQVectors := by
  have hvectors := hfit.vectors.2
  by_cases hfirst : kzalloc a.fcoeShare.qVectors = false
  · -- nothing has been made
    refine iff_of_true ?_ (.inl hfirst)
    obtain ⟨c, rest, hlist, hc⟩ := fcoeList_cons hpos hshare
    have hrun : runCalls kzalloc a.fcoeList {} = .ok ({}, some c) := by
      rw [hlist, runCalls, ixgbeAllocQVector, hc, hfirst]
      rfl
    rw [vectorsRight_iff (allocRingVectors_fcoe hrun)]
    exact ⟨(by simp), fun _ => tied_empty.cleared_iff.mpr fun _ => rfl⟩
  · rw [or_iff_right hfirst]
    rw [Bool.not_eq_false] at hfirst
    by_cases hle : h * 2 ≤ a.numQVectors
    · obtain ⟨q, hq⟩ : ∃ q, a.numQVectors = q + 2 * h := ⟨a.numQVectors - 2 * h, by omega⟩
      have hfirst' : subU32 a.numQVectors (h * 2) = q := by
        unfold maxMsixQVectors at hvectors
        rw [subU32_of_le hle (by omega)]
        omega
      rw [hfirst'] at hshare
      rw [vectorsRight_of_pairs hfit hsplits hpos hq (by omega) hshare (by rwa [hshare] at hfirst)]
      refine and_congr_right fun _ => ?_
      omega
    · -- the number wraps
      refine iff_of_false ?_ fun hall => by omega
      obtain ⟨c, rest, hlist, hc⟩ := fcoeList_cons hpos hshare
      refine not_vectorsRight_of_fault (e := .qVector) (allocRingVectors_fault ?_)
      have hwrap : maxMsixQVectors ≤ a.fcoeShare.qVectors := by
        rw [hshare]
        unfold maxMsixQVectors subU32
        unfold maxTxQueues at hh
        dsimp only
        omega
      rw [hlist, runCalls, ixgbeAllocQVector, hc, hfirst, if_neg (by decide),
        if_pos hwrap]
      rfl

/-- **When `ixgbe_alloc_q_vectors` does as it should.** -/
theorem vectorsRight_iff_splitSound (hfit : a.VectorsFit) :
    VectorsRight kzalloc a ↔ SplitSound kzalloc a := by
  unfold SplitSound
  by_cases hsplits : a.Splits
  · by_cases hmany : minMsixCount < a.numQVectors
    · have hshare : a.fcoeShare =
          ⟨subU32 a.numQVectors (a.fcoeIndices * 2), a.fcoeIndices, a.fcoeIndices⟩ := by
        rw [fcoeShare, if_neg (not_not.mpr hsplits), if_pos hmany]
      by_cases hzero : a.fcoeIndices = 0
      · -- no FCoE queues, and so no pairs
        refine iff_of_true (vectorsRight_of_plain hfit ?_) fun _ h => by omega
        rw [hshare, hzero, Nat.zero_mul, subU32_of_le (Nat.zero_le _) _, Nat.sub_zero]
        have hvectors := hfit.vectors.2
        unfold maxMsixQVectors at hvectors
        omega
      · rw [vectorsRight_of_split hfit hsplits (Nat.pos_of_ne_zero hzero)
          ((hfit.fcoe hsplits.2 .rx).trans (hfit.le .rx)) (.inl rfl) hshare]
        simp only [hsplits, hzero, Nat.not_le.mpr hmany, ne_eq, not_false_eq_true, or_true,
          forall_const, false_or]
    · have hfew := Nat.not_lt.mp hmany
      have hshare : a.fcoeShare = ⟨subU32 a.numQVectors (1 * 2), 1, a.fcoeIndices⟩ := by
        rw [fcoeShare, if_neg (not_not.mpr hsplits), if_neg hmany]
        rfl
      have hcna : 1 * 2 < a.numQVectors := hfit.cna hsplits.2
      rw [vectorsRight_of_split hfit hsplits Nat.one_pos (by decide) (.inr hcna) hshare]
      simp only [hsplits, hfew, hcna, true_or, forall_const]
  · refine iff_of_true (vectorsRight_of_plain hfit ?_) fun h => absurd h hsplits
    rw [fcoeShare, if_pos hsplits]

end QueueAdapter

end VmkDrivers.Wfs
