/-
  VmkDrivers.Wfs.QVectors

  The interrupt vectors of a port and the rings inside them
  (`ixgbe_alloc_q_vectors`).

  A vector is one piece of memory with its rings at the end; `q_vector[]`,
  `tx_ring[]` and `rx_ring[]` of the adapter point into it.  The pointers and
  the vectors agree all along (`RingMap.Tied`): what an allocation or a free
  does to them is said once, and then for a list of allocations
  (`runCalls_spec`) and for the frees of the error path (`freeBelow_spec`).

  A vector is named by its address, which is the number of its allocation.
-/

import VmkDrivers.Wfs.TxQueues

namespace VmkDrivers.Wfs

open VmkDrivers.Lib

/-! ## Vectors -/

inductive RingKind where
  | tx
  | rx
deriving DecidableEq, Repr

/-- A ring of a vector, in `tx_ring[]` or `rx_ring[]` under its `queue_index`. -/
structure QRing where
  kind : RingKind
  queueIndex : Nat
deriving DecidableEq, Repr

structure RingMap where
  /-- The vectors that are allocated, with `q_vector->ring[]`. -/
  vector : Nat → Option (List QRing) := fun _ => none
  qVector : Nat → Option Nat := fun _ => none
  /-- `tx_ring[]` and `rx_ring[]`: a vector and a place in its `ring[]`. -/
  ring : RingKind → Nat → Option (Nat × Nat) := fun _ _ => none
  next : Nat := 0

/-- The arguments of a call of `ixgbe_alloc_q_vector`. -/
structure VectorCall where
  vCount : Nat
  vIdx : Nat
  txrCount : Nat
  txrIdx : Nat
  rxrCount : Nat
  rxrIdx : Nat
deriving DecidableEq, Repr

namespace VectorCall

def count (c : VectorCall) : RingKind → Nat
  | .tx => c.txrCount
  | .rx => c.rxrCount

def idx (c : VectorCall) : RingKind → Nat
  | .tx => c.txrIdx
  | .rx => c.rxrIdx

/-- The queue `i` gets a ring in the vector. -/
def Has (c : VectorCall) (kind : RingKind) (i : Nat) : Prop :=
  ∃ k < c.count kind, i = c.idx kind + k * c.vCount

end VectorCall

namespace RingMap

def setRing (s : RingMap) (kind : RingKind) (idx : Nat) (p : Option (Nat × Nat)) : RingMap :=
  { s with ring := Function.update s.ring kind (Function.update (s.ring kind) idx p) }

/-- A turn of the loops over the rings of the vector `q`. -/
def addRing (s : RingMap) (kind : RingKind) (q idx : Nat) : Except QueueFault RingMap :=
  if idx < maxTxQueues then
    let rings := (s.vector q).getD []
    let ring : QRing := ⟨kind, idx⟩
    let s := { s with vector := Function.update s.vector q (some (rings ++ [ring])) }
    .ok (s.setRing kind idx (some (q, rings.length)))
  else .error .txRing

/-- `while (txr_count)` and `while (rxr_count)`. -/
def addRings (kind : RingKind) (q vCount : Nat) :
    (count idx : Nat) → RingMap → Except QueueFault RingMap
  | 0, _, s => .ok s
  | count + 1, idx, s => do
    let s ← s.addRing kind q idx
    addRings kind q vCount count (idx + vCount) s

/-- `ixgbe_alloc_q_vector`, and whether it returns 0. -/
def ixgbeAllocQVector (kzalloc : Nat → Bool) (c : VectorCall) (s : RingMap) :
    Except QueueFault (RingMap × Bool) :=
  if !kzalloc c.vIdx then .ok (s, false)
  -- tie q_vector and adapter together
  else if maxMsixQVectors ≤ c.vIdx then .error .qVector
  else do
    let q := s.next
    let s := { s with
      vector := Function.update s.vector q (some [])
      qVector := Function.update s.qVector c.vIdx (some q)
      next := q + 1 }
    let s ← addRings .tx q c.vCount c.txrCount c.txrIdx s
    let s ← addRings .rx q c.vCount c.rxrCount c.rxrIdx s
    pure (s, true)

def ixgbeFreeQVector (s : RingMap) (vIdx : Nat) : Except QueueFault RingMap :=
  match s.qVector vIdx with
  | none => .error .qVector
  | some q =>
    let rings := (s.vector q).getD []
    .ok { s with
      ring := fun kind idx => if ⟨kind, idx⟩ ∈ rings then none else s.ring kind idx
      qVector := Function.update s.qVector vIdx none
      vector := Function.update s.vector q none }

/-- `while (v_idx--) ixgbe_free_q_vector(adapter, v_idx)`. -/
def freeBelow : Nat → RingMap → Except QueueFault RingMap
  | 0, s => .ok s
  | vIdx + 1, s => do
    let s ← s.ixgbeFreeQVector vIdx
    freeBelow vIdx s

/-- Calls of `ixgbe_alloc_q_vector` up to the first one that fails, which is returned. -/
def runCalls (kzalloc : Nat → Bool) :
    List VectorCall → RingMap → Except QueueFault (RingMap × Option VectorCall)
  | [], s => .ok (s, none)
  | c :: rest, s => do
    let (s, ok) ← s.ixgbeAllocQVector kzalloc c
    if ok then runCalls kzalloc rest s else pure (s, some c)

end RingMap

/-! ## Loops -/

open QueueAdapter (divRoundUp subU32)

/-- "map fcoe queues to vectors at end", from turn `i` on. -/
def fcoeCalls (qSplit : Nat) : (turns i fcoeI fcoeVidx fcoeRxq fcoeTxq : Nat) → List VectorCall
  | 0, _, _, _, _, _ => []
  | turns + 1, i, fcoeI, fcoeVidx, fcoeRxq, fcoeTxq =>
    let fqpv := divRoundUp fcoeI (qSplit - i)
    ⟨qSplit, fcoeVidx, 0, 0, fqpv, fcoeRxq⟩ ::
      ⟨qSplit, fcoeVidx + qSplit, fqpv, fcoeTxq, 0, 0⟩ ::
        fcoeCalls qSplit turns (i + 1) (fcoeI - fqpv) (fcoeVidx + 1) (fcoeRxq + 1) (fcoeTxq + 1)

def rxCalls (qVectors : Nat) : (rxrRemaining vIdx rxrIdx : Nat) → List VectorCall
  | 0, _, _ => []
  | rxrRemaining + 1, vIdx, rxrIdx =>
    ⟨qVectors, vIdx, 0, 0, 1, rxrIdx⟩ :: rxCalls qVectors rxrRemaining (vIdx + 1) (rxrIdx + 1)

/-- The vectors that share the remaining rings; there are `turns` vectors left. -/
def sharedCalls (qVectors : Nat) :
    (turns vIdx rxrRemaining txrRemaining rxrIdx txrIdx : Nat) → List VectorCall
  | 0, _, _, _, _, _ => []
  | turns + 1, vIdx, rxrRemaining, txrRemaining, rxrIdx, txrIdx =>
    let rqpv := divRoundUp rxrRemaining (qVectors - vIdx)
    let tqpv := divRoundUp txrRemaining (qVectors - vIdx)
    ⟨qVectors, vIdx, tqpv, txrIdx, rqpv, rxrIdx⟩ ::
      sharedCalls qVectors turns (vIdx + 1) (rxrRemaining - rqpv) (txrRemaining - tqpv)
        (rxrIdx + 1) (txrIdx + 1)

def regularCalls (qVectors rxrRemaining txrRemaining : Nat) : List VectorCall :=
  if (rxrRemaining + txrRemaining) % 2 ^ 32 ≤ qVectors then
    rxCalls qVectors rxrRemaining 0 0 ++
      sharedCalls qVectors (qVectors - rxrRemaining) rxrRemaining 0 txrRemaining rxrRemaining 0
  else sharedCalls qVectors qVectors 0 rxrRemaining txrRemaining 0 0

structure FcoeShare where
  qVectors : Nat
  qSplit : Nat := 0
  fcoeI : Nat := 0
deriving DecidableEq, Repr

namespace QueueAdapter

def Splits (a : QueueAdapter) : Prop :=
  a.numQVectors < a.numRxQueues + a.numTxQueues ∧ a.cnaEnabled = true

instance (a : QueueAdapter) : Decidable a.Splits := inferInstanceAs (Decidable (_ ∧ _))

def fcoeShare (a : QueueAdapter) : FcoeShare :=
  if ¬a.Splits then ⟨a.numQVectors, 0, 0⟩
  else if minMsixCount < a.numQVectors then
    ⟨subU32 a.numQVectors (a.fcoeIndices * 2), a.fcoeIndices, a.fcoeIndices⟩
  else ⟨subU32 a.numQVectors minMsixQFcoeVectors, minMsixQFcoeVectors / 2, a.fcoeIndices⟩

/-- Label `err_out`. -/
def vectorsErrOut (vIdx : Nat) (a : QueueAdapter) (s : RingMap) :
    Except QueueFault (QueueAdapter × RingMap × Int) := do
  let s ← s.freeBelow vIdx
  pure ({ a with numTxQueues := 0, numRxQueues := 0, numQVectors := 0 }, s, -12)

/-- `ixgbe_alloc_q_vectors`; `kzalloc` is whether there is memory for each vector. -/
def allocRingVectors (kzalloc : Nat → Bool) (a : QueueAdapter) (s : RingMap) :
    Except QueueFault (QueueAdapter × RingMap × Int) := do
  let d := a.fcoeShare
  let rxrRemaining := subU32 a.numRxQueues d.fcoeI
  let txrRemaining := subU32 a.numTxQueues d.fcoeI
  match ← s.runCalls kzalloc
      (fcoeCalls d.qSplit d.qSplit 0 d.fcoeI d.qVectors rxrRemaining txrRemaining) with
  -- `v_idx` is still 0
  | (s, some _) => vectorsErrOut 0 a s
  | (s, none) =>
    match ← s.runCalls kzalloc (regularCalls d.qVectors rxrRemaining txrRemaining) with
    | (s, some c) => vectorsErrOut c.vIdx a s
    | (s, none) => pure (a, s, 0)

end QueueAdapter

/-! ## The pointers and the vectors -/

namespace RingMap

/-- The ring in a place of a vector's `ring[]`. -/
def ringAt (s : RingMap) (q j : Nat) : Option QRing := (s.vector q).bind fun rings => rings[j]?

/-- The pointers to rings and the rings in the vectors are each other's, and each vector is in one
    place of `q_vector[]`. -/
structure Tied (s : RingMap) : Prop where
  rings : ∀ kind idx q j, s.ring kind idx = some (q, j) ↔ s.ringAt q j = some ⟨kind, idx⟩
  owned : ∀ q, (s.vector q).isSome ↔ ∃ v, s.qVector v = some q
  injective : ∀ {v v' q}, s.qVector v = some q → s.qVector v' = some q → v = v'
  fresh : ∀ q, (s.vector q).isSome → q < s.next

theorem tied_empty : Tied {} := by
  constructor
  · intro kind idx q j
    exact iff_of_false nofun nofun
  · intro q
    exact iff_of_false nofun fun ⟨v, h⟩ => nomatch h
  · intro v v' q h _
    cases h
  · intro q h
    cases h

variable {s t : RingMap} {kind : RingKind} {q idx : Nat} {u : RingMap} {c : VectorCall}
  {calls : List VectorCall}

structure SameVectors (s t : RingMap) : Prop where
  qVector : t.qVector = s.qVector
  next : t.next = s.next
  live : ∀ q, (t.vector q).isSome = (s.vector q).isSome

theorem SameVectors.refl (s : RingMap) : SameVectors s s := ⟨rfl, rfl, fun _ => rfl⟩

theorem SameVectors.trans (h : SameVectors s t) (h' : SameVectors t u) : SameVectors s u :=
  ⟨h'.qVector.trans h.qVector, h'.next.trans h.next, fun q => (h'.live q).trans (h.live q)⟩

theorem setRing_apply (s : RingMap) (kind kind' : RingKind) (idx idx' : Nat)
    (p : Option (Nat × Nat)) : (s.setRing kind idx p).ring kind' idx' =
      if kind' = kind ∧ idx' = idx then p else s.ring kind' idx' := by
  unfold setRing
  by_cases hkind : kind' = kind
  · subst hkind
    by_cases hidx : idx' = idx
    · simp [hidx]
    · simp [hidx]
  · simp [hkind]

theorem addRing_eq {rings : List QRing} (hrings : s.vector q = some rings)
    (hidx : idx < maxTxQueues) : ∃ t, s.addRing kind q idx = .ok t ∧ SameVectors s t ∧
      (∀ kind' idx', t.ring kind' idx' =
        if kind' = kind ∧ idx' = idx then some (q, rings.length) else s.ring kind' idx') ∧
      ∀ q' j, t.ringAt q' j =
        if q' = q ∧ j = rings.length then some ⟨kind, idx⟩ else s.ringAt q' j := by
  have hvector : (s.vector q).getD [] = rings := by
    rw [hrings]
    rfl
  unfold addRing
  rw [if_pos hidx, hvector]
  refine ⟨_, rfl, ⟨rfl, rfl, fun q' => ?_⟩, fun kind' idx' => setRing_apply _ _ _ _ _ _,
    fun q' j => ?_⟩
  · change (Function.update s.vector q _ q').isSome = _
    by_cases hsame : q' = q
    · rw [hsame, Function.update_self, hrings]
      rfl
    · rw [Function.update_of_ne hsame]
  · change (Function.update s.vector q _ q').bind _ = _
    unfold ringAt
    by_cases hsame : q' = q
    · subst hsame
      rw [Function.update_self, hrings]
      change (rings ++ [_])[j]? = _
      rw [List.getElem?_append]
      by_cases hlt : j < rings.length
      · rw [if_pos hlt, if_neg (by omega)]
        rfl
      · rw [if_neg hlt]
        by_cases hend : j = rings.length
        · rw [if_pos ⟨rfl, hend⟩, hend, Nat.sub_self]
          rfl
        · rw [if_neg fun h => hend h.2,
            List.getElem?_eq_none (by rw [List.length_singleton]; omega)]
          exact (List.getElem?_eq_none (by omega)).symm
    · rw [Function.update_of_ne hsame, if_neg fun h => hsame h.1]

/-- **A ring** for a queue that has none. -/
theorem addRing_spec (hs : s.Tied) (hq : (s.vector q).isSome) (hidx : idx < maxTxQueues)
    (hnone : s.ring kind idx = none) :
    ∃ t, s.addRing kind q idx = .ok t ∧ t.Tied ∧ SameVectors s t ∧
      ∀ kind' idx', (t.ring kind' idx').isSome ↔
        (kind' = kind ∧ idx' = idx) ∨ (s.ring kind' idx').isSome := by
  obtain ⟨rings, hrings⟩ := Option.isSome_iff_exists.mp hq
  obtain ⟨t, ht, hsame, hring, hat⟩ := addRing_eq hrings hidx
  have hbehind : s.ringAt q rings.length = none := by
    rw [ringAt, hrings]
    exact List.getElem?_eq_none (Nat.le_refl _)
  refine ⟨t, ht, ⟨fun kind' idx' q' j => ?_, fun q' => ?_, ?_, fun q' h => ?_⟩, hsame,
    fun kind' idx' => ?_⟩
  · rw [hring, hat]
    by_cases hself : kind' = kind ∧ idx' = idx
    · obtain ⟨rfl, rfl⟩ := hself
      rw [if_pos ⟨rfl, rfl⟩]
      by_cases hplace : q' = q ∧ j = rings.length
      · rw [if_pos hplace, hplace.1, hplace.2]
        exact iff_of_true rfl rfl
      · rw [if_neg hplace, ← hs.rings, hnone]
        refine iff_of_false (fun h => hplace ?_) nofun
        cases h
        exact ⟨rfl, rfl⟩
    · rw [if_neg hself, hs.rings]
      by_cases hplace : q' = q ∧ j = rings.length
      · rw [if_pos hplace, hplace.1, hplace.2, hbehind]
        refine iff_of_false nofun fun h => hself ?_
        obtain ⟨rfl, rfl⟩ := QRing.mk.inj (Option.some.inj h)
        exact ⟨rfl, rfl⟩
      · rw [if_neg hplace]
  · rw [hsame.live, hsame.qVector]
    exact hs.owned q'
  · rw [hsame.qVector]
    exact hs.injective
  · rw [hsame.live] at h
    rw [hsame.next]
    exact hs.fresh q' h
  · rw [hring]
    split
    · next hself => exact iff_of_true rfl (.inl hself)
    · next hself => rw [or_iff_right hself]

theorem addRings_spec {vCount count : Nat} (hs : s.Tied) (hq : (s.vector q).isSome)
    (hstride : 0 < vCount) (hidx : ∀ k < count, idx + k * vCount < maxTxQueues)
    (hnone : ∀ k < count, s.ring kind (idx + k * vCount) = none) :
    ∃ t, addRings kind q vCount count idx s = .ok t ∧ t.Tied ∧ SameVectors s t ∧
      ∀ kind' idx', (t.ring kind' idx').isSome ↔
        (kind' = kind ∧ ∃ k < count, idx' = idx + k * vCount) ∨ (s.ring kind' idx').isSome := by
  induction count generalizing idx s with
  | zero =>
    refine ⟨s, rfl, hs, .refl s, fun kind' idx' => ?_⟩
    rw [or_iff_right]
    rintro ⟨-, k, hk, -⟩
    omega
  | succ count ih =>
    have hzero : idx + 0 * vCount = idx := by omega
    have hshift (k : Nat) : idx + vCount + k * vCount = idx + (k + 1) * vCount := by
      rw [Nat.succ_mul]
      omega
    obtain ⟨u, hu, htied, hsame, hring⟩ := addRing_spec hs hq
      (hzero ▸ hidx 0 (Nat.succ_pos count)) (hzero ▸ hnone 0 (Nat.succ_pos count))
    -- the rings still to come lie behind the one just added
    have hfree : ∀ k < count, u.ring kind (idx + vCount + k * vCount) = none := by
      intro k hk
      rw [hshift, ← Option.not_isSome_iff_eq_none, hring, not_or]
      refine ⟨fun h => ?_, ?_⟩
      · have hpos : 0 < (k + 1) * vCount := Nat.mul_pos (Nat.succ_pos k) hstride
        omega
      · rw [Option.not_isSome_iff_eq_none]
        exact hnone (k + 1) (Nat.succ_lt_succ hk)
    obtain ⟨t, ht, htied', hsame', hring'⟩ := ih htied (by rwa [hsame.live])
      (fun k hk => by rw [hshift]; exact hidx (k + 1) (Nat.succ_lt_succ hk)) hfree
    refine ⟨t, by rw [addRings, hu]; exact ht, htied', hsame.trans hsame', fun kind' idx' => ?_⟩
    rw [hring', hring, ← or_assoc]
    refine or_congr_left ?_
    constructor
    · rintro (⟨hkind, k, hk, hidx'⟩ | ⟨hkind, hidx'⟩)
      · exact ⟨hkind, k + 1, Nat.succ_lt_succ hk, by rw [hidx', hshift]⟩
      · exact ⟨hkind, 0, Nat.succ_pos count, by rw [hidx', hzero]⟩
    · rintro ⟨hkind, k, hk, hidx'⟩
      cases k with
      | zero => exact .inr ⟨hkind, by rw [hidx', hzero]⟩
      | succ k => exact .inl ⟨hkind, k, Nat.lt_of_succ_lt_succ hk, by rw [hidx', hshift]⟩

/-! ## Allocations -/

structure Fits (s : RingMap) (c : VectorCall) : Prop where
  stride : 0 < c.vCount
  vector : c.vIdx < maxMsixQVectors
  bound : ∀ kind i, c.Has kind i → i < maxTxQueues
  free : s.qVector c.vIdx = none
  none : ∀ kind i, c.Has kind i → s.ring kind i = none

structure Gives (s t : RingMap) (c : VectorCall) : Prop where
  qVector : ∀ v, t.qVector v = if v = c.vIdx then some s.next else s.qVector v
  live : ∀ q, (t.vector q).isSome ↔ q = s.next ∨ (s.vector q).isSome
  ring : ∀ kind i, (t.ring kind i).isSome ↔ c.Has kind i ∨ (s.ring kind i).isSome

/-- **`ixgbe_alloc_q_vector`** with memory. -/
theorem ixgbeAllocQVector_spec {kzalloc : Nat → Bool} (hs : s.Tied) (hc : s.Fits c)
    (hmem : kzalloc c.vIdx = true) :
    ∃ t, s.ixgbeAllocQVector kzalloc c = .ok (t, true) ∧ t.Tied ∧ Gives s t c := by
  obtain ⟨u, hu⟩ : ∃ u : RingMap, u = { s with
      vector := Function.update s.vector s.next (some [])
      qVector := Function.update s.qVector c.vIdx (some s.next)
      next := s.next + 1 } := ⟨_, rfl⟩
  have hnew : s.vector s.next = Option.none := by
    rw [← Option.not_isSome_iff_eq_none]
    exact fun h => Nat.lt_irrefl _ (hs.fresh _ h)
  have hvector (v : Nat) : u.qVector v = if v = c.vIdx then some s.next else s.qVector v := by
    rw [hu]
    exact Function.update_apply ..
  have hlive (q : Nat) : (u.vector q).isSome ↔ q = s.next ∨ (s.vector q).isSome := by
    rw [hu]
    change (Function.update s.vector s.next _ q).isSome ↔ _
    rw [Function.update_apply]
    split
    · next hq => exact iff_of_true rfl (.inl hq)
    · next hq => rw [or_iff_right hq]
  have hat (q j : Nat) : u.ringAt q j = s.ringAt q j := by
    rw [hu]
    change (Function.update s.vector s.next _ q).bind _ = _
    unfold ringAt
    by_cases hq : q = s.next
    · rw [hq, Function.update_self, hnew]
      rfl
    · rw [Function.update_of_ne hq]
  have hring : u.ring = s.ring := by rw [hu]
  have htied : u.Tied := by
    constructor
    · intro kind idx q j
      rw [hring, hat]
      exact hs.rings kind idx q j
    · intro q
      rw [hlive, hs.owned]
      constructor
      · rintro (rfl | ⟨v, hv⟩)
        · exact ⟨c.vIdx, by rw [hvector, if_pos rfl]⟩
        · refine ⟨v, ?_⟩
          rw [hvector, if_neg, hv]
          rintro rfl
          rw [hc.free] at hv
          cases hv
      · rintro ⟨v, hv⟩
        rw [hvector] at hv
        split at hv
        · exact .inl (Option.some.inj hv).symm
        · exact .inr ⟨v, hv⟩
    · intro v v' q hv hv'
      have hold {v : Nat} (hv : s.qVector v = some s.next) : False :=
        Nat.lt_irrefl _ (hs.fresh _ ((hs.owned _).mpr ⟨v, hv⟩))
      rw [hvector] at hv hv'
      split at hv
      · next h =>
        cases hv
        split at hv'
        · next h' => rw [h, h']
        · exact (hold hv').elim
      · split at hv'
        · cases hv'
          exact (hold hv).elim
        · exact hs.injective hv hv'
    · intro q h
      have hnext : u.next = s.next + 1 := by rw [hu]
      rw [hnext]
      rcases (hlive q).mp h with rfl | hq
      · exact Nat.lt_succ_self _
      · exact Nat.lt_succ_of_lt (hs.fresh q hq)
  -- the transmit rings and then the receive rings
  have hulive : (u.vector s.next).isSome := (hlive _).mpr (.inl rfl)
  have htxNone : ∀ k < c.txrCount, u.ring .tx (c.txrIdx + k * c.vCount) = Option.none := by
    intro k hk
    rw [hring]
    exact hc.none .tx _ ⟨k, hk, rfl⟩
  have htxBound : ∀ k < c.txrCount, c.txrIdx + k * c.vCount < maxTxQueues :=
    fun k hk => hc.bound .tx _ ⟨k, hk, rfl⟩
  obtain ⟨w, hw, hwtied, hwsame, hwring⟩ :=
    addRings_spec htied hulive hc.stride htxBound htxNone
  have hwlive : (w.vector s.next).isSome := by
    rw [hwsame.live]
    exact hulive
  have hrxNone : ∀ k < c.rxrCount, w.ring .rx (c.rxrIdx + k * c.vCount) = Option.none := by
    intro k hk
    have hfree : s.ring .rx (c.rxrIdx + k * c.vCount) = Option.none := hc.none .rx _ ⟨k, hk, rfl⟩
    rw [← Option.not_isSome_iff_eq_none, hwring, not_or, hring, hfree]
    exact ⟨fun h => RingKind.noConfusion h.1, nofun⟩
  have hrxBound : ∀ k < c.rxrCount, c.rxrIdx + k * c.vCount < maxTxQueues :=
    fun k hk => hc.bound .rx _ ⟨k, hk, rfl⟩
  obtain ⟨t, ht, httied, htsame, htring⟩ :=
    addRings_spec hwtied hwlive hc.stride hrxBound hrxNone
  have hsame := hwsame.trans htsame
  refine ⟨t, ?_, httied, ⟨fun v => ?_, fun q => ?_, fun kind i => ?_⟩⟩
  · unfold ixgbeAllocQVector
    rw [hmem, if_neg (by decide), if_neg (Nat.not_le.mpr hc.vector)]
    dsimp only
    rw [← hu, hw, ok_bind, ht]
    rfl
  · rw [hsame.qVector]
    exact hvector v
  · rw [hsame.live]
    exact hlive q
  · rw [htring, hwring, hring]
    cases kind with
    | tx => simp [VectorCall.Has, VectorCall.count, VectorCall.idx]
    | rx => simp [VectorCall.Has, VectorCall.count, VectorCall.idx]

def Apart (c d : VectorCall) : Prop :=
  c.vIdx ≠ d.vIdx ∧ ∀ kind i, c.Has kind i → ¬d.Has kind i

structure GivesAll (s t : RingMap) (calls : List VectorCall) : Prop where
  qVector : ∀ v, (t.qVector v).isSome ↔ (∃ c ∈ calls, c.vIdx = v) ∨ (s.qVector v).isSome
  kept : ∀ v q, s.qVector v = some q → t.qVector v = some q
  ring : ∀ kind i, (t.ring kind i).isSome ↔ (∃ c ∈ calls, c.Has kind i) ∨ (s.ring kind i).isSome

theorem GivesAll.nil (s : RingMap) : GivesAll s s [] := by
  refine ⟨fun v => ?_, fun v q h => h, fun kind i => ?_⟩
  · simp
  · simp

theorem GivesAll.cons (hc : Gives s u c) (hfree : s.qVector c.vIdx = none)
    (h : GivesAll u t calls) : GivesAll s t (c :: calls) := by
  refine ⟨fun v => ?_, fun v q hv => h.kept v q ?_, fun kind i => ?_⟩
  · rw [h.qVector, hc.qVector, List.exists_mem_cons_iff]
    by_cases hv : v = c.vIdx
    · rw [if_pos hv]
      exact iff_of_true (.inr rfl) (.inl (.inl hv.symm))
    · rw [if_neg hv, or_iff_right (Ne.symm hv)]
  · rw [hc.qVector, if_neg, hv]
    rintro rfl
    rw [hfree] at hv
    cases hv
  · rw [h.ring, hc.ring, List.exists_mem_cons_iff, or_left_comm, ← or_assoc]

/-- **A list of allocations** runs to the first one without memory. -/
theorem runCalls_spec {kzalloc : Nat → Bool} (hs : s.Tied) (hfits : ∀ c ∈ calls, s.Fits c)
    (hapart : calls.Pairwise Apart) :
    ∃ t pre post, s.runCalls kzalloc calls = .ok (t, post.head?) ∧ calls = pre ++ post ∧
      (∀ c ∈ pre, kzalloc c.vIdx = true) ∧ (∀ c, post.head? = some c → kzalloc c.vIdx = false) ∧
      t.Tied ∧ GivesAll s t pre := by
  induction calls generalizing s with
  | nil => exact ⟨s, [], [], rfl, rfl, nofun, nofun, hs, .nil s⟩
  | cons c calls ih =>
    rw [List.forall_mem_cons] at hfits
    rw [List.pairwise_cons] at hapart
    by_cases hmem : kzalloc c.vIdx = true
    · obtain ⟨u, hu, htied, hgives⟩ := ixgbeAllocQVector_spec hs hfits.1 hmem
      have hrest : ∀ d ∈ calls, u.Fits d := by
        intro d hd
        have hold := hfits.2 d hd
        obtain ⟨hvec, hqueues⟩ := hapart.1 d hd
        refine ⟨hold.stride, hold.vector, hold.bound, ?_, fun kind i hi => ?_⟩
        · rw [hgives.qVector, if_neg (Ne.symm hvec), hold.free]
        · rw [← Option.not_isSome_iff_eq_none, hgives.ring, not_or, hold.none kind i hi]
          exact ⟨fun h => hqueues kind i h hi, nofun⟩
      obtain ⟨t, pre, post, hrun, hsplit, hok, hfail, httied, hall⟩ := ih htied hrest hapart.2
      refine ⟨t, c :: pre, post, ?_, by rw [hsplit]; rfl, List.forall_mem_cons.mpr ⟨hmem, hok⟩,
        hfail, httied, hall.cons hgives hfits.1.free⟩
      rw [runCalls, hu]
      exact hrun
    · refine ⟨s, [], c :: calls, ?_, rfl, nofun, fun d hd => ?_, hs, .nil s⟩
      · rw [runCalls, ixgbeAllocQVector, if_pos (by simpa using hmem)]
        rfl
      · cases hd
        simpa using hmem

/-! ## Frees -/

/-- **`ixgbe_free_q_vector`** takes the vector and all pointers to its rings. -/
theorem ixgbeFreeQVector_spec {vIdx : Nat} (hs : s.Tied) (hv : s.qVector vIdx = some q) :
    ∃ t, s.ixgbeFreeQVector vIdx = .ok t ∧ t.Tied ∧
      ∀ v, t.qVector v = if v = vIdx then none else s.qVector v := by
  obtain ⟨rings, hrings⟩ := Option.isSome_iff_exists.mp ((hs.owned q).mpr ⟨vIdx, hv⟩)
  have hgot : (s.vector q).getD [] = rings := by
    rw [hrings]
    rfl
  unfold ixgbeFreeQVector
  rw [hv]
  dsimp only
  rw [hgot]
  refine ⟨_, rfl, ⟨fun kind idx q' j => ?_, fun q' => ?_, fun {v v' q'} h h' => ?_, fun q' h => ?_⟩,
    fun v => Function.update_apply ..⟩
  · change (if (⟨kind, idx⟩ : QRing) ∈ rings then none else s.ring kind idx) = _ ↔
      (Function.update s.vector q none q').bind _ = _
    by_cases hq : q' = q
    · -- no pointer to the vector is left
      subst hq
      rw [Function.update_self]
      refine iff_of_false (fun h => ?_) nofun
      split at h
      · cases h
      · next hout =>
        have hat := (hs.rings kind idx q' j).mp h
        rw [ringAt, hrings] at hat
        exact hout (List.mem_of_getElem? hat)
    · rw [Function.update_of_ne hq]
      change _ ↔ s.ringAt q' j = _
      rw [← hs.rings]
      split
      · next hin =>
        -- the queue has its ring in the vector, and no other
        obtain ⟨i, hi⟩ := List.mem_iff_getElem?.mp hin
        have hhere : s.ring kind idx = some (q, i) := by
          rw [hs.rings, ringAt, hrings]
          exact hi
        rw [hhere]
        refine iff_of_false nofun fun h => hq ?_
        exact (Prod.mk.inj (Option.some.inj h)).1.symm
      · exact Iff.rfl
  · simp only [Function.update_apply]
    by_cases hq : q' = q
    · rw [if_pos hq]
      refine iff_of_false nofun ?_
      rintro ⟨v, h⟩
      split at h
      · cases h
      · next hne => exact hne (hs.injective h (hq ▸ hv))
    · rw [if_neg hq, hs.owned]
      refine exists_congr fun v => ?_
      split
      · next hsame =>
        rw [hsame, hv]
        refine iff_of_false (fun h => hq (Option.some.inj h).symm) nofun
      · exact Iff.rfl
  · change Function.update s.qVector vIdx none v = some q' at h
    change Function.update s.qVector vIdx none v' = some q' at h'
    rw [Function.update_apply] at h h'
    split at h
    · cases h
    · split at h'
      · cases h'
      · exact hs.injective h h'
  · change (Function.update s.vector q none q').isSome at h
    rw [Function.update_apply] at h
    split at h
    · cases h
    · exact hs.fresh q' h

/-- **The frees of the error path** take the vectors below `n`. -/
theorem freeBelow_spec {n : Nat} (hs : s.Tied) (hall : ∀ v < n, (s.qVector v).isSome) :
    ∃ t, s.freeBelow n = .ok t ∧ t.Tied ∧
      ∀ v, t.qVector v = if v < n then none else s.qVector v := by
  induction n generalizing s with
  | zero => exact ⟨s, rfl, hs, fun v => (if_neg (Nat.not_lt_zero v)).symm⟩
  | succ n ih =>
    obtain ⟨q, hq⟩ := Option.isSome_iff_exists.mp (hall n (Nat.lt_succ_self n))
    obtain ⟨u, hu, htied, hvector⟩ := ixgbeFreeQVector_spec hs hq
    obtain ⟨t, ht, httied, hrest⟩ := ih htied (fun v hv => by
      rw [hvector, if_neg (by omega)]
      exact hall v (Nat.lt_succ_of_lt hv))
    refine ⟨t, by rw [freeBelow, hu]; exact ht, httied, fun v => ?_⟩
    rw [hrest, hvector]
    by_cases hn : v = n
    · rw [hn, if_neg (Nat.lt_irrefl n), if_pos rfl, if_pos (Nat.lt_succ_self n)]
    · by_cases hlt : v < n
      · rw [if_pos hlt, if_pos (Nat.lt_succ_of_lt hlt)]
      · rw [if_neg hlt, if_neg hn, if_neg (by omega)]

structure Cleared (s : RingMap) : Prop where
  vector : ∀ q, s.vector q = none
  qVector : ∀ v, s.qVector v = none
  ring : ∀ kind idx, s.ring kind idx = none

theorem Tied.cleared_iff (hs : s.Tied) : s.Cleared ↔ ∀ v, s.qVector v = none := by
  refine ⟨fun h => h.qVector, fun h => ?_⟩
  have hvector (q : Nat) : s.vector q = none := by
    rw [← Option.not_isSome_iff_eq_none, hs.owned]
    rintro ⟨v, hv⟩
    rw [h] at hv
    cases hv
  refine ⟨hvector, h, fun kind idx => ?_⟩
  rw [← Option.not_isSome_iff_eq_none]
  intro hsome
  obtain ⟨⟨q, j⟩, hring⟩ := Option.isSome_iff_exists.mp hsome
  rw [hs.rings, ringAt, hvector] at hring
  cases hring

end RingMap

end VmkDrivers.Wfs
