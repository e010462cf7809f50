/-
  VmkDrivers.Vmklinux.Kmalloc

  The lengths that `vmklnx_kmalloc`, `vmklnx_kzmalloc` and `vmklnx_kmalloc_align`
  ask the heap for (`linux_heap.c`).

  `1 << (fls(size) - 1)` is an `int` that is made of the lower half of the size,
  and is extended with its sign.  Up to 2^31 bytes it is the power of two that is
  wanted.  From there on it never is (`kmalloc_iff`).

  The return addresses that are passed on, and a `VMK_ASSERT` on the context, are
  left out.
-/

import Mathlib

namespace VmkDrivers.Vmklinux

/-- A shift by a count that the type does not have, or a `VMK_ASSERT` that fails. -/
inductive KmallocFault where
  | shiftCount
  | assertion
deriving DecidableEq, Repr

/-! ## The length -/

/-- `fls`: one more than the place of the last bit that is set, 0 if there is none. -/
def fls (x : BitVec 32) : Nat := if x = 0#32 then 0 else x.toNat.log2 + 1

/-- `x << n` for an `int`. -/
def shlInt (x : BitVec 32) (n : Int) : Except KmallocFault (BitVec 32) :=
  if 0 ≤ n ∧ n < 32 then .ok (x <<< n.toNat) else .error .shiftCount

/-- "Allocate blocks in powers-of-2 (like Linux)": `actual` -/
def actualLength (size : BitVec 64) : Except KmallocFault (BitVec 64) := do
  -- `fls` takes an `int`
  let bit ← shlInt 1 ((fls (size.setWidth 32) : Int) - 1)
  let actual := bit.signExtend 64
  if actual < size then
    -- "guards against shitting the bit off"
    if actual = ~~~((BitVec.allOnes 64 <<< 1) >>> 1) then .error .assertion
    else return actual <<< 1
  else return actual

/-! ## The functions -/

/-- `VMK_TIMEOUT_NONBLOCKING` and `VMK_TIMEOUT_UNLIMITED_MS` -/
inductive HeapTimeout where
  | nonblocking
  | unlimited
deriving DecidableEq, Repr

/-- A call of `vmk_HeapAllocWithTimeoutAndRA` or `vmk_HeapAlignWithTimeoutAndRA`. -/
structure HeapRequest where
  heapID : Nat
  length : BitVec 64
  align : Option (BitVec 64) := none
  timeout : HeapTimeout
deriving DecidableEq, Repr

/-- What is returned: NULL, `ZERO_SIZE_PTR` or a block. -/
inductive KmallocPtr where
  | null
  | zeroSize
  | block (a : Nat)
deriving DecidableEq, Repr

/-- What a call returns and has done: the request, and the bytes that `memset` has cleared. -/
structure Kmalloced where
  ptr : KmallocPtr
  request : Option HeapRequest := none
  cleared : BitVec 64 := 0
deriving DecidableEq, Repr

abbrev VmkHeap := HeapRequest → Option Nat

/-- `flags & __GFP_WAIT` -/
def heapTimeout (wait : Bool) : HeapTimeout := if wait then .unlimited else .nonblocking

def HeapRequest.send (heap : VmkHeap) (req : HeapRequest) : Kmalloced where
  ptr := (heap req).elim .null .block
  request := some req

/-- `vmklnx_kmalloc` -/
def kmalloc (heap : VmkHeap) (heapID : Nat) (size : BitVec 64) (wait : Bool) :
    Except KmallocFault Kmalloced :=
  if size = 0 then .ok { ptr := .zeroSize }
  else do
    let actual ← actualLength size
    return HeapRequest.send heap { heapID, length := actual, timeout := heapTimeout wait }

/-- `vmklnx_kzmalloc` -/
def kzmalloc (heap : VmkHeap) (heapID : Nat) (size : BitVec 64) (wait : Bool) :
    Except KmallocFault Kmalloced := do
  let r ← kmalloc heap heapID size wait
  return if r.ptr ≠ .null then { r with cleared := size } else r

/-- `vmklnx_kmalloc_align` -/
def kmallocAlign (heap : VmkHeap) (heapID : Nat) (size align : BitVec 64) (wait : Bool) :
    Except KmallocFault Kmalloced :=
  if size = 0 then .ok { ptr := .null }
  else do
    let actual ← actualLength size
    return HeapRequest.send heap
      { heapID, length := actual, align := some align, timeout := heapTimeout wait }

inductive KmallocCall where
  | kmalloc
  | kzmalloc
  | kmallocAlign (align : BitVec 64)
deriving DecidableEq, Repr

def KmallocCall.exec (heap : VmkHeap) (heapID : Nat) (size : BitVec 64) (wait : Bool) :
    KmallocCall → Except KmallocFault Kmalloced
  | .kmalloc => Vmklinux.kmalloc heap heapID size wait
  | .kzmalloc => Vmklinux.kzmalloc heap heapID size wait
  | .kmallocAlign align => Vmklinux.kmallocAlign heap heapID size align wait

/-! ## What is promised -/

def FitsSize (size length : BitVec 64) : Prop :=
  (∃ k, length.toNat = 2 ^ k) ∧ size.toNat ≤ length.toNat ∧ length.toNat < 2 * size.toNat

/-- A request is of the length for the size, and what is cleared is inside the block. -/
structure Kmalloced.Right (size : BitVec 64) (r : Kmalloced) : Prop where
  length : ∀ req ∈ r.request, FitsSize size req.length
  cleared : ∀ req ∈ r.request, r.cleared.toNat ≤ req.length.toNat

/-! ## Which lengths are right -/

variable {size length : BitVec 64} {x : BitVec 32} {k : Nat}

theorem fls_spec (hx : x ≠ 0#32) :
    ∃ k < 32, fls x = k + 1 ∧ 2 ^ k ≤ x.toNat ∧ x.toNat < 2 ^ (k + 1) := by
  have hne : x.toNat ≠ 0 := fun h => hx (BitVec.eq_of_toNat_eq h)
  refine ⟨x.toNat.log2, (Nat.log2_lt hne).mpr x.isLt, if_neg hx, Nat.log2_self_le hne, ?_⟩
  exact (Nat.log2_lt hne).mp (Nat.lt_succ_self _)

theorem toNat_bit (hk : k < 31) : ((1#32 <<< k).signExtend 64).toNat = 2 ^ k := by
  have hall : ∀ k < 31, ((1#32 <<< k).signExtend 64).toNat = 2 ^ k := by decide
  exact hall k hk

theorem actualLength_of_fls (hk : k < 32) (hfls : fls (size.setWidth 32) = k + 1) :
    actualLength size =
      if (1#32 <<< k).signExtend 64 < size then
        if (1#32 <<< k).signExtend 64 = ~~~((BitVec.allOnes 64 <<< 1) >>> 1) then .error .assertion
        else .ok ((1#32 <<< k).signExtend 64 <<< 1)
      else .ok ((1#32 <<< k).signExtend 64) := by
  have hshl : shlInt 1 ((fls (size.setWidth 32) : Int) - 1) = .ok (1#32 <<< k) := by
    have hcount : ((fls (size.setWidth 32) : Int) - 1) = (k : Int) := by
      rw [hfls]
      omega
    rw [hcount, shlInt, if_pos (by omega), Int.toNat_natCast]
    rfl
  rw [actualLength, hshl]
  rfl

theorem actualLength_of_lt (hk : k < 31) (hfls : fls (size.setWidth 32) = k + 1) :
    ∃ length, actualLength size = .ok length ∧
      length.toNat = if 2 ^ k < size.toNat then 2 ^ (k + 1) else 2 ^ k := by
  have hbit := toNat_bit hk
  have hpow : 2 ^ k ≤ 2 ^ 30 := Nat.pow_le_pow_right (by decide) (by omega)
  have hlt : (1#32 <<< k).signExtend 64 < size ↔ 2 ^ k < size.toNat := by
    rw [BitVec.lt_def, hbit]
  rw [actualLength_of_fls (by omega) hfls]
  -- the size is above its last bit, or is the bit
  by_cases hsmall : 2 ^ k < size.toNat
  · have htop : (1#32 <<< k).signExtend 64 ≠ ~~~((BitVec.allOnes 64 <<< 1) >>> 1) := by
      intro heq
      have hnat := congrArg BitVec.toNat heq
      rw [hbit] at hnat
      have htop : (~~~((BitVec.allOnes 64 <<< 1) >>> 1)).toNat = 2 ^ 63 := by decide
      omega
    refine ⟨_, by rw [if_pos (hlt.mpr hsmall), if_neg htop], ?_⟩
    rw [if_pos hsmall, BitVec.toNat_shiftLeft, hbit, Nat.shiftLeft_eq, Nat.pow_succ]
    exact Nat.mod_eq_of_lt (by omega)
  · refine ⟨_, by rw [if_neg (mt hlt.mp hsmall)], ?_⟩
    rw [if_neg hsmall, hbit]

/-- **Up to 2^31** the length is right. -/
theorem fits_of_lt (hpos : 1 ≤ size.toNat) (hlt : size.toNat < 2 ^ 31) :
    ∃ length, actualLength size = .ok length ∧ FitsSize size length := by
  have hwidth : (size.setWidth 32).toNat = size.toNat := by
    rw [BitVec.toNat_setWidth]
    exact Nat.mod_eq_of_lt (by omega)
  have hne : size.setWidth 32 ≠ 0#32 := by
    intro hzero
    rw [hzero] at hwidth
    change 0 = size.toNat at hwidth
    omega
  obtain ⟨k, -, hfls, hle, hlast⟩ := fls_spec hne
  rw [hwidth] at hle hlast
  have hk : k < 31 := (Nat.pow_lt_pow_iff_right (by decide : 1 < 2)).mp (by omega)
  obtain ⟨length, hlength, hnat⟩ := actualLength_of_lt hk hfls
  have htwo : 2 ^ (k + 1) = 2 * 2 ^ k := by rw [Nat.pow_succ, Nat.mul_comm]
  refine ⟨length, hlength, ?_⟩
  split at hnat
  · exact ⟨⟨k + 1, hnat⟩, by omega, by omega⟩
  · exact ⟨⟨k, hnat⟩, by omega, by omega⟩

theorem not_fits_of_top (h : 2 ^ 63 < length.toNat) : ¬FitsSize size length := by
  rintro ⟨⟨k, hk⟩, -, -⟩
  have hlength := length.isLt
  have hlow : 63 < k := (Nat.pow_lt_pow_iff_right (by decide : 1 < 2)).mp (by omega)
  have hhigh : k < 64 := (Nat.pow_lt_pow_iff_right (by decide : 1 < 2)).mp (by omega)
  omega

/-- **From 2^31 on** no length is right. -/
theorem not_fits_of_ge (hge : 2 ^ 31 ≤ size.toNat) (h : actualLength size = .ok length) :
    ¬FitsSize size length := by
  by_cases hzero : size.setWidth 32 = 0#32
  · -- the shift by -1
    have hfault : actualLength size = .error .shiftCount := by
      rw [actualLength, hzero]
      rfl
    rw [hfault] at h
    cases h
  · obtain ⟨k, hk, hfls, hle, hlast⟩ := fls_spec hzero
    rw [BitVec.toNat_setWidth] at hle hlast
    by_cases hsign : k < 31
    · -- the upper half of the size is lost
      obtain ⟨length', hlength', hnat⟩ := actualLength_of_lt hsign hfls
      obtain rfl := Except.ok.inj (h.symm.trans hlength')
      have hpow : 2 ^ (k + 1) ≤ 2 ^ 31 := Nat.pow_le_pow_right (by decide) (by omega)
      rintro ⟨-, hfit, -⟩
      rw [Nat.pow_succ] at hpow hlast hnat
      split at hnat <;> omega
    · -- the sign is extended
      obtain rfl : k = 31 := by omega
      rw [actualLength_of_fls hk hfls] at h
      have htop : (1#32 <<< 31).signExtend 64 ≠ ~~~((BitVec.allOnes 64 <<< 1) >>> 1) := by decide
      rw [if_neg htop] at h
      apply not_fits_of_top
      split at h
      -- both lengths are above 2^63
      · cases h
        decide
      · cases h
        decide

/-! ## The calls -/

variable {heap : VmkHeap} {heapID : Nat} {wait : Bool} {call : KmallocCall}

theorem exec_of_actual (heap : VmkHeap) (heapID : Nat) (wait : Bool) (call : KmallocCall)
    (hpos : 1 ≤ size.toNat) (h : actualLength size = .ok length) :
    ∃ r req, call.exec heap heapID size wait = .ok r ∧ r.request = some req ∧
      req.length = length ∧ (r.cleared = 0 ∨ r.cleared = size) := by
  have hne : size ≠ 0 := by
    rintro rfl
    exact absurd hpos (by decide)
  have hkmalloc : kmalloc heap heapID size wait =
      .ok (HeapRequest.send heap { heapID, length, timeout := heapTimeout wait }) := by
    rw [kmalloc, if_neg hne, h]
    rfl
  -- `kzmalloc` sends the request of `kmalloc`, `kmallocAlign` one of its own
  cases call with
  | kmalloc => exact ⟨_, _, hkmalloc, rfl, rfl, .inl rfl⟩
  | kzmalloc =>
    obtain ⟨sent, hsent⟩ : ∃ sent, sent = HeapRequest.send heap
      { heapID, length, timeout := heapTimeout wait } := ⟨_, rfl⟩
    rw [← hsent] at hkmalloc
    -- what comes back is cleared, if it is not NULL
    have hexec : kzmalloc heap heapID size wait =
        .ok (if sent.ptr ≠ .null then { sent with cleared := size } else sent) := by
      rw [kzmalloc, hkmalloc]
      rfl
    have hreq : sent.request = some { heapID, length, timeout := heapTimeout wait } := by
      rw [hsent]
      rfl
    refine ⟨_, { heapID, length, timeout := heapTimeout wait }, hexec, ?_, rfl, ?_⟩
    · split
      · exact hreq
      · exact hreq
    · split
      · exact .inr rfl
      · rw [hsent]
        exact .inl rfl
  | kmallocAlign align =>
    have hexec : kmallocAlign heap heapID size align wait = .ok (HeapRequest.send heap
        { heapID, length, align := some align, timeout := heapTimeout wait }) := by
      rw [kmallocAlign, if_neg hne, h]
      rfl
    exact ⟨_, _, hexec, rfl, rfl, .inl rfl⟩

theorem exec_of_fault {e : KmallocFault} (hpos : 1 ≤ size.toNat)
    (h : actualLength size = .error e) : call.exec heap heapID size wait = .error e := by
  have hne : size ≠ 0 := by
    rintro rfl
    exact absurd hpos (by decide)
  have hkmalloc : kmalloc heap heapID size wait = .error e := by
    rw [kmalloc, if_neg hne, h]
    rfl
  cases call with
  | kmalloc => exact hkmalloc
  | kzmalloc =>
    change kzmalloc heap heapID size wait = _
    rw [kzmalloc, hkmalloc]
    rfl
  | kmallocAlign align =>
    change kmallocAlign heap heapID size align wait = _
    rw [kmallocAlign, if_neg hne, h]
    rfl

/-- **Allocations**: a call asks for the length that is right for its size exactly if the size is
    below 2^31. -/
theorem kmalloc_iff (heap : VmkHeap) (heapID : Nat) (wait : Bool) (call : KmallocCall)
    {size : BitVec 64} (hpos : 1 ≤ size.toNat) :
    (∃ r, call.exec heap heapID size wait = .ok r ∧ r.Right size) ↔ size.toNat < 2 ^ 31 := by
  constructor
  · rintro ⟨r, hexec, hright⟩
    by_contra hge
    rw [Nat.not_lt] at hge
    cases hactual : actualLength size with
    | error e =>
      rw [exec_of_fault hpos hactual] at hexec
      cases hexec
    | ok length =>
      obtain ⟨r', req, hexec', hreq, rfl, -⟩ := exec_of_actual heap heapID wait call
        hpos hactual
      obtain rfl := Except.ok.inj (hexec.symm.trans hexec')
      exact not_fits_of_ge hge hactual (hright.length req hreq)
  · intro hlt
    obtain ⟨length, hactual, hfits⟩ := fits_of_lt hpos hlt
    obtain ⟨r, req, hexec, hreq, rfl, hcleared⟩ := exec_of_actual heap heapID wait call
      hpos hactual
    refine ⟨r, hexec, fun req' hreq' => ?_, fun req' hreq' => ?_⟩
    · obtain rfl := Option.some.inj (hreq.symm.trans hreq')
      exact hfits
    · obtain rfl := Option.some.inj (hreq.symm.trans hreq')
      rcases hcleared with hzero | hsize
      · rw [hzero]
        exact Nat.zero_le _
      · rw [hsize]
        exact hfits.2.1

/-- 100 bytes. -/
theorem kmalloc_small : ∃ r, KmallocCall.kzmalloc.exec (fun _ => some 4096) 1 100 true = .ok r ∧
    r.Right 100 :=
  (kmalloc_iff (fun _ => some 4096) 1 true .kzmalloc (by decide)).mpr (by decide)

/-- 2^32 + 1 bytes are cleared in a block of two. -/
theorem kmalloc_wide : ∃ r req, KmallocCall.kzmalloc.exec (fun _ => some 4096) 1 0x100000001 true =
    .ok r ∧ r.request = some req ∧ req.length = 2 ∧ r.cleared = 0x100000001 ∧
      ¬r.Right 0x100000001 := by
  refine ⟨_, _, rfl, rfl, rfl, rfl, fun hright => ?_⟩
  exact absurd (hright.cleared _ rfl) (by decide)

end VmkDrivers.Vmklinux
