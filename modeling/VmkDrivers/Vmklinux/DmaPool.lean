/-
  VmkDrivers.Vmklinux.DmaPool

  The alignment of a DMA pool (`dma_pool_create` and `dma_pool_alloc` in `linux_dma.c`).

  The boundary is not stored: an aligned block no longer than its alignment does not
  pass one.  For that the alignment of a larger block is raised to the power of two
  above, as `1 << fls(align)`, which is an `int` made of the lower half of the size;
  and the heap is asked for a length that is made in the same way (`pool_meets_iff`).

  The name and the mask are left out; the `VMK_ASSERT`s are those of a debug build.
-/

import VmkDrivers.Lib.Window
import VmkDrivers.Vmklinux.Kmalloc

namespace VmkDrivers.Vmklinux

open VmkDrivers.Lib

/-! ## The pool -/

def smpCacheBytes : BitVec 64 := 64

structure DmaPool where
  size : BitVec 64
  align : BitVec 64
  heapId : Nat
deriving DecidableEq, Repr

/-- "guarantee power of 2": the alignment of a pool whose blocks are larger than it was. -/
def poolRaise (size : BitVec 64) : Except KmallocFault (BitVec 64) := do
  if size &&& (size - 1) ≠ 0 then
    -- `1 << fls(align)` is an `int`, and `fls` takes one
    let bit ← shlInt 1 (fls (size.setWidth 32))
    return bit.signExtend 64
  else return size

def requestedAlign (align : BitVec 64) : BitVec 64 := if align = 0 then smpCacheBytes else align

/-- `dma_pool_create`, with the outcome of `kmalloc` and the heap that is chosen. -/
def dmaPoolCreate (kmalloc : Bool) (heapId : Nat) (size align boundary : BitVec 64) :
    Except KmallocFault (Option DmaPool) :=
  if align ≠ 0 ∧ align &&& (align - 1) ≠ 0 then .ok none
  else if boundary ≠ 0 ∧ (boundary < size ∨ boundary &&& (boundary - 1) ≠ 0) then .ok none
  else if size = 0 then .ok none
  else do
    let align ← if requestedAlign align < size then poolRaise size else .ok (requestedAlign align)
    return if kmalloc then some ⟨size, align, heapId⟩ else none

/-- `dma_pool_alloc`, as far as the block goes. -/
def dmaPoolAlloc (heap : VmkHeap) (pool : DmaPool) (wait : Bool) : Except KmallocFault Kmalloced :=
  kmallocAlign heap pool.heapId pool.size pool.align wait

/-! ## What is promised -/

/-- What `dma_pool_create` accepts. -/
structure PoolAccepts (size align boundary : BitVec 64) : Prop where
  align : align = 0 ∨ align &&& (align - 1) = 0
  boundary : boundary = 0 ∨ size ≤ boundary ∧ boundary &&& (boundary - 1) = 0
  size : size ≠ 0

/-- A block of a pool, at `a`. -/
structure BlockMeets (size align boundary : BitVec 64) (a : Nat) : Prop where
  align : (requestedAlign align).toNat ∣ a
  boundary : boundary ≠ 0 → InWindow boundary.toNat a size.toNat

def HeapAligns (heap : VmkHeap) : Prop :=
  ∀ req a align, heap req = some a → req.align = some align → align.toNat ∣ a

/-- The alignment of a pool serves for its blocks, and what is allocated is such a block. -/
structure DmaPool.Meets (pool : DmaPool) (size align boundary : BitVec 64) : Prop where
  power : ∃ k, pool.align.toNat = 2 ^ k
  size_le : size.toNat ≤ pool.align.toNat
  align_le : (requestedAlign align).toNat ≤ pool.align.toNat
  aligned : boundary ≠ 0 → ∀ a, pool.align.toNat ∣ a → InWindow boundary.toNat a size.toNat
  alloc : ∀ heap, HeapAligns heap → ∀ wait, ∃ r req, dmaPoolAlloc heap pool wait = .ok r ∧
    r.request = some req ∧ size.toNat ≤ req.length.toNat ∧
      ∀ a, r.ptr = .block a → BlockMeets size align boundary a

/-- The size is not raised, or is so in the type; and its length is large enough. -/
structure PoolFits (size align : BitVec 64) : Prop where
  raise : size.toNat ≤ (requestedAlign align).toNat ∨ (∃ k, size.toNat = 2 ^ k) ∨
    size.toNat < 2 ^ 30
  length : size.toNat < 2 ^ 31 ∨
    2 ^ 31 ≤ size.toNat % 2 ^ 32 ∧ size.toNat ≤ 2 ^ 64 - 2 ^ 31

/-! ## Powers of two -/

variable {size align boundary x : BitVec 64}

theorem and_sub_one_iff (hx : x ≠ 0) : x &&& (x - 1) = 0 ↔ ∃ k, x.toNat = 2 ^ k := by
  have hne : x.toNat ≠ 0 := fun h => hx (BitVec.eq_of_toNat_eq h)
  -- the test over words is the one over numbers
  have hsub : (x - 1).toNat = x.toNat - 1 := by
    refine BitVec.toNat_sub_of_le ?_
    rw [BitVec.le_def]
    exact Nat.one_le_iff_ne_zero.mpr hne
  have hand : (x &&& (x - 1)).toNat = x.toNat &&& (x.toNat - 1) := by
    rw [BitVec.toNat_and, hsub]
  rw [← Nat.isPowerOfTwo, ← Nat.and_sub_one_eq_zero_iff_isPowerOfTwo hne, ← hand]
  constructor
  · intro h
    rw [h]
    rfl
  · intro h
    exact BitVec.eq_of_toNat_eq h

theorem requestedAlign_power (h : PoolAccepts size align boundary) :
    ∃ k, (requestedAlign align).toNat = 2 ^ k := by
  unfold requestedAlign
  split
  · exact ⟨6, rfl⟩
  · next hne => exact (and_sub_one_iff hne).mp (h.align.resolve_left hne)

theorem dvd_of_powers {a b : Nat} (ha : ∃ k, a = 2 ^ k) (hb : ∃ k, b = 2 ^ k) (hle : a ≤ b) :
    a ∣ b := by
  obtain ⟨k, rfl⟩ := ha
  obtain ⟨l, rfl⟩ := hb
  exact Nat.pow_dvd_pow 2 ((Nat.pow_le_pow_iff_right (by decide)).mp hle)

theorem inWindow_of_power {len align w a : Nat} (halign : ∃ k, align = 2 ^ k)
    (hw : ∃ k, w = 2 ^ k) (hlen : len ≤ align) (hfit : len ≤ w) (ha : align ∣ a) :
    InWindow w a len := by
  have hpos : 0 < w := by
    obtain ⟨k, rfl⟩ := hw
    exact Nat.two_pow_pos k
  rcases Nat.le_total align w with hle | hle
  · exact .of_aligned hpos (dvd_of_powers halign hw hle) ha hlen
  · -- the block begins with a window
    exact .of_aligned hpos dvd_rfl ((dvd_of_powers hw halign hle).trans ha) hfit

/-! ## Raising -/

theorem poolRaise_power (hne : size ≠ 0) (hpower : ∃ k, size.toNat = 2 ^ k) :
    poolRaise size = .ok size := by
  unfold poolRaise
  rw [if_neg (not_not_intro ((and_sub_one_iff hne).mpr hpower))]
  rfl

theorem poolRaise_other (hne : size ≠ 0) (hpower : ¬∃ k, size.toNat = 2 ^ k) :
    poolRaise size = (shlInt 1 (fls (size.setWidth 32))).map (BitVec.signExtend 64) := by
  unfold poolRaise
  rw [if_pos (mt (and_sub_one_iff hne).mp hpower)]
  rfl

theorem shlInt_one {m : Nat} (hm : m < 32) : shlInt 1 (m : Int) = .ok (1#32 <<< m) := by
  rw [shlInt, if_pos (by omega), Int.toNat_natCast]
  rfl

theorem poolRaise_of_lt (hpower : ¬∃ k, size.toNat = 2 ^ k) (hpos : 0 < size.toNat)
    (hlt : size.toNat < 2 ^ 30) :
    ∃ align, poolRaise size = .ok align ∧ (∃ k, align.toNat = 2 ^ k) ∧
      size.toNat ≤ align.toNat ∧ align.toNat < 2 * size.toNat := by
  have hne : size ≠ 0 := by
    rintro rfl
    exact absurd hpos (by decide)
  have hwidth : (size.setWidth 32).toNat = size.toNat := by
    rw [BitVec.toNat_setWidth]
    exact Nat.mod_eq_of_lt (by omega)
  have hlow : size.setWidth 32 ≠ 0#32 := by
    intro hzero
    rw [hzero] at hwidth
    change 0 = size.toNat at hwidth
    omega
  -- the last bit is below 30, so that the next one is one of an `int` with its sign clear
  obtain ⟨k, -, hfls, hle, hlast⟩ := fls_spec hlow
  rw [hwidth] at hle hlast
  have hk : k < 30 := (Nat.pow_lt_pow_iff_right (by decide : 1 < 2)).mp (by omega)
  refine ⟨_, ?_, ⟨k + 1, toNat_bit (by omega)⟩, ?_, ?_⟩
  · rw [poolRaise_other hne hpower, hfls, shlInt_one (by omega)]
    rfl
  · rw [toNat_bit (by omega)]
    omega
  · rw [toNat_bit (by omega), Nat.pow_succ]
    have hbit : size.toNat ≠ 2 ^ k := fun heq => hpower ⟨k, heq⟩
    omega

theorem poolRaise_of_ge (hpower : ¬∃ k, size.toNat = 2 ^ k) (hge : 2 ^ 30 ≤ size.toNat)
    (h : poolRaise size = .ok align) :
    align.toNat < size.toNat ∨ ¬∃ k, align.toNat = 2 ^ k := by
  have hne : size ≠ 0 := by
    rintro rfl
    exact absurd hge (by decide)
  have habove : 2 ^ 30 ≠ size.toNat := fun heq => hpower ⟨30, heq.symm⟩
  rw [poolRaise_other hne hpower] at h
  generalize fls (size.setWidth 32) = m at h
  by_cases hm : m < 32
  · rw [shlInt_one hm] at h
    obtain rfl : (1#32 <<< m).signExtend 64 = align := Except.ok.inj h
    by_cases hsign : m < 31
    · left
      rw [toNat_bit hsign]
      have hpow : 2 ^ m ≤ 2 ^ 30 := Nat.pow_le_pow_right (by decide) (by omega)
      omega
    · right
      obtain rfl : m = 31 := by omega
      rintro ⟨k, hk⟩
      have htop : ((1#32 <<< 31).signExtend 64).toNat = 2 ^ 64 - 2 ^ 31 := by decide
      rw [htop] at hk
      have hlow : 63 < k := (Nat.pow_lt_pow_iff_right (by decide : 1 < 2)).mp (by omega)
      have hhigh : k < 64 := (Nat.pow_lt_pow_iff_right (by decide : 1 < 2)).mp (by omega)
      omega
  · -- the type has no such bit
    rw [shlInt, if_neg (by omega)] at h
    cases h

/-! ## The length of a block -/

theorem actualLength_ge_iff (hne : size ≠ 0) :
    (∃ length, actualLength size = .ok length ∧ size.toNat ≤ length.toNat) ↔
      size.toNat < 2 ^ 31 ∨ 2 ^ 31 ≤ size.toNat % 2 ^ 32 ∧ size.toNat ≤ 2 ^ 64 - 2 ^ 31 := by
  have hpos : 1 ≤ size.toNat := Nat.one_le_iff_ne_zero.mpr fun h => hne (BitVec.eq_of_toNat_eq h)
  by_cases hlt : size.toNat < 2 ^ 31
  · obtain ⟨length, hlength, -, hfit, -⟩ := fits_of_lt hpos hlt
    exact iff_of_true ⟨length, hlength, hfit⟩ (.inl hlt)
  · have hlow : (size.setWidth 32).toNat = size.toNat % 2 ^ 32 := BitVec.toNat_setWidth ..
    by_cases hzero : size.setWidth 32 = 0#32
    · -- the shift by -1
      have hfault : actualLength size = .error .shiftCount := by
        rw [actualLength, hzero]
        rfl
      rw [hzero] at hlow
      change 0 = size.toNat % 2 ^ 32 at hlow
      refine iff_of_false (fun h => ?_) (by omega)
      obtain ⟨length, hlength, -⟩ := h
      rw [hfault] at hlength
      cases hlength
    · obtain ⟨k, hk, hfls, hle, hlast⟩ := fls_spec hzero
      rw [hlow] at hle hlast
      by_cases hsign : k < 31
      · obtain ⟨length, hlength, hnat⟩ := actualLength_of_lt hsign hfls
        have hpow : 2 ^ (k + 1) ≤ 2 ^ 31 := Nat.pow_le_pow_right (by decide) (by omega)
        refine iff_of_false (fun h => ?_) (by omega)
        obtain ⟨length', hlength', hfit⟩ := h
        obtain rfl := Except.ok.inj (hlength.symm.trans hlength')
        rw [Nat.pow_succ] at hpow hlast hnat
        split at hnat <;> omega
      · obtain rfl : k = 31 := by omega
        have hactual := actualLength_of_fls hk hfls
        have htop : (1#32 <<< 31).signExtend 64 ≠ ~~~((BitVec.allOnes 64 <<< 1) >>> 1) := by decide
        have hbit : ((1#32 <<< 31).signExtend 64).toNat = 2 ^ 64 - 2 ^ 31 := by decide
        have hshift : ((1#32 <<< 31).signExtend 64 <<< 1).toNat = 2 ^ 64 - 2 ^ 32 := by decide
        rw [if_neg htop] at hactual
        have hless : (1#32 <<< 31).signExtend 64 < size ↔ 2 ^ 64 - 2 ^ 31 < size.toNat := by
          rw [BitVec.lt_def, hbit]
        by_cases hmore : 2 ^ 64 - 2 ^ 31 < size.toNat
        · -- the bit is shifted off
          rw [if_pos (hless.mpr hmore)] at hactual
          refine iff_of_false (fun h => ?_) (by omega)
          obtain ⟨length, hlength, hfit⟩ := h
          obtain rfl := Except.ok.inj (hactual.symm.trans hlength)
          omega
        · rw [if_neg (mt hless.mp hmore)] at hactual
          exact iff_of_true ⟨_, hactual, by omega⟩ (.inr ⟨by omega, by omega⟩)

theorem dmaPoolAlloc_iff (heap : VmkHeap) (pool : DmaPool) (wait : Bool) (hne : pool.size ≠ 0) :
    (∃ r req, dmaPoolAlloc heap pool wait = .ok r ∧ r.request = some req ∧
        pool.size.toNat ≤ req.length.toNat) ↔
      ∃ length, actualLength pool.size = .ok length ∧ pool.size.toNat ≤ length.toNat := by
  rw [dmaPoolAlloc, kmallocAlign, if_neg hne]
  -- the length is what the call asks for, if there is one
  cases hactual : actualLength pool.size with
  | error e =>
    refine iff_of_false ?_ ?_
    · rintro ⟨r, req, hr, -⟩
      cases hr
    · rintro ⟨length, hlength, -⟩
      cases hlength
  | ok length =>
    constructor
    · rintro ⟨r, req, hr, hreq, hfit⟩
      cases hr
      cases hreq
      exact ⟨length, rfl, hfit⟩
    · rintro ⟨length', hlength, hfit⟩
      cases hlength
      exact ⟨_, _, rfl, rfl, hfit⟩

/-! ## Creation -/

variable {heapId : Nat}

theorem dmaPoolCreate_accepted (heapId : Nat) (h : PoolAccepts size align boundary)
    (pool : DmaPool) :
    dmaPoolCreate true heapId size align boundary = .ok (some pool) ↔
      ∃ raised, (if requestedAlign align < size then poolRaise size
          else .ok (requestedAlign align)) = .ok raised ∧ pool = ⟨size, raised, heapId⟩ := by
  have hcreate : dmaPoolCreate true heapId size align boundary =
      (if requestedAlign align < size then poolRaise size else .ok (requestedAlign align)).map
        fun raised => some ⟨size, raised, heapId⟩ := by
    unfold dmaPoolCreate
    rw [if_neg fun hbad => h.align.elim hbad.1 hbad.2, if_neg ?_, if_neg h.size]
    · by_cases hraise : requestedAlign align < size
      · simp only [if_pos hraise]
        cases poolRaise size <;> rfl
      · simp only [if_neg hraise]
        rfl
    -- the boundary passes both of its tests
    · rintro ⟨hne, hbad⟩
      obtain ⟨hle, hpower⟩ := h.boundary.resolve_left hne
      exact hbad.elim (BitVec.not_lt.mpr hle) fun hnot => hnot hpower
  rw [hcreate]
  generalize (if requestedAlign align < size then poolRaise size
    else .ok (requestedAlign align)) = outcome
  cases outcome with
  | error e => exact iff_of_false nofun fun ⟨_, hraised, _⟩ => nomatch hraised
  | ok raised =>
    constructor
    · intro hpool
      exact ⟨raised, rfl, (Option.some.inj (Except.ok.inj hpool)).symm⟩
    · rintro ⟨raised', hraised, rfl⟩
      cases hraised
      rfl

theorem meets_of_power (h : PoolAccepts size align boundary) {raised : BitVec 64}
    (hpower : ∃ k, raised.toNat = 2 ^ k) (hsize : size.toNat ≤ raised.toNat)
    (hrequested : (requestedAlign align).toNat ≤ raised.toNat)
    (hlength : ∃ length, actualLength size = .ok length ∧ size.toNat ≤ length.toNat) :
    (⟨size, raised, heapId⟩ : DmaPool).Meets size align boundary := by
  have haligned : boundary ≠ 0 → ∀ a, raised.toNat ∣ a →
      InWindow boundary.toNat a size.toNat := by
    intro hne a ha
    obtain ⟨hle, hboundary⟩ := h.boundary.resolve_left hne
    exact inWindow_of_power hpower ((and_sub_one_iff hne).mp hboundary) hsize
      (BitVec.le_def.mp hle) ha
  refine ⟨hpower, hsize, hrequested, haligned, fun heap hheap wait => ?_⟩
  obtain ⟨length, hactual, hfit⟩ := hlength
  have halloc : dmaPoolAlloc heap ⟨size, raised, heapId⟩ wait =
      .ok (HeapRequest.send heap ⟨heapId, length, some raised, heapTimeout wait⟩) := by
    rw [dmaPoolAlloc, kmallocAlign, if_neg h.size]
    rw [hactual]
    rfl
  refine ⟨_, _, halloc, rfl, hfit, fun a hblock => ?_⟩
  -- the block is aligned as the pool is
  have hdvd : raised.toNat ∣ a := by
    cases hsent : heap ⟨heapId, length, some raised, heapTimeout wait⟩ with
    | none =>
      rw [HeapRequest.send, hsent] at hblock
      cases hblock
    | some a' =>
      rw [HeapRequest.send, hsent] at hblock
      obtain rfl : a' = a := by injection hblock
      exact hheap _ _ raised hsent rfl
  exact ⟨(dvd_of_powers (requestedAlign_power h) hpower hrequested).trans hdvd,
    fun hne => haligned hne a hdvd⟩

/-- **DMA pools**: of what is accepted, the alignment of the pool serves and what is allocated meets
    the constraints, if and only if the size needs not be raised or is below 2^30, and is below
    2^31 or such that its length becomes negative. -/
theorem pool_meets_iff (heapId : Nat) (h : PoolAccepts size align boundary) :
    (∃ pool, dmaPoolCreate true heapId size align boundary = .ok (some pool) ∧
        pool.Meets size align boundary) ↔ PoolFits size align := by
  have hlength := actualLength_ge_iff h.size
  constructor
  · rintro ⟨pool, hpool, hmeets⟩
    obtain ⟨raised, hraised, rfl⟩ := (dmaPoolCreate_accepted heapId h pool).mp hpool
    constructor
    -- otherwise the alignment is raised, to what is too small or not a power
    · by_contra hnot
      rw [not_or, not_or, Nat.not_le, Nat.not_lt] at hnot
      obtain ⟨hsmall, hpower, hge⟩ := hnot
      rw [if_pos (BitVec.lt_def.mpr hsmall)] at hraised
      rcases poolRaise_of_ge hpower hge hraised with hless | hnone
      · exact absurd hmeets.size_le (Nat.not_le.mpr hless)
      · exact hnone hmeets.power
    · obtain ⟨r, req, hr, hreq, hfit, -⟩ := hmeets.alloc (fun _ => none) nofun false
      have halloc := dmaPoolAlloc_iff (fun _ => none) ⟨size, raised, heapId⟩ false h.size
      exact hlength.mp (halloc.mp ⟨r, req, hr, hreq, hfit⟩)
  · intro hfits
    have hactual := hlength.mpr hfits.length
    -- the alignment is kept, is the size, or is the next power
    by_cases hraise : requestedAlign align < size
    · have hless := BitVec.lt_def.mp hraise
      by_cases hpower : ∃ k, size.toNat = 2 ^ k
      · have hraised := poolRaise_power h.size hpower
        exact ⟨_, (dmaPoolCreate_accepted heapId h _).mpr ⟨_, (if_pos hraise).trans hraised, rfl⟩,
          meets_of_power h hpower le_rfl hless.le hactual⟩
      · have hlt := (hfits.raise.resolve_left (Nat.not_le.mpr hless)).resolve_left hpower
        obtain ⟨raised, hraised, hraisedPower, hle, -⟩ :=
          poolRaise_of_lt hpower (Nat.zero_lt_of_lt hless) hlt
        exact ⟨_, (dmaPoolCreate_accepted heapId h _).mpr ⟨_, (if_pos hraise).trans hraised, rfl⟩,
          meets_of_power h hraisedPower hle (hless.le.trans hle) hactual⟩
    · have hle := BitVec.le_def.mp (BitVec.not_lt.mp hraise)
      exact ⟨_, (dmaPoolCreate_accepted heapId h _).mpr ⟨_, if_neg hraise, rfl⟩,
        meets_of_power h (requestedAlign_power h) hle le_rfl hactual⟩

/-- A pool of blocks of 100 bytes that do not pass a page. -/
theorem pool_meets_page : ∃ pool, dmaPoolCreate true 1 100 0 4096 = .ok (some pool) ∧
    pool.Meets 100 0 4096 :=
  (pool_meets_iff 1 ⟨.inl rfl, .inr (by decide), by decide⟩).mpr
    ⟨.inr (.inr (by decide)), .inl (by decide)⟩

/-- A gigabyte and a byte get an alignment that is no power of two. -/
theorem pool_negative : PoolAccepts 0x40000001 0 0 ∧
    dmaPoolCreate true 1 0x40000001 0 0 =
      .ok (some ⟨0x40000001, 0xffffffff80000000, 1⟩) ∧
    ¬(⟨0x40000001, 0xffffffff80000000, 1⟩ : DmaPool).Meets 0x40000001 0 0 := by
  refine ⟨⟨.inl rfl, .inl rfl, by decide⟩, by decide, fun h => ?_⟩
  have hand := (and_sub_one_iff (x := 0xffffffff80000000) (by decide)).mpr h.power
  exact absurd hand (by decide)

end VmkDrivers.Vmklinux
