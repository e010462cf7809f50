/-
  VmkDrivers.Vmklinux.DmaConstraints

  The addresses that a device with identity mapping is given (`linux_dma.c`).

  `Linux_DMACheckContraints` stands for all ways of mapping a buffer.  It compares the
  first address with `dma_mask` and not the last, and its test for `dma_boundary` adds
  in 64 bits.  A list that comes premapped is not looked at.  `buffer_reachable_iff` says
  when what is accepted can be reached all the same.

  Devices with an engine are the vmkernel's.  The stress test of debug builds is left out.
-/

import VmkDrivers.Lib.Window

namespace VmkDrivers.Vmklinux

open VmkDrivers.Lib

/-! ## The check -/

/-- Of a `struct device` with `dma_identity_mapped`, its constraints. -/
structure DmaDevice where
  /-- `*dma_mask`; `none` is a NULL pointer. -/
  dmaMask : Option UInt64
  dmaBoundary : UInt64
deriving DecidableEq, Repr

def DmaDevice.mask (d : DmaDevice) : UInt64 := d.dmaMask.getD 0

/-- `Linux_DMACheckContraints`; `false` is `VMK_FAILURE`. -/
def DmaDevice.checkContraints (d : DmaDevice) (maddr length : UInt64) : Bool :=
  if d.mask ≠ 0 ∧ d.mask < maddr then false
  else if d.dmaBoundary ≠ 0 ∧ d.dmaBoundary < (maddr &&& d.dmaBoundary) + (length - 1) then false
  else true

/-! ## Ways of mapping -/

/-- `bad_dma_address`, which nothing sets. -/
def badDmaAddress : UInt64 := 0

structure DmaSgElem where
  addr : UInt64
  length : UInt32
deriving DecidableEq, Repr

/-- `struct scatterlist`, with the first `nents` elements of its arrays. -/
structure DmaScatterlist where
  premapped : Bool := false
  vmksgel : List DmaSgElem := []
  /-- With `premapped`, what the device is given. -/
  vmkIOsgel : List DmaSgElem := []
deriving DecidableEq, Repr

structure DmaBuffer where
  addr : UInt64
  length : UInt64
deriving DecidableEq, Repr

def DmaSgElem.buffer (e : DmaSgElem) : DmaBuffer := ⟨e.addr, e.length.toUInt64⟩

namespace DmaDevice

variable (d : DmaDevice)

/-- `Linux_DMAMapVA`, with what `vmk_VA2MA` finds. -/
def mapVA (maddr : Option UInt64) (length : UInt64) : UInt64 :=
  match maddr with
  | none => badDmaAddress
  | some maddr => if d.checkContraints maddr length = false then badDmaAddress else maddr

def dmaMapSingle (maddr : Option UInt64) (size : UInt64) : UInt64 := d.mapVA maddr size

def dmaMapPage (phys offset size : UInt64) : UInt64 :=
  if d.checkContraints (phys + offset) size = false then badDmaAddress else phys + offset

/-- `dma_map_sg`, with the outcome of `vmk_SgAlloc`: the number returned, and `vmkIOsgel`. -/
def dmaMapSg (sgAlloc : Bool) (sg : DmaScatterlist) : Nat × List DmaSgElem :=
  if sg.premapped then (sg.vmkIOsgel.length, sg.vmkIOsgel)
  else if sgAlloc = false then (0, sg.vmkIOsgel)
  else if sg.vmksgel.all fun e => d.checkContraints e.addr e.length.toUInt64 then
    (sg.vmksgel.length, sg.vmksgel)
  else (0, sg.vmkIOsgel)

/-- `dma_alloc_coherent`, and `dma_pool_alloc` with the size of its pool: `heap` says whether the
    heap has a block, and `maddr` is what `vmk_VA2MA` finds for it.  `none` is NULL. -/
def dmaAllocCoherent (heap : Bool) (maddr : Option UInt64) (size : UInt64) : Option UInt64 :=
  if heap = false then none
  else if d.mapVA maddr size = badDmaAddress then none
  else some (d.mapVA maddr size)

end DmaDevice

inductive DmaRequest where
  | mapSingle (maddr : Option UInt64) (size : UInt64)
  | mapPage (phys offset size : UInt64)
  | mapSg (sgAlloc : Bool) (sg : DmaScatterlist)
  | allocCoherent (heap : Bool) (maddr : Option UInt64) (size : UInt64)
deriving DecidableEq, Repr

/-- The buffers that the device is given, unless there is an error (`dma_mapping_error`). -/
def DmaDevice.mapped (d : DmaDevice) : DmaRequest → List DmaBuffer
  | .mapSingle maddr size =>
    if d.dmaMapSingle maddr size = badDmaAddress then [] else [⟨d.dmaMapSingle maddr size, size⟩]
  | .mapPage phys offset size =>
    if d.dmaMapPage phys offset size = badDmaAddress then []
    else [⟨d.dmaMapPage phys offset size, size⟩]
  | .mapSg sgAlloc sg =>
    if (d.dmaMapSg sgAlloc sg).1 = 0 then []
    else (d.dmaMapSg sgAlloc sg).2.map DmaSgElem.buffer
  | .allocCoherent heap maddr size =>
    match d.dmaAllocCoherent heap maddr size with
    | none => []
    | some handle => [⟨handle, size⟩]

/-! ## What is promised -/

namespace DmaDevice

variable (d : DmaDevice)

structure Constrained : Prop where
  mask : ∃ k ≤ 64, d.mask.toNat = 2 ^ k - 1
  boundary : ∃ k ≤ 64, d.dmaBoundary.toNat = 2 ^ k - 1

/-- The device reaches all bytes of a buffer, and does not pass a boundary in it. -/
structure Reachable (b : DmaBuffer) : Prop where
  mask : d.mask ≠ 0 → ∀ i < b.length.toNat, (b.addr.toNat + i) % 2 ^ 64 ≤ d.mask.toNat
  boundary : d.dmaBoundary ≠ 0 → ∀ i < b.length.toNat,
    (b.addr.toNat + i) % 2 ^ 64 / (d.dmaBoundary.toNat + 1) =
      b.addr.toNat / (d.dmaBoundary.toNat + 1)

/-- A buffer that begins above the mask, or that is seen to pass a boundary. -/
def Refused (b : DmaBuffer) : Prop :=
  d.mask ≠ 0 ∧ d.mask < b.addr ∨
    d.dmaBoundary ≠ 0 ∧ d.dmaBoundary < (b.addr &&& d.dmaBoundary) + (b.length - 1)

/-- The length does not lead above a mask that is below `2 ^ 64 - 1`, nor does the test for the
    boundary overflow. -/
structure Fits (b : DmaBuffer) : Prop where
  mask : d.mask ≠ 0 → d.mask.toNat + 1 = 2 ^ 64 ∨
    b.addr.toNat + b.length.toNat ≤ d.mask.toNat + 1
  boundary : d.dmaBoundary ≠ 0 → d.dmaBoundary.toNat + 1 = 2 ^ 64 ∨
    (b.addr &&& d.dmaBoundary).toNat + b.length.toNat ≤ 2 ^ 64

/-- Of a list, that its elements fit if none is refused, and that a premapped one is right. -/
def SgFits (sgAlloc : Bool) (sg : DmaScatterlist) : Prop :=
  if sg.premapped then
    ∀ e ∈ sg.vmkIOsgel, e.length ≠ 0 → ¬d.Refused e.buffer ∧ d.Fits e.buffer
  else
    sgAlloc = true → (∀ e ∈ sg.vmksgel, ¬d.Refused e.buffer) → ∀ e ∈ sg.vmksgel, d.Fits e.buffer

/-- Of a request, that no buffer fails which is neither refused nor taken for an error. -/
def RequestFits : DmaRequest → Prop
  | .mapSingle maddr size =>
    ∀ a, maddr = some a → a ≠ badDmaAddress → ¬d.Refused ⟨a, size⟩ → d.Fits ⟨a, size⟩
  | .mapPage phys offset size =>
    phys + offset ≠ badDmaAddress → ¬d.Refused ⟨phys + offset, size⟩ →
      d.Fits ⟨phys + offset, size⟩
  | .mapSg sgAlloc sg => d.SgFits sgAlloc sg
  | .allocCoherent heap maddr size =>
    heap = true → ∀ a, maddr = some a → a ≠ badDmaAddress → ¬d.Refused ⟨a, size⟩ →
      d.Fits ⟨a, size⟩

/-! ## One buffer -/

variable {d} {b : DmaBuffer}

theorem check_eq_true_iff : d.checkContraints b.addr b.length = true ↔ ¬d.Refused b := by
  unfold checkContraints Refused
  -- the two tests, in their order
  by_cases hmask : d.mask ≠ 0 ∧ d.mask < b.addr
  · rw [if_pos hmask]
    exact iff_of_false Bool.false_ne_true fun h => h (.inl hmask)
  · rw [if_neg hmask]
    by_cases hboundary :
        d.dmaBoundary ≠ 0 ∧ d.dmaBoundary < (b.addr &&& d.dmaBoundary) + (b.length - 1)
    · rw [if_pos hboundary]
      exact iff_of_false Bool.false_ne_true fun h => h (.inr hboundary)
    · rw [if_neg hboundary]
      exact iff_of_true rfl (not_or.mpr ⟨hmask, hboundary⟩)

theorem toNat_eq_zero_iff {x : UInt64} : x.toNat = 0 ↔ x = 0 := by
  rw [← UInt64.toNat_inj, UInt64.toNat_zero]

theorem boundary_lt_iff (hd : d.Constrained) (hlen : b.length ≠ 0) :
    (b.addr &&& d.dmaBoundary).toNat = b.addr.toNat % (d.dmaBoundary.toNat + 1) ∧
      (d.dmaBoundary < (b.addr &&& d.dmaBoundary) + (b.length - 1) ↔
        d.dmaBoundary.toNat + 1 < b.addr.toNat % (d.dmaBoundary.toNat + 1) + b.length.toNat ∧
          b.addr.toNat % (d.dmaBoundary.toNat + 1) + b.length.toNat ≤ 2 ^ 64) := by
  -- the boundary is all ones, so that the mask takes a remainder
  obtain ⟨k, -, hones⟩ := hd.boundary
  have hand : (b.addr &&& d.dmaBoundary).toNat = b.addr.toNat % (d.dmaBoundary.toNat + 1) := by
    rw [UInt64.toNat_and, hones, Nat.and_two_pow_sub_one_eq_mod,
      Nat.sub_add_cancel (Nat.two_pow_pos k)]
  have hpos : b.length.toNat ≠ 0 := mt toNat_eq_zero_iff.mp hlen
  have hlt := b.length.toNat_lt
  have hlt' := (b.addr &&& d.dmaBoundary).toNat_lt
  -- the length is not zero, so that one less does not wrap
  have hone : (1 : UInt64) ≤ b.length := by
    rw [UInt64.le_iff_toNat_le]
    exact Nat.one_le_iff_ne_zero.mpr hpos
  have hmod : b.addr.toNat % (d.dmaBoundary.toNat + 1) < d.dmaBoundary.toNat + 1 :=
    Nat.mod_lt _ (Nat.succ_pos _)
  refine ⟨hand, ?_⟩
  rw [UInt64.lt_iff_toNat_lt, UInt64.toNat_add, UInt64.toNat_sub_of_le _ _ hone, UInt64.toNat_one,
    hand]
  rw [hand] at hlt'
  omega

theorem window_iff (hd : d.Constrained) :
    (∀ i < b.length.toNat, (b.addr.toNat + i) % 2 ^ 64 / (d.dmaBoundary.toNat + 1) =
        b.addr.toNat / (d.dmaBoundary.toNat + 1)) ↔
      d.dmaBoundary.toNat + 1 = 2 ^ 64 ∨ b.length.toNat = 0 ∨
        b.addr.toNat % (d.dmaBoundary.toNat + 1) + b.length.toNat ≤ d.dmaBoundary.toNat + 1 := by
  obtain ⟨k, hk, hones⟩ := hd.boundary
  refine inWindow_wrapped _ (Nat.succ_pos _) ?_ b.addr.toNat_lt
  rw [hones, Nat.sub_add_cancel (Nat.two_pow_pos k)]
  exact Nat.pow_dvd_pow 2 hk

theorem reachable_iff (hd : d.Constrained) (h : ¬d.Refused b) : d.Reachable b ↔ d.Fits b := by
  unfold Refused at h
  rw [not_or, not_and, not_and] at h
  obtain ⟨hmask, hboundary⟩ := h
  -- the first byte is below the mask; the others may be above or wrap around
  have hmaskIff (hne : d.mask ≠ 0) := fits_wrapped b.length.toNat
    (UInt64.le_iff_toNat_le.mp (UInt64.not_lt.mp (hmask hne))) d.mask.toNat_lt
  have hwindow (hne : d.dmaBoundary ≠ 0) :
      (d.dmaBoundary.toNat + 1 = 2 ^ 64 ∨ b.length.toNat = 0 ∨
        b.addr.toNat % (d.dmaBoundary.toNat + 1) + b.length.toNat ≤ d.dmaBoundary.toNat + 1) ↔
      d.dmaBoundary.toNat + 1 = 2 ^ 64 ∨
        (b.addr &&& d.dmaBoundary).toNat + b.length.toNat ≤ 2 ^ 64 := by
    have hlt := (b.addr &&& d.dmaBoundary).toNat_lt
    have hlt' := d.dmaBoundary.toNat_lt
    by_cases hlen : b.length = 0
    · have hzero := toNat_eq_zero_iff.mpr hlen
      omega
    · have hpos : b.length.toNat ≠ 0 := mt toNat_eq_zero_iff.mp hlen
      obtain ⟨hand, htest⟩ := boundary_lt_iff hd hlen
      -- the test did not fail, or its sum has wrapped
      have hnot := mt htest.mpr (hboundary hne)
      omega
  constructor
  · intro h
    exact ⟨fun hne => (hmaskIff hne).mp (h.mask hne),
      fun hne => (hwindow hne).mp ((window_iff hd).mp (h.boundary hne))⟩
  · intro h
    exact ⟨fun hne => (hmaskIff hne).mpr (h.mask hne),
      fun hne => (window_iff hd).mpr ((hwindow hne).mpr (h.boundary hne))⟩

theorem not_reachable (hd : d.Constrained) (h : d.Refused b) (hlen : b.length ≠ 0) :
    ¬d.Reachable b := by
  intro hreach
  have hpos : b.length.toNat ≠ 0 := mt toNat_eq_zero_iff.mp hlen
  rcases h with ⟨hne, hlt⟩ | ⟨hne, hlt⟩
  -- the first byte is above the mask
  · have hfirst := hreach.mask hne 0 (by omega)
    rw [Nat.add_zero, Nat.mod_eq_of_lt b.addr.toNat_lt] at hfirst
    exact absurd (UInt64.lt_iff_toNat_lt.mp hlt) (Nat.not_lt.mpr hfirst)
  · have hin := (window_iff hd).mp (hreach.boundary hne)
    have htest := (boundary_lt_iff hd hlen).2.mp hlt
    have hblen := b.length.toNat_lt
    omega

theorem reachable_of_length_eq_zero (hlen : b.length = 0) : d.Reachable b := by
  have hzero : b.length.toNat = 0 := toNat_eq_zero_iff.mpr hlen
  exact ⟨fun _ i hi => by omega, fun _ i hi => by omega⟩

/-! ## Requests -/

theorem mapVA_eq (maddr : Option UInt64) (length : UInt64) :
    (if d.mapVA maddr length = badDmaAddress then [] else [⟨d.mapVA maddr length, length⟩]) =
      match maddr with
      | none => []
      | some a =>
        if d.checkContraints a length = true ∧ a ≠ badDmaAddress then [⟨a, length⟩]
        else ([] : List DmaBuffer) := by
  unfold mapVA
  cases maddr with
  | none => rfl
  | some a =>
    by_cases hcheck : d.checkContraints a length = true <;> simp [hcheck]

theorem one_iff (hd : d.Constrained) (a length : UInt64) :
    (∀ b ∈ if d.checkContraints a length = true ∧ a ≠ badDmaAddress then [⟨a, length⟩]
        else ([] : List DmaBuffer), d.Reachable b) ↔
      (a ≠ badDmaAddress → ¬d.Refused ⟨a, length⟩ → d.Fits ⟨a, length⟩) := by
  have hcheck := check_eq_true_iff (d := d) (b := ⟨a, length⟩)
  by_cases hgiven : d.checkContraints a length = true ∧ a ≠ badDmaAddress
  · rw [if_pos hgiven, List.forall_mem_singleton, reachable_iff hd (hcheck.mp hgiven.1)]
    exact ⟨fun h _ _ => h, fun h => h hgiven.2 (hcheck.mp hgiven.1)⟩
  · rw [if_neg hgiven]
    exact iff_of_true nofun fun hne hnot => absurd ⟨hcheck.mpr hnot, hne⟩ hgiven

theorem mapSg_iff (hd : d.Constrained) (sgAlloc : Bool) (sg : DmaScatterlist) :
    (∀ b ∈ d.mapped (.mapSg sgAlloc sg), d.Reachable b) ↔ d.SgFits sgAlloc sg := by
  -- an empty list counts as a failure
  have hmapped (l : List DmaSgElem) :
      (∀ b ∈ if l.length = 0 then [] else l.map DmaSgElem.buffer, d.Reachable b) ↔
        ∀ e ∈ l, d.Reachable e.buffer := by
    split
    · next hzero =>
      rw [List.length_eq_zero_iff.mp hzero]
      exact iff_of_true nofun nofun
    · exact List.forall_mem_map
  rw [mapped, dmaMapSg, SgFits]
  -- a premapped list is not checked at all
  by_cases hpre : sg.premapped = true
  · rw [if_pos hpre, if_pos hpre, hmapped]
    refine forall_congr' fun e => imp_congr_right fun _ => ?_
    by_cases hlen : e.length = 0
    · exact iff_of_true (reachable_of_length_eq_zero (by rw [DmaSgElem.buffer, hlen]; rfl))
        fun hne => absurd hlen hne
    · have hbuffer : e.buffer.length ≠ 0 := by
        intro hzero
        refine hlen (UInt32.toNat_inj.mp ?_)
        rw [← UInt32.toNat_toUInt64]
        exact toNat_eq_zero_iff.mpr hzero
      constructor
      · intro h _
        have hnot : ¬d.Refused e.buffer := fun hrefused => not_reachable hd hrefused hbuffer h
        exact ⟨hnot, (reachable_iff hd hnot).mp h⟩
      · intro h
        obtain ⟨hnot, hfits⟩ := h hlen
        exact (reachable_iff hd hnot).mpr hfits
  · rw [if_neg hpre, if_neg hpre]
    cases sgAlloc with
    | false => exact iff_of_true nofun nofun
    | true =>
      -- each element is checked before the first is mapped
      have hall : (sg.vmksgel.all fun e => d.checkContraints e.addr e.length.toUInt64) = true ↔
          ∀ e ∈ sg.vmksgel, ¬d.Refused e.buffer := by
        rw [List.all_eq_true]
        exact forall_congr' fun e => imp_congr_right fun _ => check_eq_true_iff (b := e.buffer)
      by_cases hcheck :
          (sg.vmksgel.all fun e => d.checkContraints e.addr e.length.toUInt64) = true
      · rw [if_neg Bool.false_ne_true.symm, if_pos hcheck, hmapped]
        have hnot := hall.mp hcheck
        constructor
        · intro h _ _ e he
          exact (reachable_iff hd (hnot e he)).mp (h e he)
        · intro h e he
          exact (reachable_iff hd (hnot e he)).mpr (h rfl hnot e he)
      · rw [if_neg Bool.false_ne_true.symm, if_neg hcheck]
        exact iff_of_true nofun fun _ hnot => absurd (hall.mpr hnot) hcheck

/-- **DMA constraints**: with identity mapping, the device reaches every buffer that it is given,
    if and only if the length of a buffer that is neither refused nor at `bad_dma_address` does not
    lead above the mask or make the test of the boundary overflow, and what comes premapped is
    right. -/
theorem buffer_reachable_iff (hd : d.Constrained) (r : DmaRequest) :
    (∀ b ∈ d.mapped r, d.Reachable b) ↔ d.RequestFits r := by
  cases r with
  | mapSingle maddr size =>
    rw [mapped, dmaMapSingle, mapVA_eq]
    unfold RequestFits
    cases maddr with
    | none => exact iff_of_true nofun nofun
    | some a =>
      rw [one_iff hd a size]
      simp
  -- the page and the offset make one address, checked like that of a buffer
  | mapPage phys offset size =>
    have hpage := one_iff hd (phys + offset) size
    have hva := mapVA_eq (d := d) (some (phys + offset)) size
    rw [mapped, show d.dmaMapPage phys offset size = d.mapVA (some (phys + offset)) size from rfl,
      hva, hpage]
    rfl
  | mapSg sgAlloc sg => exact mapSg_iff hd sgAlloc sg
  | allocCoherent heap maddr size =>
    have hva := mapVA_eq (d := d) maddr size
    -- a handle that is an error is given back as no memory
    have hhandle : d.mapped (.allocCoherent true maddr size) =
        if d.mapVA maddr size = badDmaAddress then [] else [⟨d.mapVA maddr size, size⟩] := by
      rw [mapped, dmaAllocCoherent, if_neg Bool.false_ne_true.symm]
      by_cases hbad : d.mapVA maddr size = badDmaAddress
      · rw [if_pos hbad, if_pos hbad]
      · rw [if_neg hbad, if_neg hbad]
    unfold RequestFits
    cases heap with
    | false => exact iff_of_true nofun nofun
    | true =>
      rw [hhandle, hva]
      cases maddr with
      | none => exact iff_of_true nofun nofun
      | some a =>
        rw [one_iff hd a size]
        simp

def device32 : DmaDevice := ⟨some 0xffffffff, 0xffff⟩

theorem device32_constrained : device32.Constrained :=
  ⟨⟨32, by decide, by decide⟩, ⟨16, by decide, by decide⟩⟩

/-- A page of such a device. -/
theorem buffer_reachable_page :
    (⟨0x3000, 0x1000⟩ : DmaBuffer) ∈ device32.mapped (.mapSingle (some 0x3000) 0x1000) ∧
      device32.Reachable ⟨0x3000, 0x1000⟩ := by
  have hmapped : (⟨0x3000, 0x1000⟩ : DmaBuffer) ∈
      device32.mapped (.mapSingle (some 0x3000) 0x1000) := by decide
  have hfits : device32.RequestFits (.mapSingle (some 0x3000) 0x1000) := by
    intro a ha _ _
    cases ha
    exact ⟨fun _ => .inr (by decide), fun _ => .inr (by decide)⟩
  exact ⟨hmapped, (buffer_reachable_iff device32_constrained _).mpr hfits _ hmapped⟩

/-- Two bytes of which the second is above the mask; and a length that makes the test for the
    boundary overflow. -/
theorem buffer_unreachable :
    (¬∀ b ∈ (⟨some 0xffffffff, 0⟩ : DmaDevice).mapped (.mapSingle (some 0xffffffff) 2),
      (⟨some 0xffffffff, 0⟩ : DmaDevice).Reachable b) ∧
    ¬∀ b ∈ (⟨none, 0xffff⟩ : DmaDevice).mapped (.mapSingle (some 16) 0xfffffffffffffff8),
      (⟨none, 0xffff⟩ : DmaDevice).Reachable b := by
  constructor
  · intro h
    have hreach := h ⟨0xffffffff, 2⟩ (by decide)
    exact absurd (hreach.mask (by decide) 1 (by decide)) (by decide)
  · intro h
    have hreach := h ⟨16, 0xfffffffffffffff8⟩ (by decide)
    exact absurd (hreach.boundary (by decide) 0xffff (by decide)) (by decide)

end DmaDevice

end VmkDrivers.Vmklinux
