/-
  VmkDrivers.Vmklinux.DmaSync

  Giving a mapped buffer back to the CPU or the device (`linux_dma.c`).

  `Linux_DmaFlushSgCommon` flushes a part of a scatter list by its length, which it
  adds up from the first element as often as there are elements; whether a part is
  meant it takes from the array of the IO addresses, which need not have as many.
  `Linux_DmaFlushSingleCommon` translates the direction and then passes the other one:
  no value means the same in both encodings (`sync_right_iff`).
-/

import VmkDrivers.Vmklinux.DmaConstraints

namespace VmkDrivers.Vmklinux

/-! ## Directions -/

/-- `enum dma_data_direction`, as far as it is valid. -/
inductive DmaDirection where
  | bidirectional
  | toDevice
  | fromDevice
deriving DecidableEq, Repr

def DmaDirection.toNat : DmaDirection → Nat
  | .bidirectional => 0
  | .toDevice => 1
  | .fromDevice => 2

inductive VmkDmaDirection where
  | none
  | toMemory
  | fromMemory
  | bidirectional
deriving DecidableEq, Repr

def VmkDmaDirection.toNat : VmkDmaDirection → Nat
  | .none => 0
  | .toMemory => 1
  | .fromMemory => 2
  | .bidirectional => 3

/-- `Linux_ToVmkDMADirection` -/
def DmaDirection.toVmk : DmaDirection → VmkDmaDirection
  | .bidirectional => .bidirectional
  | .toDevice => .fromMemory
  | .fromDevice => .toMemory

/-! ## Devices and lists -/

/-- Of a `struct device`, how it is mapped. -/
structure SyncDevice where
  identityMapped : Bool := false
  /-- `none` is `VMK_DMA_ENGINE_INVALID`. -/
  enginePrimary : Option Nat
deriving DecidableEq, Repr

/-- `struct scatterlist`, with the elements that `dma_map_sg` is given. -/
structure SyncScatterlist where
  vmksgel : List DmaSgElem
  premapped : Bool := false
  /-- `vmkIOsga->numElems`; `none` is a NULL pointer. -/
  vmkIOsga : Option Nat := none
deriving DecidableEq, Repr

/-- A call of `vmk_DMAFlushElem` or `vmk_DMAFlushSg`; `direction` is the number passed. -/
inductive DmaFlush where
  | elem (direction : Nat) (ioAddr : UInt64) (length : UInt32)
  | sg (direction : Nat) (offset len : UInt64)
deriving DecidableEq, Repr

/-- `VMK_DMA_FLUSH_SG_ALL` -/
def flushSgAll : UInt64 := 0xffffffffffffffff

/-- `dma_map_sg` for a device with an engine, with the outcome of `vmk_SgAlloc` and the number of
    elements that `vmk_DMAMapSg` makes; `none` is a failure. -/
def SyncScatterlist.dmaMapSg (sg : SyncScatterlist) (sgAlloc : Bool) (mapSg : Option Nat) :
    Option SyncScatterlist :=
  if sg.premapped then some sg
  else if sgAlloc = false then none
  else
    match mapSg with
    | none => none
    | some numElems => some { sg with vmkIOsga := some numElems }

/-- `Linux_DmaFlushSingleCommon` -/
def dmaFlushSingleCommon (hwdev : Option SyncDevice) (handle offset size : UInt64)
    (direction : DmaDirection) : List DmaFlush :=
  match hwdev with
  | none => []
  | some d =>
    if d.identityMapped then []
    else
      match d.enginePrimary with
      -- `vmkDirection` is computed, but `direction` is passed
      | some _ => [.elem direction.toNat (handle + offset) size.toUInt32]
      | none => []

/-- The loop of `Linux_DmaFlushSgCommon`; `elem` stays where it is. -/
def flushLenLoop (length : UInt32) : Nat → UInt64 → UInt64
  | 0, flushLen => flushLen
  | i + 1, flushLen => flushLenLoop length i (flushLen + length.toUInt64)

def SyncScatterlist.firstLength (sg : SyncScatterlist) : UInt32 :=
  (sg.vmksgel.head?.map DmaSgElem.length).getD 0

/-- `Linux_DmaFlushSgCommon` -/
def dmaFlushSgCommon (hwdev : Option SyncDevice) (sg : SyncScatterlist) (nelems : Nat)
    (direction : DmaDirection) : List DmaFlush :=
  match hwdev with
  | none => []
  | some d =>
    if d.identityMapped then []
    else
      match sg.vmkIOsga, d.enginePrimary with
      | none, _ => []
      | some _, none => []
      | some numElems, some _ =>
        let flushLen :=
          if numElems = nelems then flushSgAll else flushLenLoop sg.firstLength nelems 0
        [.sg direction.toVmk.toNat 0 flushLen]

inductive SyncRequest where
  | single (handle offset size : UInt64) (direction : DmaDirection)
  | sg (sg : SyncScatterlist) (sgAlloc : Bool) (mapSg : Option Nat) (nelems : Nat)
      (direction : DmaDirection)
deriving DecidableEq, Repr

/-! ## What is promised -/

def SyncScatterlist.bytes (sg : SyncScatterlist) (nelems : Nat) : Nat :=
  ((sg.vmksgel.take nelems).map fun e => e.length.toNat).sum

/-- The bytes of a buffer of `total` bytes that a call flushes, from its start. -/
def DmaFlush.bytes (total : Nat) : DmaFlush → Nat
  | .elem _ _ length => length.toNat
  | .sg _ _ len => if len = flushSgAll then total else len.toNat

/-- The range of `handle + offset` with `size` bytes is flushed, in the mapped direction. -/
def SingleRight (hwdev : Option SyncDevice) (handle offset size : UInt64)
    (direction : DmaDirection) : Prop :=
  ∃ length : UInt32, length.toNat = size.toNat ∧
    dmaFlushSingleCommon hwdev handle offset size direction =
      [.elem direction.toVmk.toNat (handle + offset) length]

/-- The bytes of the first `nelems` elements are flushed, in the mapped direction. -/
structure SgRight (hwdev : Option SyncDevice) (sg : SyncScatterlist) (nelems : Nat)
    (direction : DmaDirection) : Prop where
  calls : ∀ f ∈ dmaFlushSgCommon hwdev sg nelems direction,
    ∃ len, f = .sg direction.toVmk.toNat 0 len
  bytes : ((dmaFlushSgCommon hwdev sg nelems direction).map
    (DmaFlush.bytes (sg.bytes sg.vmksgel.length))).sum = sg.bytes nelems

def SyncRight (hwdev : Option SyncDevice) : SyncRequest → Prop
  | .single handle offset size direction => SingleRight hwdev handle offset size direction
  | .sg sg sgAlloc mapSg nelems direction =>
    ∀ mapped, sg.dmaMapSg sgAlloc mapSg = some mapped → nelems ≤ mapped.vmksgel.length →
      SgRight hwdev mapped nelems direction

/-- Of a mapped list: if the IO array has `nelems` elements, no byte follows the first `nelems`
    elements of the list; if it has another number, these have `nelems` times the bytes of the
    first. -/
def SyncScatterlist.PartFits (sg : SyncScatterlist) (nelems : Nat) : Prop :=
  match sg.vmkIOsga with
  | none => sg.bytes nelems = 0
  | some numElems =>
    if numElems = nelems then sg.bytes sg.vmksgel.length = sg.bytes nelems
    else nelems * sg.firstLength.toNat = sg.bytes nelems

def SyncFits : SyncRequest → Prop
  | .single _ _ _ _ => False
  | .sg sg sgAlloc mapSg nelems _ =>
    ∀ mapped, sg.dmaMapSg sgAlloc mapSg = some mapped → nelems ≤ mapped.vmksgel.length →
      mapped.PartFits nelems

/-- A list has as many elements as an `int` can say. -/
def SyncRequest.Counted : SyncRequest → Prop
  | .single _ _ _ _ => True
  | .sg list _ _ _ _ => list.vmksgel.length < 2 ^ 31

/-! ## Flushing -/

variable {d : SyncDevice} {engine : Nat}

theorem toNat_ne_toVmk (direction : DmaDirection) : direction.toNat ≠ direction.toVmk.toNat := by
  cases direction <;> decide

theorem single_wrong (hidentity : d.identityMapped = false)
    (hengine : d.enginePrimary = some engine) (handle offset size : UInt64)
    (direction : DmaDirection) :
    ¬SingleRight (some d) handle offset size direction := by
  rintro ⟨length, -, hflush⟩
  rw [dmaFlushSingleCommon, hidentity, if_neg Bool.false_ne_true, hengine] at hflush
  injection hflush with helem
  injection helem with hdirection
  exact toNat_ne_toVmk direction hdirection

theorem flushLenLoop_toNat (length : UInt32) (n : Nat) (flushLen : UInt64) :
    (flushLenLoop length n flushLen).toNat = (flushLen.toNat + n * length.toNat) % 2 ^ 64 := by
  induction n generalizing flushLen with
  | zero =>
    rw [flushLenLoop, Nat.zero_mul, Nat.add_zero]
    exact (Nat.mod_eq_of_lt flushLen.toNat_lt).symm
  | succ n ih =>
    rw [flushLenLoop, ih, UInt64.toNat_add, UInt32.toNat_toUInt64, Nat.mod_add_mod, Nat.succ_mul]
    congr 1
    omega

theorem flushLenLoop_lt (length : UInt32) {n : Nat} (hn : n < 2 ^ 31) :
    (flushLenLoop length n 0).toNat = n * length.toNat ∧ flushLenLoop length n 0 ≠ flushSgAll := by
  have hlength := length.toNat_lt
  -- an `int` of lengths that are 32 bits wide: nothing wraps, and the sum is not the mark for all
  have hprod : n * length.toNat ≤ (2 ^ 31 - 1) * (2 ^ 32 - 1) :=
    Nat.mul_le_mul (by omega) (by omega)
  have hsum : (flushLenLoop length n 0).toNat = n * length.toNat := by
    rw [flushLenLoop_toNat, UInt64.toNat_zero, Nat.zero_add]
    exact Nat.mod_eq_of_lt (by omega)
  refine ⟨hsum, fun hall => ?_⟩
  rw [hall] at hsum
  have hvalue : flushSgAll.toNat = 2 ^ 64 - 1 := rfl
  omega

theorem sg_iff (hidentity : d.identityMapped = false) (hengine : d.enginePrimary = some engine)
    (sg : SyncScatterlist) {nelems : Nat} (hn : nelems < 2 ^ 31) (direction : DmaDirection) :
    SgRight (some d) sg nelems direction ↔ sg.PartFits nelems := by
  cases hio : sg.vmkIOsga with
  | none =>
    -- without IO addresses nothing is flushed
    have hnone : dmaFlushSgCommon (some d) sg nelems direction = [] := by
      rw [dmaFlushSgCommon, hio]
      rw [hidentity, if_neg Bool.false_ne_true]
    rw [SyncScatterlist.PartFits, hio]
    constructor
    · intro h
      have hbytes := h.bytes
      rw [hnone] at hbytes
      exact hbytes.symm
    · intro hzero
      refine ⟨?_, ?_⟩
      · rw [hnone]
        exact nofun
      · rw [hnone]
        exact hzero.symm
  | some numElems =>
    obtain ⟨hsum, hnotAll⟩ := flushLenLoop_lt sg.firstLength hn
    -- otherwise there is one call: for all, or for a length
    have hone : dmaFlushSgCommon (some d) sg nelems direction =
        [.sg direction.toVmk.toNat 0
          (if numElems = nelems then flushSgAll else flushLenLoop sg.firstLength nelems 0)] := by
      rw [dmaFlushSgCommon, hio, hengine]
      rw [hidentity, if_neg Bool.false_ne_true]
    have hbytes : ((dmaFlushSgCommon (some d) sg nelems direction).map
        (DmaFlush.bytes (sg.bytes sg.vmksgel.length))).sum =
        if numElems = nelems then sg.bytes sg.vmksgel.length
        else nelems * sg.firstLength.toNat := by
      rw [hone, List.map_singleton, List.sum_singleton, DmaFlush.bytes]
      by_cases hwhole : numElems = nelems
      · rw [if_pos hwhole, if_pos hwhole, if_pos rfl]
      · rw [if_neg hwhole, if_neg hwhole, if_neg hnotAll, hsum]
    -- the direction is right in any case
    have hdirection : ∀ f ∈ dmaFlushSgCommon (some d) sg nelems direction,
        ∃ len, f = .sg direction.toVmk.toNat 0 len := by
      rw [hone]
      intro f hf
      exact ⟨_, List.mem_singleton.mp hf⟩
    have hright : SgRight (some d) sg nelems direction ↔
        (if numElems = nelems then sg.bytes sg.vmksgel.length
          else nelems * sg.firstLength.toNat) = sg.bytes nelems :=
      ⟨fun h => hbytes.symm.trans h.bytes, fun h => ⟨hdirection, hbytes.trans h⟩⟩
    rw [hright, SyncScatterlist.PartFits, hio]
    dsimp only
    split <;> rfl

theorem dmaMapSg_vmksgel {sg mapped : SyncScatterlist} {sgAlloc : Bool} {mapSg : Option Nat}
    (h : sg.dmaMapSg sgAlloc mapSg = some mapped) : mapped.vmksgel = sg.vmksgel := by
  unfold SyncScatterlist.dmaMapSg at h
  split at h
  · rw [← Option.some.inj h]
  · split at h
    · cases h
    · split at h
      · cases h
      · rw [← Option.some.inj h]

/-- **DMA sync**: for a device with an engine, a part of a list is flushed exactly and in the mapped
    direction if and only if it is all that has bytes where the IO array has as many elements, and
    as long as that many times its first element where it has not; a single buffer never is. -/
theorem sync_right_iff (hidentity : d.identityMapped = false)
    (hengine : d.enginePrimary = some engine) (r : SyncRequest) (hcounted : r.Counted) :
    SyncRight (some d) r ↔ SyncFits r := by
  cases r with
  | single handle offset size direction =>
    exact iff_of_false (single_wrong hidentity hengine handle offset size direction) id
  | sg sg sgAlloc mapSg nelems direction =>
    refine forall_congr' fun mapped => forall_congr' fun hmapped => forall_congr' fun hle => ?_
    rw [dmaMapSg_vmksgel hmapped] at hle
    exact sg_iff hidentity hengine mapped (Nat.lt_of_le_of_lt hle hcounted) direction

def pageList : SyncScatterlist := ⟨[⟨0x1000, 512⟩, ⟨0x2000, 4096⟩, ⟨0x4000, 512⟩], false, none⟩

/-- The first of them is flushed. -/
theorem sync_right_first :
    SyncRight (some ⟨false, some 1⟩) (.sg pageList true (some 3) 1 .toDevice) :=
  (sync_right_iff rfl rfl (.sg pageList true (some 3) 1 .toDevice) (show 3 < 2 ^ 31 by decide)).mpr
    fun mapped hmapped _ => by
      cases hmapped
      show 1 * 512 = 512
      decide

/-- The first two are flushed by twice the first one's length; and for a buffer that the device
    reads, what the device has written is flushed. -/
theorem sync_wrong :
    ¬SyncRight (some ⟨false, some 1⟩) (.sg pageList true (some 3) 2 .toDevice) ∧
      ¬SyncRight (some ⟨false, some 1⟩) (.single 0x1000 0 512 .toDevice) := by
  constructor
  · intro h
    exact absurd (h { pageList with vmkIOsga := some 3 } rfl (by decide)).bytes (by decide)
  · exact single_wrong rfl rfl 0x1000 0 512 .toDevice

end VmkDrivers.Vmklinux
