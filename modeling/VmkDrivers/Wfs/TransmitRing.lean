/-
  VmkDrivers.Wfs.TransmitRing

  A transmit ring: `ixgbe_xmit_frame_ring` and `ixgbe_tx_map`, which write a
  frame into it, and `ixgbe_clean_tx_irq`, which takes back what the device has
  completed (`ixgbe_main.c`, `ixgbe_lib.c`).

  A DMA mapping is a number and a length, and an skb that is taken on is known
  by a number too; what has been mapped, unmapped and freed is written down.
  The device is at the head register and sets `DD` where a descriptor asks for
  it.  Of a descriptor the offload bits are left out, and so are the filters of
  `ixgbe_atr`, the state of the queue of the net device and the hang check,
  none of which the ring depends on.
-/

import VmkDrivers.Lib.RingBuffer
import VmkDrivers.Lib.Transition
import VmkDrivers.Wfs.Defs

namespace VmkDrivers.Wfs

open VmkDrivers.Lib

/-! ## Frames -/

def ixgbeMaxDataPerTxd : Nat := 2 ^ 14

def maxSkbFrags : Nat := 24

/-- `TXD_USE_COUNT`, in 32 bits. -/
def txdUseCount (s : Nat) : Nat := (s + (ixgbeMaxDataPerTxd - 1)) % 2 ^ 32 / ixgbeMaxDataPerTxd

/-- What is asked of an `skb->protocol`. -/
inductive TxProtocol where
  | vlan
  | fcoe
  | other
deriving DecidableEq, Repr

/-- What the transmit path reads of an skb: the lengths of its head and its fragments, and what the
    offloads go by.  Callers pad it to 17 bytes. -/
structure TxSkb where
  headlen : Nat
  frags : List Nat
  vlanTag : Bool := false
  protocol : TxProtocol := .other
  /-- The protocol behind a VLAN header, if `skb_header_pointer` finds one. -/
  vlanProtocol : Option TxProtocol := some .other
  checksumPartial : Bool := false
  gsoSize : Nat := 0
  gsoSegs : Nat := 0
  hdrLen : Nat := 0
  headerCloned : Bool := false
  /-- `SKB_GSO_FCOE`, and delimiters that are known. -/
  gsoFcoe : Bool := false
  sofKnown : Bool := false
  eofKnown : Bool := false
  frags_le : ∀ f ∈ frags, f ≤ ixgbeMaxDataPerTxd := by decide
  nrFrags_le : frags.length ≤ maxSkbFrags := by decide
  len_lt : headlen + frags.sum < 2 ^ 32 := by decide
  len_ge : 17 ≤ headlen + frags.sum := by decide
deriving DecidableEq, Repr

namespace TxSkb

variable (skb : TxSkb)

/-- `skb->data_len` -/
def dataLen : Nat := skb.frags.sum

/-- `skb->len` -/
def len : Nat := skb.headlen + skb.dataLen

/-- `skb_is_gso` -/
def isGso : Bool := skb.gsoSize ≠ 0

/-- `count`, in 16 bits. -/
def descCount : Nat := (txdUseCount skb.headlen % 2 ^ 16 + skb.frags.length) % 2 ^ 16

/-- What is asked of `ixgbe_maybe_stop_tx`. -/
def reserved : Nat := (skb.descCount + 3) % 2 ^ 16

def offloadProtocol : Option TxProtocol :=
  if !skb.vlanTag && skb.protocol = .vlan then skb.vlanProtocol else some skb.protocol

end TxSkb

/-- `IXGBE_FLAG_SRIOV_L2SWITCH_ENABLE`, and one of `NETIF_F_FSO` and `NETIF_F_FCOE_CRC`. -/
structure TxAdapter where
  l2switchEnable : Bool := false
  fcoe : Bool := false
deriving DecidableEq, Repr

/-! ## The ring -/

/-- `union ixgbe_adv_tx_desc`: a context descriptor, or an address in a mapping, the length and
    `IXGBE_TXD_CMD` in `cmd_type_len`, and `DD` in the status. -/
structure TxDesc where
  context : Bool := false
  bufferAddr : Nat × Nat := (0, 0)
  size : Nat := 0
  cmd : Bool := false
  dd : Bool := false
deriving DecidableEq, Repr

/-- `struct ixgbe_tx_buffer` -/
structure TxBuffer where
  nextToWatch : Option Nat := none
  skb : Option Nat := none
  bytecount : Nat := 0
  gsoSegs : Nat := 0
  dma : Nat := 0
  len : Nat := 0
deriving DecidableEq, Repr

/-- `struct ixgbe_ring` of a transmit queue, with the registers of the device and what has been
    mapped and freed. -/
structure IxgbeRing where
  count : Nat
  nextToUse : Nat := 0
  nextToClean : Nat := 0
  desc : Nat → TxDesc := fun _ => {}
  txBuffer : Nat → TxBuffer := fun _ => {}
  cleanBusy : Bool := false
  bytes : Nat := 0
  packets : Nat := 0
  /-- `IXGBE_TDH` and `IXGBE_TDT` -/
  tdh : Nat := 0
  tdt : Nat := 0
  mapped : List (Nat × Nat) := []
  unmapped : List (Nat × Nat) := []
  submitted : Nat := 0
  freed : List Nat := []

inductive RingFault where
  | frags
  | unwind
  | eop
  | clean
deriving DecidableEq, Repr

namespace IxgbeRing

variable (r : IxgbeRing)

def setDesc (i : Nat) (f : TxDesc → TxDesc) : IxgbeRing :=
  { r with desc := Function.update r.desc i (f (r.desc i)) }

def setBuffer (i : Nat) (f : TxBuffer → TxBuffer) : IxgbeRing :=
  { r with txBuffer := Function.update r.txBuffer i (f (r.txBuffer i)) }

section Updates

variable {r : IxgbeRing} {i k : Nat} {f : TxDesc → TxDesc} {g : TxBuffer → TxBuffer}

@[simp] theorem setDesc_self : (r.setDesc i f).desc i = f (r.desc i) := Function.update_self ..

theorem setDesc_of_ne (h : k ≠ i) : (r.setDesc i f).desc k = r.desc k :=
  Function.update_of_ne h ..

@[simp] theorem setBuffer_self : (r.setBuffer i g).txBuffer i = g (r.txBuffer i) :=
  Function.update_self ..

theorem setBuffer_of_ne (h : k ≠ i) : (r.setBuffer i g).txBuffer k = r.txBuffer k :=
  Function.update_of_ne h ..

end Updates

/-- `ixgbe_desc_unused`, in 16 bits. -/
def ixgbeDescUnused : Nat :=
  ((((if r.nextToClean > r.nextToUse then 0 else r.count : Nat) : Int) + r.nextToClean -
    r.nextToUse - 1) % 2 ^ 16).toNat

/-- `__ixgbe_maybe_stop_tx`, which looks again. -/
def maybeStopTxAgain (size : Nat) : Bool := r.ixgbeDescUnused < size

def ixgbeMaybeStopTx (size : Nat) : Bool :=
  if r.ixgbeDescUnused ≥ size then false else r.maybeStopTxAgain size

/-! ## Offloads -/

def ixgbeTxCtxtdesc : IxgbeRing :=
  { r with
    desc := Function.update r.desc r.nextToUse { context := true }
    nextToUse := if r.nextToUse + 1 < r.count then r.nextToUse + 1 else 0 }

def setSegments (first gsoSegs hdrLen : Nat) : IxgbeRing :=
  r.setBuffer first fun b =>
    { b with
      gsoSegs
      bytecount := ((b.bytecount + ((gsoSegs : Int) - 1) * hdrLen) % 2 ^ 32).toNat }

/-- `ixgbe_fso`, and if it succeeds. -/
def ixgbeFso (first : Nat) (skb : TxSkb) : IxgbeRing × Bool :=
  if skb.isGso && !skb.gsoFcoe then (r, false)
  else if !skb.sofKnown then (r, false)
  else if !skb.eofKnown then (r, false)
  else
    let r :=
      if skb.isGso then
        r.setSegments first
          ((skb.len + 2 ^ 32 - 60 + (skb.gsoSize - 1)) % 2 ^ 32 / skb.gsoSize % 2 ^ 16) 60
      else r
    (r.ixgbeTxCtxtdesc, true)

/-- `ixgbe_tso`: an error, or if a context descriptor was written.  `expandHead` is the answer of
    `pskb_expand_head`. -/
def ixgbeTso (first : Nat) (skb : TxSkb) (expandHead : Bool) : IxgbeRing × Option Bool :=
  if !skb.checksumPartial then (r, some false)
  else if !skb.isGso then (r, some false)
  else if skb.headerCloned && !expandHead then (r, none)
  else ((r.setSegments first skb.gsoSegs skb.hdrLen).ixgbeTxCtxtdesc, some true)

def ixgbeTxCsum (adapter : TxAdapter) (skb : TxSkb) : IxgbeRing :=
  if !skb.checksumPartial && !skb.vlanTag && !adapter.l2switchEnable then r
  else r.ixgbeTxCtxtdesc

/-! ## `ixgbe_tx_map` -/

/-- `cmd_type_len` of a data descriptor. -/
def setCmdTypeLen (i size : Nat) (cmd : Bool) : IxgbeRing :=
  r.setDesc i fun d => { d with context := false, size, cmd }

/-- `olinfo_status` -/
def setOlinfoStatus (i : Nat) : IxgbeRing := r.setDesc i fun d => { d with dd := false }

/-- `while (size > IXGBE_MAX_DATA_PER_TXD)`: the descriptor it ends at, and what is left for it. -/
def fillDescs (r : IxgbeRing) (i : Nat) (dma : Nat × Nat) (size : Nat) : IxgbeRing × Nat × Nat :=
  if size > ixgbeMaxDataPerTxd then
    let r := r.setCmdTypeLen i ixgbeMaxDataPerTxd false
    let i := nextSlot r.count i
    let r := r.setOlinfoStatus i
    let dma := (dma.1, dma.2 + ixgbeMaxDataPerTxd)
    let r := r.setDesc i fun d => { d with bufferAddr := dma }
    fillDescs r i dma (size - ixgbeMaxDataPerTxd)
  else (r, i, size)
termination_by size
decreasing_by
  rw [ixgbeMaxDataPerTxd] at *
  omega

def ixgbeUnmapAndFreeTxResource (i : Nat) : IxgbeRing :=
  let b := r.txBuffer i
  { r with
    freed := r.freed ++ b.skb.toList
    unmapped := if b.len ≠ 0 then r.unmapped ++ [(b.dma, b.len)] else r.unmapped }.setBuffer i
      fun b => { b with nextToWatch := none, skb := none, len := 0 }

/-- The loop behind `dma_error`. -/
def dmaError (first : Nat) : Nat → IxgbeRing → Nat → Except RingFault IxgbeRing
  | 0, _, _ => .error .unwind
  | fuel + 1, r, i =>
    let r := r.ixgbeUnmapAndFreeTxResource i
    -- the way back ends at the first descriptor
    if i = first then .ok { r with nextToUse := i }
    else dmaError first fuel r (prevSlot r.count i)

/-- The end of `ixgbe_tx_map`. -/
def queueFrame (first i size : Nat) : IxgbeRing :=
  let r := (r.setCmdTypeLen i size true).setBuffer first fun b => { b with nextToWatch := some i }
  { r with nextToUse := nextSlot r.count i, tdt := nextSlot r.count i }

def recordMapping (buffer i size : Nat) : IxgbeRing :=
  (({ r with mapped := r.mapped ++ [(r.mapped.length, size)] } : IxgbeRing).setBuffer buffer
    fun b => { b with len := size, dma := r.mapped.length }).setDesc i
      fun d => { d with bufferAddr := (r.mapped.length, 0) }

/-- The loop of `ixgbe_tx_map` over the head and the fragments.  The mapping of piece `k` fails if
    `mapFails k`. -/
def mapPieces (first : Nat) (mapFails : Nat → Bool) (r : IxgbeRing)
    (buffer i size dataLen k : Nat) (frags : List Nat) : Except RingFault IxgbeRing :=
  if mapFails k then dmaError first (r.count + 1) r i
  else
    let filled := (r.recordMapping buffer i size).fillDescs i (r.mapped.length, 0) size
    let r := filled.1
    let i := filled.2.1
    let size := filled.2.2
    -- the last piece carries the `EOP`
    if dataLen = 0 then .ok (r.queueFrame first i size)
    else
      let r := r.setCmdTypeLen i size false
      let i := nextSlot r.count i
      let r := r.setOlinfoStatus i
      match frags with
      -- `data_len` counts more than the fragments
      | [] => .error .frags
      | frag :: frags =>
        mapPieces first mapFails r i i (min dataLen frag) (dataLen - min dataLen frag) (k + 1)
          frags

/-- The lengths of the head and of the fragments that are mapped, in 32 bits; of an FCoE frame the
    trailer of eight bytes is left to the device. -/
def mapLengths (skb : TxSkb) (fcoe : Bool) : Nat × Nat :=
  if fcoe then
    if skb.dataLen < 8 then ((skb.headlen + 2 ^ 32 - (8 - skb.dataLen)) % 2 ^ 32, 0)
    else (skb.headlen, skb.dataLen - 8)
  else (skb.headlen, skb.dataLen)

def ixgbeTxMap (first : Nat) (skb : TxSkb) (fcoe : Bool) (mapFails : Nat → Bool) :
    Except RingFault IxgbeRing :=
  let i := r.nextToUse
  let r := r.setOlinfoStatus i
  let (size, dataLen) := mapLengths skb fcoe
  mapPieces first mapFails r first i size dataLen 0 skb.frags

/-! ## `ixgbe_xmit_frame_ring` -/

/-- `first`, with the skb. -/
def takeOn (skb : TxSkb) : IxgbeRing :=
  ({ r with submitted := r.submitted + 1 } : IxgbeRing).setBuffer r.nextToUse
    fun b => { b with skb := some r.submitted, bytecount := skb.len, gsoSegs := 1 }

def outDrop (first : Nat) : IxgbeRing :=
  ({ r with freed := r.freed ++ (r.txBuffer first).skb.toList } : IxgbeRing).setBuffer first
    fun b => { b with skb := none }

/-- `ixgbe_xmit_frame_ring`, and if it answers `NETDEV_TX_BUSY`. -/
def ixgbeXmitFrameRing (adapter : TxAdapter) (skb : TxSkb) (expandHead : Bool)
    (mapFails : Nat → Bool) : Except RingFault (IxgbeRing × Bool) :=
  if r.ixgbeMaybeStopTx skb.reserved then .ok (r, true)
  else
    let first := r.nextToUse
    let r := r.takeOn skb
    match skb.offloadProtocol with
    | none => .ok (r.outDrop first, false)
    | some protocol =>
      if protocol = .fcoe && adapter.fcoe then
        match r.ixgbeFso first skb with
        | (r, false) => .ok (r.outDrop first, false)
        | (r, true) => (r.ixgbeTxMap first skb true mapFails).map (·, false)
      else
        match r.ixgbeTso first skb expandHead with
        | (r, none) => .ok (r.outDrop first, false)
        | (r, some tso) =>
          -- TSO has written the context of the checksum already
          let r := if tso then r else r.ixgbeTxCsum adapter skb
          (r.ixgbeTxMap first skb false mapFails).map (·, false)

end IxgbeRing

/-! ## `ixgbe_clean_tx_irq` -/

/-- Where the clean loop is: the index less the size of the ring, in 32 bits, and the slot that
    `tx_buffer` and `tx_desc` point to. -/
structure CleanPos where
  i : BitVec 32
  slot : Nat
deriving DecidableEq, Repr

def CleanPos.next (count : Nat) (p : CleanPos) : CleanPos :=
  let i := p.i + 1
  if i = 0 then ⟨i - BitVec.ofNat 32 count, 0⟩ else ⟨i, p.slot + 1⟩

namespace IxgbeRing

/-- `unmap remaining buffers` -/
def unmapRest (eop : Nat) : Nat → IxgbeRing → CleanPos → Except RingFault (IxgbeRing × CleanPos)
  | 0, _, _ => .error .eop
  | fuel + 1, r, p =>
    if p.slot = eop then .ok (r, p)
    else
      let p := p.next r.count
      let b := r.txBuffer p.slot
      let r :=
        if b.len ≠ 0 then
          ({ r with unmapped := r.unmapped ++ [(b.dma, b.len)] } : IxgbeRing).setBuffer p.slot
            fun b => { b with len := 0 }
        else r
      unmapRest eop fuel r p

variable (r : IxgbeRing)

def freeFirst (slot : Nat) : IxgbeRing :=
  let b := r.txBuffer slot
  ({ r with
    freed := r.freed ++ b.skb.toList
    unmapped := r.unmapped ++ [(b.dma, b.len)] } : IxgbeRing).setBuffer slot
      fun b => { b with nextToWatch := none, skb := none, len := 0 }

/-- The loop of `ixgbe_clean_tx_irq`, with `total_bytes` and `total_packets`. -/
def cleanLoop : Nat → IxgbeRing → CleanPos → BitVec 32 → Nat × Nat →
    Except RingFault (IxgbeRing × CleanPos × BitVec 32 × Nat × Nat)
  | 0, _, _, _, _ => .error .clean
  | fuel + 1, r, p, budget, (bytes, packets) =>
    match (r.txBuffer p.slot).nextToWatch with
    | none => .ok (r, p, budget, bytes, packets)
    | some eop =>
      -- the last descriptor of the frame is not done
      if (r.desc eop).dd = false then .ok (r, p, budget, bytes, packets)
      else do
        let bytes := (bytes + (r.txBuffer p.slot).bytecount) % 2 ^ 32
        let packets := (packets + (r.txBuffer p.slot).gsoSegs) % 2 ^ 32
        let (r, p) ← unmapRest eop r.count (r.freeFirst p.slot) p
        let p := p.next r.count
        let budget := budget - 1
        -- the budget is counted in frames
        if budget = 0 then .ok (r, p, budget, bytes, packets)
        else cleanLoop fuel r p budget (bytes, packets)

/-- `ixgbe_clean_tx_irq`, and its answer.  `down` is `__IXGBE_DOWN`. -/
def ixgbeCleanTxIrq (down : Bool) (workLimit : BitVec 32) : Except RingFault (IxgbeRing × Bool) :=
  -- the ring is going down, or another processor cleans it
  if down then .ok (r, true)
  else if r.cleanBusy then .ok (r, true)
  else do
    let r : IxgbeRing := { r with cleanBusy := true }
    let count := BitVec.ofNat 32 r.count
    let start : CleanPos := ⟨BitVec.ofNat 32 r.nextToClean - count, r.nextToClean⟩
    let (r, p, budget, bytes, packets) ← cleanLoop (r.count + 1) r start workLimit (0, 0)
    return ({ r with
      nextToClean := (p.i + count).toNat % 2 ^ 16
      bytes := r.bytes + bytes
      packets := r.packets + packets
      cleanBusy := false }, budget ≠ 0)

def complete : IxgbeRing :=
  { r.setDesc r.tdh fun d => if d.cmd then { d with dd := true } else d with
    tdh := nextSlot r.count r.tdh }

def fresh (count : Nat) : IxgbeRing := { count }

end IxgbeRing

/-! ## Runs -/

inductive RingEvent where
  | xmit (adapter : TxAdapter) (skb : TxSkb) (expandHead : Bool) (mapFails : Nat → Bool)
  | clean (down : Bool) (workLimit : BitVec 32)
  | device

def IxgbeRing.exec (r : IxgbeRing) : RingEvent → Option (Except RingFault IxgbeRing)
  | .xmit adapter skb expandHead mapFails =>
    some ((r.ixgbeXmitFrameRing adapter skb expandHead mapFails).map (·.1))
  | .clean down workLimit => some ((r.ixgbeCleanTxIrq down workLimit).map (·.1))
  | .device => if r.tdh = r.tdt then none else some (.ok r.complete)

abbrev RingState := Except RingFault IxgbeRing

def RingStep (s : RingState) (e : RingEvent) (t : RingState) : Prop :=
  ∃ r, s = .ok r ∧ r.exec e = some t

end VmkDrivers.Wfs
