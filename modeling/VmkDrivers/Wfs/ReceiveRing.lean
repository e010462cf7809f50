/-
  VmkDrivers.Wfs.ReceiveRing

  A receive ring: `ixgbe_alloc_rx_buffers`, which hands buffers to the device,
  `ixgbe_clean_rx_irq`, which takes back what the device has filled and links
  the buffers of one frame, and `ixgbe_clean_rx_ring` (`ixgbe_main.c`).

  An skb and a DMA mapping are numbers; what has been freed, handed on and
  unmapped is written down.  The device fills descriptors between two turns of
  the loop of `ixgbe_clean_rx_irq` too, in any order.  What becomes of a frame
  in `ixgbe_process_skb_fields` and behind it is an answer; the statistics are
  left out.
-/

import VmkDrivers.Lib.RingBuffer
import VmkDrivers.Lib.Transition

namespace VmkDrivers.Wfs

open VmkDrivers.Lib

/-- `IXGBE_RX_BUFFER_WRITE` -/
def ixgbeRxBufferWrite : Nat := 16

/-- An skb of a receive ring, with its `struct ixgbe_cb`. -/
structure RingSkb where
  len : UInt32 := 0
  dataLen : UInt32 := 0
  /-- How far `skb->tail` is behind `skb->data`. -/
  put : UInt32 := 0
  fragList : List Nat := []
  /-- `head` and `tail`, which share a word. -/
  partner : Option Nat := none
  dma : Option Nat := none
  appendCnt : UInt16 := 0
deriving DecidableEq, Repr

/-- `union ixgbe_adv_rx_desc`: the address, or what the device has written over it. -/
structure RxDesc where
  pktAddr : Option Nat := none
  dd : Bool := false
  eop : Bool := false
  frameErr : Bool := false
  length : UInt16 := 0
  rscCnt : UInt16 := 0
  nextp : Nat := 0
deriving DecidableEq, Repr

/-- `struct ixgbe_rx_buffer` -/
structure RxBuffer where
  skb : Option Nat := none
  dma : Option Nat := none
deriving DecidableEq, Repr

inductive RxFault where
  | nullSkb
  | outside
deriving DecidableEq, Repr

/-- What the memory and the DMA engine answer to `ixgbe_alloc_mapped_skb`. -/
inductive RxAlloc where
  | noSkb
  | noMapping
  | granted
deriving DecidableEq, Repr

/-- Where a frame goes: to the handlers of the ring, to FCoE or up the stack. -/
inductive RxFate where
  | wfs
  | ddp
  | stack
deriving DecidableEq, Repr

/-- The variables of `ixgbe_clean_rx_irq`. -/
structure RxPoll where
  budget : Nat
  cleanedCount : Nat
  totalRxPackets : Nat := 0
deriving DecidableEq, Repr

/-- `struct ixgbe_ring` of a receive queue, the skbs, and what has become of them. -/
structure RxRing where
  count : Nat
  rscEnabled : Bool
  nextToUse : Nat := 0
  nextToClean : Nat := 0
  desc : Nat → RxDesc := fun _ => {}
  rxBuffer : Nat → RxBuffer := fun _ => {}
  skb : Nat → RingSkb := fun _ => {}
  poll : Option RxPoll := none
  up : Bool := false
  /-- How many skbs and mappings there have been. -/
  skbs : Nat := 0
  maps : Nat := 0
  freed : List Nat := []
  /-- The frames, with their skbs as they were then. -/
  delivered : List (List (Nat × RingSkb)) := []
  unmapped : List (Option Nat) := []
  /-- The slots that the device filled, and those taken back, since the ring was configured. -/
  completed : List Nat := []
  taken : List Nat := []

namespace RxRing

variable (r : RxRing)

/-- `ixgbe_desc_unused` -/
def ixgbeDescUnused : Nat :=
  (if r.nextToClean > r.nextToUse then 0 else r.count) + r.nextToClean - r.nextToUse - 1

def modify (s : Nat) (f : RingSkb → RingSkb) : RxRing :=
  { r with skb := Function.update r.skb s (f (r.skb s)) }

def setBuffer (i : Nat) (b : RxBuffer) : RxRing :=
  { r with rxBuffer := Function.update r.rxBuffer i b }

def modifyDesc (i : Nat) (f : RxDesc → RxDesc) : RxRing :=
  { r with desc := Function.update r.desc i (f (r.desc i)) }

/-- An skb, and what is linked behind it. -/
def frame (s : Nat) : List Nat := s :: (r.skb s).fragList

def snapshot (s : Nat) : List (Nat × RingSkb) := (r.frame s).map fun x => (x, r.skb x)

/-- `dev_kfree_skb_any` -/
def free (s : Nat) : RxRing := { r with freed := r.freed ++ r.frame s }

/-- The frame is not the ring's any more. -/
def deliver (s : Nat) : RxRing := { r with delivered := r.delivered ++ [r.snapshot s] }

/-- `dma_unmap_single` -/
def unmap (dma : Option Nat) : RxRing := { r with unmapped := r.unmapped ++ [dma] }

/-! ## Buffers for the device -/

/-- `ixgbe_alloc_mapped_skb` -/
def ixgbeAllocMappedSkb (i : Nat) (alloc : RxAlloc) : Bool × RxRing :=
  if (r.rxBuffer i).dma.isSome then (true, r)
  else
    let map (r : RxRing) (s : Nat) : Bool × RxRing :=
      if alloc = .noMapping then (false, (r.free s).setBuffer i {})
      else (true, { r.setBuffer i ⟨some s, some r.maps⟩ with maps := r.maps + 1 })
    match (r.rxBuffer i).skb with
    | some s => map r s
    | none =>
      if alloc = .noSkb then (false, r)
      else map { r.modify r.skbs fun _ => {} with skbs := r.skbs + 1 } r.skbs

/-- Both writes of the loop: the address of the buffer, and `hdr_addr` of the next descriptor, which
    is where the device sets `DD`. -/
def postDesc (i : Nat) : RxRing :=
  let r := r.modifyDesc i fun d => { d with pktAddr := (r.rxBuffer i).dma }
  r.modifyDesc (nextSlot r.count i) fun d => { pktAddr := d.pktAddr, rscCnt := d.rscCnt }

/-- The loop of `ixgbe_alloc_rx_buffers`, from the slot `i` on. -/
def allocRxBuffersFrom (alloc : Nat → RxAlloc) : Nat → Nat → RxRing → Nat × RxRing
  | 0, i, r => (i, r)
  | k + 1, i, r =>
    match r.ixgbeAllocMappedSkb i (alloc k) with
    | (false, r) => (i, r)
    | (true, r) => allocRxBuffersFrom alloc k (nextSlot r.count i) (r.postDesc i)

/-- `ixgbe_alloc_rx_buffers`; the device is told by `ixgbe_release_rx_desc`. -/
def ixgbeAllocRxBuffers (alloc : Nat → RxAlloc) (cleanedCount : Nat) : RxRing :=
  if cleanedCount = 0 then r
  else
    let (i, r) := allocRxBuffersFrom alloc cleanedCount r.nextToUse r
    if r.nextToUse ≠ i then { r with nextToUse := i } else r

/-! ## Frames in several buffers -/

/-- `ixgbe_merge_active_tail` -/
def ixgbeMergeActiveTail (tail : Nat) : Nat × RxRing :=
  match (r.skb tail).partner with
  | none => (tail, r)
  | some head =>
    (head, (r.modify head fun h => { h with
        len := h.len + (r.skb tail).len, dataLen := h.dataLen + (r.skb tail).len }).modify tail
      fun t => { t with partner := none })

/-- `ixgbe_add_active_tail`, where `old_tail` is the last in the list. -/
def ixgbeAddActiveTail (head tail : Nat) : RxRing :=
  let r := match (r.skb head).partner with
    | some oldTail =>
      (r.ixgbeMergeActiveTail oldTail).2.modify head fun h =>
        { h with fragList := h.fragList ++ [tail] }
    | none => r.modify head fun h => { h with fragList := [tail] }
  (r.modify tail fun t => { t with partner := some head }).modify head fun h =>
    { h with partner := some tail }

/-- `ixgbe_close_active_frag_list` -/
def ixgbeCloseActiveFragList (head : Nat) : Bool × RxRing :=
  match (r.skb head).partner with
  | none => (false, r)
  | some tail =>
    (true, (r.ixgbeMergeActiveTail tail).2.modify head fun h => { h with partner := none })

/-- The slot in which the frame goes on that the slot `i` does not end. -/
def goesOnAt (i : Nat) : Nat :=
  if r.rscEnabled ∧ (r.desc i).rscCnt ≠ 0 then (r.desc i).nextp else nextSlot r.count i

/-- `ixgbe_is_non_eop`, for the slot `i` that is at `next_to_clean`. -/
def ixgbeIsNonEop (i s : Nat) : Except RxFault (Bool × RxRing) :=
  let d := r.desc i
  let ntc := r.goesOnAt i
  let r := { r with nextToClean := nextSlot r.count i }
  let r := if r.rscEnabled ∧ d.rscCnt ≠ 0 then
      r.modify s fun c => { c with appendCnt := c.appendCnt + (d.rscCnt - 1) }
    else r
  if d.eop then .ok (false, r)
  else if r.count ≤ ntc then .error .outside
  else match (r.rxBuffer ntc).skb with
    | none => .error .nullSkb
    | some next => .ok (true, r.ixgbeAddActiveTail s next)

/-! ## The loop of `ixgbe_clean_rx_irq` -/

/-- Buffers for the device, 16 at a time. -/
def refill (p : RxPoll) (alloc : Nat → RxAlloc) : RxRing × RxPoll :=
  if ixgbeRxBufferWrite ≤ p.cleanedCount then
    (r.ixgbeAllocRxBuffers alloc p.cleanedCount, { p with cleanedCount := 0 })
  else (r, p)

/-- What is behind the loop. -/
def endPoll (p : RxPoll) (alloc : Nat → RxAlloc) : RxRing :=
  { r.ixgbeAllocRxBuffers alloc p.cleanedCount with poll := none }

/-- The skb `s` of the slot `i` is taken out of the ring; the first skb of its frame. -/
def takeSkb (i s : Nat) : Nat × RxRing :=
  let b := r.rxBuffer i
  -- `__skb_put`
  let r := r.modify s fun c => { c with
    len := c.len + (r.desc i).length.toUInt32, put := c.put + (r.desc i).length.toUInt32 }
  let (s, r) := match (r.skb s).partner with
    | none => (s, r.modify s fun c => { c with dma := b.dma })
    | some _ => let (h, r) := r.ixgbeMergeActiveTail s; (h, r.unmap b.dma)
  (s, { r.setBuffer i {} with taken := r.taken ++ [i] })

/-- The end of a frame: it is freed, or goes where `fate` says. -/
def endFrame (s : Nat) (frameErr : Bool) (fate : RxFate) (p : RxPoll) : RxRing × RxPoll :=
  let r := (r.unmap (r.skb s).dma).modify s fun c => { c with dma := none }
  let (closed, r) := r.ixgbeCloseActiveFragList s
  if closed ∧ (r.skb s).appendCnt = 0 then (r.free s, p)
  else if frameErr then (r.free s, p)
  else match fate with
    | .ddp => (r.free s, p)
    | _ => (r.deliver s, { p with totalRxPackets := p.totalRxPackets + 1 })

/-- What a turn does with the slot `i`, which has the skb `s` and which the device has filled. -/
def receive (i s : Nat) (fate : RxFate) (p : RxPoll) : Except RxFault (RxRing × RxPoll) :=
  let (s, r) := r.takeSkb i s
  let p := { p with cleanedCount := p.cleanedCount + 1 }
  (r.ixgbeIsNonEop i s).map fun (nonEop, r) =>
    if nonEop then (r, p) else r.endFrame s (r.desc i).frameErr fate p

/-- One turn; `last` is asked where it is the last one. -/
def turn (p : RxPoll) (alloc last : Nat → RxAlloc) (fate : RxFate) : Except RxFault RxRing :=
  let (r, p) := r.refill p alloc
  let i := r.nextToClean
  if !(r.desc i).dd then .ok (r.endPoll p last)
  else match (r.rxBuffer i).skb with
    | none => .error .nullSkb
    | some s => (r.receive i s fate p).map fun (r, p) =>
      if p.totalRxPackets < p.budget then { r with poll := some p } else r.endPoll p last

/-! ## Bringing the ring up and down -/

/-- The ring in `ixgbe_configure_rx_ring`. -/
def ixgbeConfigureRxRing (alloc : Nat → RxAlloc) : RxRing :=
  let r := { r with nextToClean := 0, nextToUse := 0, up := true }
  r.ixgbeAllocRxBuffers alloc r.ixgbeDescUnused

/-- The turn of `ixgbe_clean_rx_ring` for the slot `i`. -/
def cleanRxSlot (i : Nat) : RxRing :=
  let b := r.rxBuffer i
  let r := match b.skb with
    | none => r
    | some s =>
      let (s, r) := r.ixgbeMergeActiveTail s
      let (closed, r) := r.ixgbeCloseActiveFragList s
      let r := if closed then r.unmap (r.skb s).dma else r
      (r.modify s fun c => { c with dma := none }).free s
  (if b.dma.isSome then r.unmap b.dma else r).setBuffer i {}

/-- `ixgbe_clean_rx_ring` -/
def ixgbeCleanRxRing : RxRing :=
  { (List.range r.count).foldl cleanRxSlot r with
    desc := fun _ => {}, up := false, completed := [], taken := [] }

/-- The device owns the slots from `next_to_clean` up to the tail register. -/
def Owned (i : Nat) : Prop :=
  (i + r.count - r.nextToClean) % r.count < (r.nextToUse + r.count - r.nextToClean) % r.count

instance (i : Nat) : Decidable (r.Owned i) := inferInstanceAs (Decidable (_ < _))

end RxRing

inductive RxEvent where
  | configure (alloc : Nat → RxAlloc)
  /-- The device fills the slot `i`. -/
  | writeBack (i : Nat) (d : RxDesc)
  | poll (budget : Nat)
  | turn (alloc last : Nat → RxAlloc) (fate : RxFate)
  | clean

def RxRing.exec (r : RxRing) : RxEvent → Option (Except RxFault RxRing)
  | .configure alloc => if r.up then none else some (.ok (r.ixgbeConfigureRxRing alloc))
  | .writeBack i d =>
    if r.up ∧ i < r.count ∧ r.Owned i ∧ (r.desc i).dd = false then
      some (.ok { r.modifyDesc i fun _ => { d with dd := true, pktAddr := none } with
        completed := r.completed ++ [i] })
    else none
  | .poll budget =>
    if r.up ∧ r.poll = none then
      some (.ok { r with poll := some { budget, cleanedCount := r.ixgbeDescUnused } })
    else none
  | .turn alloc last fate => r.poll.map fun p => r.turn p alloc last fate
  | .clean => if r.up ∧ r.poll = none then some (.ok r.ixgbeCleanRxRing) else none

def rxNext? : Except RxFault RxRing → RxEvent → Option (Except RxFault RxRing)
  | .ok r, e => r.exec e
  | .error _, _ => none

/-- A step of the ring. -/
def RxStep (s : Except RxFault RxRing) (e : RxEvent) (t : Except RxFault RxRing) : Prop :=
  rxNext? s e = some t

/-- A descriptor that does not end its frame names a slot with a buffer, in which no other frame
    goes on. -/
def RxRing.GoesOn (r : RxRing) (i : Nat) : Prop :=
  (r.desc i).dd = true → (r.desc i).eop = false →
    r.goesOnAt i < r.count ∧ r.goesOnAt i ≠ i ∧
      ∃ u ∈ (r.rxBuffer (r.goesOnAt i)).skb, (r.skb u).partner = none

instance RxRing.decidableGoesOn (r : RxRing) (i : Nat) : Decidable (r.GoesOn i) :=
  inferInstanceAs (Decidable (_ → _ → _ ∧ _ ∧ ∃ u ∈ (r.rxBuffer (r.goesOnAt i)).skb, _))

/-- What the device keeps to, seen when the slot is taken. -/
def DeviceLinks : Except RxFault RxRing → RxEvent → Prop
  | .ok r, .turn alloc _ _ => ∀ p ∈ r.poll,
    (r.refill p alloc).1.GoesOn (r.refill p alloc).1.nextToClean
  | _, _ => True

instance DeviceLinks.decidable (s : Except RxFault RxRing) (e : RxEvent) :
    Decidable (DeviceLinks s e) :=
  match s, e with
  | .ok r, .turn alloc _ _ => inferInstanceAs (Decidable (∀ p ∈ r.poll,
    (r.refill p alloc).1.GoesOn (r.refill p alloc).1.nextToClean))
  | .ok _, .configure _ | .ok _, .writeBack .. | .ok _, .poll _ | .ok _, .clean | .error _, _ =>
    isTrue trivial

/-- The runs of a ring of `n` slots whose device keeps to it. -/
abbrev RxRun (n : Nat) (rsc : Bool) : List RxEvent → Except RxFault RxRing → Prop :=
  Run (Guarded RxStep DeviceLinks) (.ok { count := n, rscEnabled := rsc })

end VmkDrivers.Wfs
