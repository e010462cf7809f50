/-
  VmkDrivers.Wfs.TxQueues

  The transmit rings of the two ports and their indices of the common net
  device (`ixgbe_lib.c`, `ixgbe_change_mtu`).

  A ring of the primary port has its own index, one of the secondary port its
  own index above the number of transmit queues the primary port has when the
  secondary one is probed.  A change of the MTU across `ETH_DATA_LEN` makes the
  queues of the primary port anew, with a number that depends on the MTU, and
  leaves those of the secondary port.  The indices stay distinct and below the
  sum of the two numbers exactly if the number does not change
  (`netif_queue_index_iff`).

  The constants are those of a build for ESX with `CONFIG_DCB` and
  `CONFIG_FCOE`.  Receive rings are counted, since they share the interrupt
  vectors, but have no place of their own here.
-/

import VmkDrivers.Lib.ExceptLoop
import VmkDrivers.Lib.Transition
import VmkDrivers.Wfs.Defs

namespace VmkDrivers.Wfs

open VmkDrivers.Lib

/-! ## Adapters -/

/-- A transmit ring: `queue_index` and `netif_queue_index`, bytes both. -/
structure TxRing where
  queueIndex : UInt8
  netifQueueIndex : UInt8
deriving DecidableEq, Repr

/-- `struct ixgbe_adapter`, as far as the number of its queues goes.  `qVector` has the transmit
    rings of each interrupt vector. -/
structure QueueAdapter where
  macType : MacType := .mac82599EB
  dcbEnabled : Bool := false
  vmdqEnabled : Bool := false
  fcoeEnabled : Bool := false
  cnaEnabled : Bool := false
  msixCapable : Bool := false
  msixEnabled : Bool := false
  dcbTc : Nat := 0
  atrSampleRate : Nat := 0
  vmdqLimit : Nat := 0
  vmdqOffset : Nat := 0
  rssLimit : Nat := 0
  fdirLimit : Nat := 0
  fcoeLimit : Nat := 0
  fcoeIndices : Nat := 0
  maxQVectors : Nat := 0
  maxMsixVectors : Nat := 0
  numTxQueues : Nat := 0
  numRxQueues : Nat := 0
  numQVectors : Nat := 0
  txRing : Nat → Option TxRing := fun _ => none
  qVector : Nat → List Nat := fun _ => []

def ethDataLen : Int32 := 1500
def wfsDefaultMtu : Int32 := 9000
def ixgbeMaxJumboFrameSize : Int32 := 9728
/-- `MAX_TX_QUEUES` and `MAX_RX_QUEUES`. -/
def maxTxQueues : Nat := 71
def ixgbeMaxVmdqIndices : Nat := 64
def ixgbeEsxRssQueues : Nat := 4
def nonQVectors : Nat := 1
def minMsixQFcoeVectors : Nat := 2
def minMsixCount : Nat := 1 + minMsixQFcoeVectors + nonQVectors
def maxMsixQVectors : Nat := 64

/-- A value stored in a `u16`. -/
def u16 (n : Nat) : Nat := n % 2 ^ 16

/-- `min_t(u16, a, b)`. -/
def minU16 (a b : Nat) : Nat := min (u16 a) (u16 b)

/-- A difference of a `u16` and a smaller or larger one, stored in a `u16`. -/
def subU16 (a b : Nat) : Nat := u16 (a + 2 ^ 16 - u16 b)

namespace QueueAdapter

/-! ## Queue counts -/

def jumboPools (mtu : Int32) (limit : Nat) : Nat :=
  if mtu > ethDataLen ∧ limit > 4 then 4 else limit

/-- What `ixgbe_set_dcb_vmdq_queues` takes for the pools, of one traffic class each, and leaves
    for FCoE. -/
def dcbVmdqPools (mtu : Int32) (a : QueueAdapter) : Nat × Nat :=
  let limit := jumboPools mtu a.vmdqLimit
  match a.macType with
  | .mac82598EB => (minU16 limit 4, 0)
  | .mac82599EB | .macX540 =>
    let all := minU16 (limit + a.vmdqOffset) 32
    -- 128 queues in pools of four
    (subU16 all a.vmdqOffset, 32 - all)

/-- `ixgbe_set_dcb_vmdq_queues`, `none` if it returns false. -/
def ixgbeSetDcbVmdqQueues (mtu : Int32) (numTc : Nat) (a : QueueAdapter) : Option QueueAdapter :=
  if numTc ≤ 1 ∨ !a.vmdqEnabled then none else
  let (pools, fcoe) := dcbVmdqPools mtu a
  let fcoe := minU16 fcoe a.fcoeLimit
  if !a.fcoeEnabled then
    some { a with numTxQueues := pools, numRxQueues := pools }
  -- queues for FCoE behind the pools
  else if fcoe ≠ 0 then
    some { a with
      fcoeIndices := fcoe, numTxQueues := pools + fcoe, numRxQueues := pools + fcoe }
  else
    some { a with
      cnaEnabled := false, fcoeEnabled := false, fcoeIndices := 0
      numTxQueues := pools, numRxQueues := pools }

/-- `ixgbe_set_dcb_queues`.  `adapter->indices` is `IXGBE_MAX_VMDQ_INDICES`. -/
def ixgbeSetDcbQueues (numTc : Nat) (a : QueueAdapter) : Option QueueAdapter :=
  if numTc ≤ 1 then none else
  let perTc :=
    match a.macType with
    | .mac82598EB => 4
    | .mac82599EB | .macX540 => if numTc > 4 then 8 else 16
  let rss := minU16 (minU16 ixgbeMaxVmdqIndices perTc) a.rssLimit
  let a := if a.fcoeEnabled then { a with fcoeIndices := minU16 rss a.fcoeLimit } else a
  some { a with numTxQueues := rss * numTc, numRxQueues := rss * numTc }

/-- What `ixgbe_set_vmdq_queues` takes for the pools, for the queues of each and for FCoE. -/
def vmdqPools (mtu : Int32) (a : QueueAdapter) : Nat × Nat × Nat :=
  let limit := jumboPools mtu a.vmdqLimit
  match a.macType with
  | .mac82598EB =>
    let pools := minU16 limit 16
    if pools > 4 ∨ a.rssLimit = 1 then (pools, 1, 0) else (pools, minU16 a.rssLimit 8, 0)
  | .mac82599EB | .macX540 =>
    let all := minU16 ixgbeMaxVmdqIndices (limit + a.vmdqOffset)
    -- `num_vfs`, the offset, is at most 63
    if all > 32 ∨ a.rssLimit < 4 then
      (all - a.vmdqOffset, minU16 a.rssLimit 2, subU16 128 (all * 2))
    else
      (all - a.vmdqOffset, 4, subU16 128 (all * 4))

/-- The queues of `ixgbe_set_vmdq_queues` without those for FCoE: transmit and receive queues,
    pools and queues of each. -/
def vmdqQueues (mtu : Int32) (a : QueueAdapter) : Nat × Nat × Nat × Nat :=
  let (pools, rss, _) := vmdqPools mtu a
  if a.rssLimit > 1 then
    (min maxTxQueues pools, min maxTxQueues (pools + ixgbeEsxRssQueues), pools + 1,
      ixgbeEsxRssQueues)
  else (pools * rss, pools * rss, pools, rss)

def ixgbeSetVmdqQueues (cpus : Nat) (mtu : Int32) (a : QueueAdapter) : Option QueueAdapter :=
  if !a.vmdqEnabled then none else
  let (tx, rx, pools, rss) := vmdqQueues mtu a
  if !a.fcoeEnabled then some { a with numTxQueues := tx, numRxQueues := rx } else
  let fcoe := minU16 (vmdqPools mtu a).2.2 a.fcoeLimit
  if pools > 1 ∧ fcoe ≠ 0 then
    some { a with fcoeIndices := fcoe, numTxQueues := tx + fcoe, numRxQueues := rx + fcoe }
  else
    let fcoe := if a.msixEnabled then minU16 (fcoe + rss) cpus else rss
    some { a with
      fcoeIndices := minU16 fcoe a.fcoeLimit
      numTxQueues := tx + subU16 fcoe rss, numRxQueues := rx + subU16 fcoe rss }

/-- `ixgbe_set_rss_queues`.  The net device has `IXGBE_MAX_VMDQ_INDICES` queues. -/
def ixgbeSetRssQueues (cpus : Nat) (a : QueueAdapter) : QueueAdapter :=
  let rss := if a.rssLimit > 1 ∧ a.atrSampleRate ≠ 0 then a.fdirLimit else a.rssLimit
  if a.fcoeEnabled then
    let fcoe := minU16 (minU16 (a.fcoeLimit + rss) cpus) ixgbeMaxVmdqIndices
    let fcoe := if a.msixEnabled then fcoe else rss
    let rss' := max (u16 fcoe) (u16 rss)
    { a with fcoeIndices := minU16 fcoe a.fcoeLimit, numTxQueues := rss', numRxQueues := rss' }
  else { a with numTxQueues := rss, numRxQueues := rss }

def ixgbeSetNumQueues (cpus : Nat) (mtu : Int32) (numTc : Nat) (a : QueueAdapter) : QueueAdapter :=
  (a.ixgbeSetDcbVmdqQueues mtu numTc).getD <|
    (a.ixgbeSetDcbQueues numTc).getD <|
      (a.ixgbeSetVmdqQueues cpus mtu).getD <| a.ixgbeSetRssQueues cpus

/-! ## Interrupt vectors -/

/-- The vectors `ixgbe_set_interrupt_capability` asks for. -/
def vectorBudget (a : QueueAdapter) : Nat :=
  min (max a.numRxQueues a.numTxQueues + (if a.cnaEnabled then a.fcoeIndices else 0) + nonQVectors)
    a.maxMsixVectors

/-- `ixgbe_acquire_msix_vectors`, when `pci_enable_msix` grants them or not. -/
def ixgbeAcquireMsixVectors (granted : Bool) (vectors : Nat) (a : QueueAdapter) : QueueAdapter :=
  let threshold := if a.cnaEnabled then minMsixCount else minMsixCount - minMsixQFcoeVectors
  if threshold ≤ vectors ∧ granted then
    { a with msixEnabled := true, numQVectors := min (vectors - nonQVectors) a.maxQVectors }
  else { a with msixEnabled := false }

def tryMsix (granted : Bool) (a : QueueAdapter) : QueueAdapter :=
  if a.msixCapable then a.ixgbeAcquireMsixVectors granted a.vectorBudget else a

/-- Label `try_msi` of `ixgbe_set_interrupt_capability` with `ixgbe_cna_disable`: one vector, and
    no DCB, VMDq or RSS.  `ixgbe_disable_sriov` resets an offset only VMDq reads. -/
def tryMsi (cpus : Nat) (mtu : Int32) (numTc : Nat) (a : QueueAdapter) : QueueAdapter :=
  let a := if numTc > 1 then { a with dcbEnabled := false } else a
  let a := { a with vmdqEnabled := false, rssLimit := 1 }
  let a := if a.cnaEnabled then
      { a with cnaEnabled := false, fcoeEnabled := false, fcoeIndices := 0 }
    else a
  -- the number of traffic classes has been reset
  { a.ixgbeSetNumQueues cpus mtu 0 with numQVectors := 1 }

end QueueAdapter

/-- What the functions called by `ixgbe_init_interrupt_scheme` return: whether MSI-X is granted
    with memory for its entries, and whether there is memory for each vector. -/
structure SchemeInputs where
  msix : Bool := true
  kzalloc : Nat → Bool := fun _ => true

inductive QueueFault where
  | qVector
  | txRing
deriving DecidableEq, Repr

/-- The state of `ixgbe_alloc_q_vectors`.  `failed` is `v_idx` where it went to `err_out`. -/
structure VectorLoop where
  adapter : QueueAdapter
  failed : Option Nat := none
  txrRemaining : Nat := 0
  txrIdx : Nat := 0

namespace QueueAdapter

def divRoundUp (n d : Nat) : Nat := (n + d - 1) / d

def addTxRing (base vIdx : Nat) (a : QueueAdapter) (idx : Nat) : Except QueueFault QueueAdapter :=
  if idx < maxTxQueues then
    .ok { a with
      txRing := Function.update a.txRing idx (some ⟨.ofNat idx, .ofNat (idx + base)⟩)
      qVector := Function.update a.qVector vIdx (idx :: a.qVector vIdx) }
  else .error .txRing

def ixgbeFreeQVector (a : QueueAdapter) (vIdx : Nat) : QueueAdapter :=
  { a with
    txRing := fun idx => if idx ∈ a.qVector vIdx then none else a.txRing idx
    qVector := Function.update a.qVector vIdx [] }

/-- The vectors below `vIdx` are freed, and no queue is left. -/
def freeBelow (vIdx : Nat) (a : QueueAdapter) : QueueAdapter :=
  (List.range vIdx).reverse.foldl ixgbeFreeQVector
    { a with numTxQueues := 0, numRxQueues := 0, numQVectors := 0 }

def ixgbeFreeQVectors (a : QueueAdapter) : QueueAdapter := a.freeBelow a.numQVectors

end QueueAdapter

namespace VectorLoop

open QueueAdapter

variable (inp : SchemeInputs) (base : Nat)

/-- `ixgbe_alloc_q_vector` for a vector with `txrCount` transmit rings from `txrIdx` on, every
    `vCount`-th.  Without memory it is `unwind` from where `err_out` frees. -/
def ixgbeAllocQVector (vCount vIdx txrCount txrIdx unwind : Nat) (l : VectorLoop) :
    Except QueueFault VectorLoop := do
  if l.failed.isSome then
    return l
  if !inp.kzalloc vIdx then
    return { l with failed := some unwind }
  if maxMsixQVectors ≤ vIdx then
    throw .qVector
  let a := { l.adapter with qVector := Function.update l.adapter.qVector vIdx [] }
  let a ← ((List.range txrCount).map fun k => txrIdx + k * vCount).foldlM (addTxRing base vIdx) a
  return { l with adapter := a }

/-- The FCoE vectors: `split` pairs behind the first `first` ones. -/
def fcoeVectors (split first : Nat) (l : VectorLoop) : Except QueueFault VectorLoop :=
  (List.range split).foldlM (fun l i => do
    let count := divRoundUp l.txrRemaining (split - i)
    let l ← l.ixgbeAllocQVector inp base split (first + i) 0 0 0
    let l ← l.ixgbeAllocQVector inp base split (first + i + split) count l.txrIdx 0
    return { l with txrRemaining := l.txrRemaining - count, txrIdx := l.txrIdx + 1 }) l

def rxVectors (qVectors rxr : Nat) (l : VectorLoop) : Except QueueFault VectorLoop :=
  (List.range rxr).foldlM (fun l vIdx => l.ixgbeAllocQVector inp base qVectors vIdx 0 0 vIdx) l

/-- The vectors from `first` on, which share the remaining rings. -/
def sharedVectors (qVectors first : Nat) (l : VectorLoop) : Except QueueFault VectorLoop :=
  (List.range' first (qVectors - first)).foldlM (fun l vIdx => do
    let count := divRoundUp l.txrRemaining (qVectors - vIdx)
    let l ← l.ixgbeAllocQVector inp base qVectors vIdx count l.txrIdx vIdx
    return { l with txrRemaining := l.txrRemaining - count, txrIdx := l.txrIdx + 1 }) l

end VectorLoop

namespace QueueAdapter

/-- A difference of `unsigned int`s. -/
def subU32 (a b : Nat) : Nat := (a + 2 ^ 32 - b % 2 ^ 32) % 2 ^ 32

/-- `ixgbe_alloc_q_vectors`, and whether it returns 0.  There are FCoE vectors for CNA only, and
    vectors with receive rings only if there are enough for every ring to have its own. -/
def ixgbeAllocQVectors (inp : SchemeInputs) (base : Nat) (a : QueueAdapter) :
    Except QueueFault (QueueAdapter × Bool) := do
  let cna := a.numQVectors < a.numRxQueues + a.numTxQueues ∧ a.cnaEnabled
  let fcoe := if cna then a.fcoeIndices else 0
  let split :=
    if ¬cna then 0 else if minMsixCount < a.numQVectors then fcoe else minMsixQFcoeVectors / 2
  let qVectors := if cna then subU32 a.numQVectors (split * 2) else a.numQVectors
  let rxr := subU32 a.numRxQueues fcoe
  let txr := subU32 a.numTxQueues fcoe
  let rxOnly := if (rxr + txr) % 2 ^ 32 ≤ qVectors then rxr else 0
  let l : VectorLoop := { adapter := a, txrRemaining := fcoe, txrIdx := txr }
  let l ← l.fcoeVectors inp base split qVectors
  let l ← l.rxVectors inp base qVectors rxOnly
  let l ← { l with txrRemaining := txr, txrIdx := 0 }.sharedVectors inp base qVectors rxOnly
  match l.failed with
  | none => return (l.adapter, true)
  | some vIdx => return (l.adapter.freeBelow vIdx, false)

/-- `ixgbe_cache_ring_register` writes to every ring. -/
def ixgbeCacheRingRegister (a : QueueAdapter) : Except QueueFault Unit :=
  if (List.range a.numTxQueues).all fun idx => (a.txRing idx).isSome then .ok ()
  else .error .txRing

def ixgbeClearInterruptScheme (a : QueueAdapter) : QueueAdapter :=
  { a.ixgbeFreeQVectors with msixEnabled := false }

def fresh (a : QueueAdapter) : QueueAdapter :=
  { a with
    msixEnabled := false, numTxQueues := 0, numRxQueues := 0, numQVectors := 0
    txRing := fun _ => none, qVector := fun _ => [] }

end QueueAdapter

/-! ## The card -/

/-- A card: `num_online_cpus`, the MTU of the net device, whether it runs, how many ports are
    probed, and their adapters. -/
structure QueueCard where
  cpus : Nat
  mtu : Int32 := wfsDefaultMtu
  running : Bool := false
  probed : Nat := 0
  adapter : Port → QueueAdapter := fun _ => {}

namespace QueueCard

def setAdapter (c : QueueCard) (p : Port) (a : QueueAdapter) : QueueCard :=
  { c with adapter := Function.update c.adapter p a }

/-- `netdev_get_num_tc`, whose private data is the primary adapter. -/
def numTc (c : QueueCard) : Nat :=
  if (c.adapter .primary).dcbEnabled then (c.adapter .primary).dcbTc else 0

/-- `netdev_set_num_tc` to 0, if there are traffic classes. -/
def resetTc (c : QueueCard) : QueueCard :=
  if c.numTc > 1 then c.setAdapter .primary { c.adapter .primary with dcbTc := 0 } else c

def ixgbeSetInterruptCapability (inp : SchemeInputs) (p : Port) (c : QueueCard) : QueueCard :=
  let a := (c.adapter p).tryMsix inp.msix
  let c := c.setAdapter p a
  if a.msixCapable && a.msixEnabled then c
  else c.resetTc.setAdapter p ((c.resetTc.adapter p).tryMsi c.cpus c.mtu c.numTc)

def setCounts (inp : SchemeInputs) (p : Port) (c : QueueCard) : QueueCard :=
  let a := (c.adapter p).ixgbeSetNumQueues c.cpus c.mtu c.numTc
  (c.setAdapter p a).ixgbeSetInterruptCapability inp p

/-- `ixgbe_init_interrupt_scheme`, and whether it returns 0.  The rings of the secondary port are
    numbered from the queue count of the primary one on. -/
def ixgbeInitInterruptScheme (inp : SchemeInputs) (p : Port) (c : QueueCard) :
    Except QueueFault (QueueCard × Bool) := do
  let c := c.setCounts inp p
  let base := if p = .primary then 0 else (c.adapter .primary).numTxQueues
  let (a, ok) ← (c.adapter p).ixgbeAllocQVectors inp base
  if ok then
    a.ixgbeCacheRingRegister
    return (c.setAdapter p a, true)
  else
    return (c.setAdapter p { a with msixEnabled := false }, false)

/-- `ixgbe_reinit_locked_change_queues`, as far as it goes into queues. -/
def ixgbeReinitLockedChangeQueues (inp : SchemeInputs) (c : QueueCard) :
    Except QueueFault QueueCard := do
  let c := c.setAdapter .primary (c.adapter .primary).ixgbeClearInterruptScheme
  let (c, _) ← c.ixgbeInitInterruptScheme inp .primary
  return c

/-- The check of `ixgbe_change_mtu`, on the frame with the largest header. -/
def mtuAccepted (newMtu : Int32) : Bool :=
  let maxFrame := newMtu + 14 + 4 + 64
  !(newMtu < 68 || maxFrame > ixgbeMaxJumboFrameSize)

/-- The MTU goes from one side of `ETH_DATA_LEN` to the other. -/
def crosses (oldMtu newMtu : Int32) : Bool :=
  (oldMtu ≤ ethDataLen && newMtu > ethDataLen) || (oldMtu > ethDataLen && newMtu ≤ ethDataLen)

def ixgbeChangeMtu (newMtu : Int32) (inp : SchemeInputs) (c : QueueCard) :
    Except QueueFault QueueCard :=
  if !mtuAccepted newMtu then .ok c else
  let oldMtu := c.mtu
  let c := { c with mtu := newMtu }
  if c.running && crosses oldMtu newMtu then c.ixgbeReinitLockedChangeQueues inp else .ok c

def nextPort (c : QueueCard) : Port := if c.probed = 0 then .primary else .secondary

/-- What `ixgbe_wfs_probe` does with the queues of a new adapter. -/
def probe (a : QueueAdapter) (inp : SchemeInputs) (c : QueueCard) :
    Except QueueFault (QueueCard × Bool) := do
  let p := c.nextPort
  let (c, ok) ← (c.setAdapter p a.fresh).ixgbeInitInterruptScheme inp p
  return ({ c with probed := c.probed + 1 }, ok)

inductive Op where
  | probe (a : QueueAdapter) (inp : SchemeInputs)
  | setRunning (running : Bool)
  | changeMtu (newMtu : Int32) (inp : SchemeInputs)

/-- One step.  The net device is registered when both ports are probed.  A probe that fails
    binds no port and is left out. -/
def Step (c : QueueCard) : Op → QueueCard → Prop
  | .probe a inp, c' => c.probed < 2 ∧ c.probe a inp = .ok (c', true)
  | .setRunning running, c' => c.probed = 2 ∧ c' = { c with running }
  | .changeMtu newMtu inp, c' => c.probed = 2 ∧ c.ixgbeChangeMtu newMtu inp = .ok c'

/-- The step function of `Step`. -/
def exec (c : QueueCard) : Op → Option QueueCard
  | .probe a inp =>
    if c.probed < 2 then
      match c.probe a inp with
      | .ok (c', true) => some c'
      | _ => none
    else none
  | .setRunning running => if c.probed = 2 then some { c with running } else none
  | .changeMtu newMtu inp => if c.probed = 2 then (c.ixgbeChangeMtu newMtu inp).toOption else none

theorem exec_eq_some_iff (c : QueueCard) (op : Op) (c' : QueueCard) :
    c.exec op = some c' ↔ Step c op c' := by
  cases op with
  | probe a inp =>
    simp only [exec, Step]
    split
    · rcases c.probe a inp with e | ⟨d, _ | _⟩ <;> simp_all
    · simp_all
  | setRunning running => simp [exec, Step, eq_comm]
  | changeMtu newMtu inp =>
    simp only [exec, Step]
    cases c.ixgbeChangeMtu newMtu inp <;> simp [Except.toOption]

theorem step_unique {c d d' : QueueCard} {op : Op} (h : Step c op d) (h' : Step c op d') : d = d' :=
  Option.some.inj (((exec_eq_some_iff c op d).mpr h).symm.trans ((exec_eq_some_iff c op d').mpr h'))

/-! ## What is promised -/

def Live (c : QueueCard) (p : Port) (idx : Nat) (r : TxRing) : Prop :=
  idx < (c.adapter p).numTxQueues ∧ (c.adapter p).txRing idx = some r

/-- The live rings have distinct indices of the net device, below the number of its queues. -/
structure IndicesOk (c : QueueCard) : Prop where
  injective : ∀ p q i j r s, c.Live p i r → c.Live q j s →
    r.netifQueueIndex = s.netifQueueIndex → p = q ∧ i = j
  bound : ∀ p i r, c.Live p i r → r.netifQueueIndex.toNat <
    (c.adapter .primary).numTxQueues + (c.adapter .secondary).numTxQueues

def reinitTxQueues (newMtu : Int32) (inp : SchemeInputs) (c : QueueCard) : Nat :=
  let c := { c with mtu := newMtu }
  let c := c.setAdapter .primary (c.adapter .primary).ixgbeClearInterruptScheme
  let a := (c.setCounts inp .primary).adapter .primary
  match a.ixgbeAllocQVectors inp 0 with
  | .ok (_, true) => a.numTxQueues
  | _ => 0

/-- A change of the MTU that makes the queues of the primary port anew makes as many as there
    were, if the secondary port has any. -/
def KeepsCount (c : QueueCard) : Op → Prop
  | .changeMtu newMtu inp =>
    mtuAccepted newMtu = true → c.running = true → crosses c.mtu newMtu = true →
      (c.adapter .secondary).numTxQueues = 0 ∨
        c.reinitTxQueues newMtu inp = (c.adapter .primary).numTxQueues
  | _ => True

instance (c : QueueCard) (op : Op) : Decidable (c.KeepsCount op) :=
  match op with
  | .probe .. => .isTrue trivial
  | .setRunning .. => .isTrue trivial
  | .changeMtu newMtu inp => inferInstanceAs (Decidable
      (mtuAccepted newMtu = true → c.running = true → crosses c.mtu newMtu = true →
        (c.adapter .secondary).numTxQueues = 0 ∨
          c.reinitTxQueues newMtu inp = (c.adapter .primary).numTxQueues))

end QueueCard

/-! ## The rings of an adapter -/

namespace QueueAdapter

variable {a a' : QueueAdapter} {base n : Nat} {inp : SchemeInputs}

/-- The rings of an adapter have their own index, and that of the net device `base` above it. -/
def Wired (base : Nat) (a : QueueAdapter) : Prop :=
  ∀ i r, a.txRing i = some r → i < maxTxQueues ∧ r = ⟨.ofNat i, .ofNat (i + base)⟩

structure Numbered (base : Nat) (a : QueueAdapter) : Prop where
  wired : a.Wired base
  full : ∀ i, i < a.numTxQueues → (a.txRing i).isSome

theorem Numbered.le (h : a.Numbered base) : a.numTxQueues ≤ maxTxQueues := by
  by_contra hlt
  obtain ⟨r, hr⟩ := Option.isSome_iff_exists.mp (h.full maxTxQueues (Nat.lt_of_not_le hlt))
  exact Nat.lt_irrefl _ (h.wired _ r hr).1

theorem wired_fresh (a : QueueAdapter) (base : Nat) : a.fresh.Wired base :=
  fun _ _ h => by cases h

/-! ## Allocating the vectors -/

/-- What the steps of `ixgbe_alloc_q_vectors` keep. -/
def Kept (base n : Nat) (a : QueueAdapter) : Prop := a.Wired base ∧ a.numTxQueues = n

theorem addTxRing_kept {vIdx idx : Nat} (h : a.Kept base n)
    (hadd : addTxRing base vIdx a idx = .ok a') : a'.Kept base n := by
  rw [addTxRing] at hadd
  split at hadd
  · next hidx =>
    cases hadd
    refine ⟨fun i r hr => ?_, h.2⟩
    change Function.update a.txRing idx _ i = some r at hr
    by_cases hi : i = idx
    · subst hi
      rw [Function.update_self] at hr
      exact ⟨hidx, (Option.some.inj hr).symm⟩
    · rw [Function.update_of_ne hi] at hr
      exact h.1 i r hr
  · cases hadd

theorem ixgbeFreeQVector_kept (h : a.Kept base n) (vIdx : Nat) :
    (a.ixgbeFreeQVector vIdx).Kept base n := by
  refine ⟨fun i r hr => ?_, h.2⟩
  simp only [ixgbeFreeQVector] at hr
  split at hr
  · cases hr
  · exact h.1 i r hr

theorem freeBelow_kept (h : a.Wired base) (vIdx : Nat) : (a.freeBelow vIdx).Kept base 0 := by
  have hkept : ({ a with numTxQueues := 0, numRxQueues := 0, numQVectors := 0 } :
      QueueAdapter).Kept base 0 := ⟨h, rfl⟩
  exact List.foldlRecOn _ _ hkept fun b hb v _ => ixgbeFreeQVector_kept hb v

end QueueAdapter

namespace VectorLoop

open QueueAdapter

variable {inp : SchemeInputs} {base n : Nat} {l l' : VectorLoop}

theorem ixgbeAllocQVector_kept {vCount vIdx txrCount txrIdx unwind : Nat}
    (h : l.adapter.Kept base n)
    (halloc : l.ixgbeAllocQVector inp base vCount vIdx txrCount txrIdx unwind = .ok l') :
    l'.adapter.Kept base n := by
  rw [ixgbeAllocQVector] at halloc
  split at halloc
  · cases halloc
    exact h
  · split at halloc
    · cases halloc
      exact h
    · split at halloc
      · cases halloc
      · obtain ⟨a, hrings, hl⟩ := bind_eq_ok.mp halloc
        cases hl
        exact foldlM_partial (I := fun _ a => QueueAdapter.Kept base n a)
          (fun _ _ _ _ hkept hadd => addTxRing_kept hkept hadd) hrings ⟨h.1, h.2⟩

theorem fcoeVectors_kept {split first : Nat} (h : l.adapter.Kept base n)
    (hloop : l.fcoeVectors inp base split first = .ok l') : l'.adapter.Kept base n := by
  refine foldlM_partial (I := fun _ l => l.adapter.Kept base n) ?_ hloop h
  intro i _ l l' hkept hbody
  obtain ⟨l₁, hrx, hbody⟩ := bind_eq_ok.mp hbody
  obtain ⟨l₂, htx, hbody⟩ := bind_eq_ok.mp hbody
  cases hbody
  have hkept₂ := ixgbeAllocQVector_kept (ixgbeAllocQVector_kept hkept hrx) htx
  exact hkept₂

theorem rxVectors_kept {qVectors rxr : Nat} (h : l.adapter.Kept base n)
    (hloop : l.rxVectors inp base qVectors rxr = .ok l') : l'.adapter.Kept base n :=
  foldlM_partial (I := fun _ l => l.adapter.Kept base n)
    (fun _ _ _ _ hkept hrx => ixgbeAllocQVector_kept hkept hrx) hloop h

theorem sharedVectors_kept {qVectors first : Nat} (h : l.adapter.Kept base n)
    (hloop : l.sharedVectors inp base qVectors first = .ok l') : l'.adapter.Kept base n := by
  refine foldlM_partial (I := fun _ l => l.adapter.Kept base n) ?_ hloop h
  intro vIdx _ l l' hkept hbody
  obtain ⟨l₁, halloc, hbody⟩ := bind_eq_ok.mp hbody
  cases hbody
  have hkept₁ := ixgbeAllocQVector_kept hkept halloc
  exact hkept₁

end VectorLoop

namespace QueueAdapter

variable {a a' : QueueAdapter} {base : Nat} {inp : SchemeInputs} {ok : Bool}

theorem ixgbeAllocQVectors_kept (h : a.Wired base)
    (halloc : a.ixgbeAllocQVectors inp base = .ok (a', ok)) :
    a'.Kept base (if ok then a.numTxQueues else 0) := by
  rw [ixgbeAllocQVectors] at halloc
  obtain ⟨l₁, hfcoe, halloc⟩ := bind_eq_ok.mp halloc
  obtain ⟨l₂, hrx, halloc⟩ := bind_eq_ok.mp halloc
  obtain ⟨l₃, hshared, halloc⟩ := bind_eq_ok.mp halloc
  have hstart : a.Kept base a.numTxQueues := ⟨h, rfl⟩
  have hkept₂ := VectorLoop.rxVectors_kept (VectorLoop.fcoeVectors_kept hstart hfcoe) hrx
  have hkept := VectorLoop.sharedVectors_kept (by exact hkept₂) hshared
  split at halloc
  · cases halloc
    exact hkept
  · cases halloc
    exact freeBelow_kept hkept.1 _

/-! ## Every ring is made -/

theorem divRoundUp_mul_add {d r : Nat} (m : Nat) (hr : r ≤ d) (hd : 0 < d) :
    divRoundUp (d * m + r) d = m + if 0 < r then 1 else 0 := by
  have hsum : d * m + r + d - 1 = (r + d - 1) + d * m := by omega
  rw [divRoundUp, hsum, Nat.add_mul_div_left _ _ hd, Nat.add_comm]
  split
  · next hpos => rw [show (r + d - 1) / d = 1 from Nat.div_eq_of_lt_le (by omega) (by omega)]
  · rw [Nat.div_eq_of_lt (by omega)]

end QueueAdapter

namespace VectorLoop

variable {inp : SchemeInputs} {base : Nat} {l : VectorLoop}

/-- The rings of the `j`-th of `v` vectors when `n` are dealt out in turn. -/
def share (n v j : Nat) : Nat := n / v + if j < n % v then 1 else 0

theorem share_le_one {n v j : Nat} (hj : j < v) (h : n ≤ v) : share n v j ≤ 1 ∧
    (0 < share n v j → j < n) := by
  rw [share]
  rcases Nat.lt_or_eq_of_le h with hlt | rfl
  · rw [Nat.div_eq_of_lt hlt, Nat.mod_eq_of_lt hlt]
    split <;> omega
  · rw [Nat.div_self (Nat.zero_lt_of_lt hj), Nat.mod_self]
    simp [hj]

theorem ring_lt {n v q j k : Nat} (hj : j < v) (hq : q = v ∨ n ≤ v) (hk : k < share n v j) :
    j + k * q < n := by
  rcases hq with rfl | hle
  · have hn := Nat.div_add_mod n q
    rw [share] at hk
    rcases Nat.lt_or_ge k (n / q) with hlt | hge
    · have hrow : q * (k + 1) ≤ q * (n / q) := Nat.mul_le_mul_left q hlt
      rw [Nat.mul_add, Nat.mul_one] at hrow
      rw [Nat.mul_comm]
      omega
    · split at hk
      · obtain rfl : k = n / q := by omega
        rw [Nat.mul_comm]
        omega
      · omega
  · obtain ⟨hone, hpos⟩ := share_le_one hj hle
    obtain rfl : k = 0 := by omega
    have hlt := hpos hk
    omega

theorem exists_ring {n v q i : Nat} (hv : 0 < v) (hq : q = v ∨ n ≤ v) (hi : i < n) :
    ∃ k, k < share n v (i % v) ∧ i % v + k * q = i := by
  rcases hq with rfl | hle
  · refine ⟨i / q, ?_, by rw [Nat.mul_comm]; exact Nat.mod_add_div i q⟩
    have hdiv : i / q ≤ n / q := Nat.div_le_div_right hi.le
    rw [share]
    rcases Nat.lt_or_eq_of_le hdiv with hlt | heq
    · omega
    · have hrow := Nat.div_add_mod i q
      have hlast := Nat.div_add_mod n q
      rw [heq] at hrow ⊢
      rw [if_pos (by omega)]
      exact Nat.lt_succ_self _
  · have hmod : i % v = i := Nat.mod_eq_of_lt (Nat.lt_of_lt_of_le hi hle)
    refine ⟨0, ?_, by rw [hmod, Nat.zero_mul, Nat.add_zero]⟩
    rw [hmod, share]
    rcases Nat.lt_or_eq_of_le hle with hlt | rfl
    · rw [Nat.mod_eq_of_lt hlt, if_pos hi]
      exact Nat.succ_pos _
    · rw [Nat.div_self hv]
      exact Nat.lt_add_right _ Nat.one_pos

end VectorLoop

namespace QueueAdapter

variable {a a' : QueueAdapter} {base : Nat} {inp : SchemeInputs} {ok : Bool}

/-! ## The counts leave the rings -/

theorem ixgbeSetNumQueues_txRing (cpus : Nat) (mtu : Int32) (numTc : Nat) (a : QueueAdapter) :
    (a.ixgbeSetNumQueues cpus mtu numTc).txRing = a.txRing := by
  have hdcbVmdq {b : QueueAdapter} (h : a.ixgbeSetDcbVmdqQueues mtu numTc = some b) :
      b.txRing = a.txRing := by
    simp only [ixgbeSetDcbVmdqQueues] at h
    split_ifs at h <;> obtain rfl := Option.some.inj h <;> rfl
  have hdcb {b : QueueAdapter} (h : a.ixgbeSetDcbQueues numTc = some b) :
      b.txRing = a.txRing := by
    simp only [ixgbeSetDcbQueues] at h
    split_ifs at h <;> obtain rfl := Option.some.inj h <;> rfl
  have hvmdq {b : QueueAdapter} (h : a.ixgbeSetVmdqQueues cpus mtu = some b) :
      b.txRing = a.txRing := by
    simp only [ixgbeSetVmdqQueues] at h
    split_ifs at h <;> obtain rfl := Option.some.inj h <;> rfl
  have hrss : (a.ixgbeSetRssQueues cpus).txRing = a.txRing := by
    simp only [ixgbeSetRssQueues]
    split <;> rfl
  rw [ixgbeSetNumQueues]
  cases h₁ : a.ixgbeSetDcbVmdqQueues mtu numTc with
  | some b => exact hdcbVmdq h₁
  | none =>
    cases h₂ : a.ixgbeSetDcbQueues numTc with
    | some b => exact hdcb h₂
    | none =>
      cases h₃ : a.ixgbeSetVmdqQueues cpus mtu with
      | some b => exact hvmdq h₃
      | none => exact hrss

theorem ixgbeAcquireMsixVectors_txRing (granted : Bool) (vectors : Nat) (a : QueueAdapter) :
    (a.ixgbeAcquireMsixVectors granted vectors).txRing = a.txRing := by
  simp only [ixgbeAcquireMsixVectors]
  split_ifs <;> rfl

theorem tryMsix_txRing (granted : Bool) (a : QueueAdapter) :
    (a.tryMsix granted).txRing = a.txRing := by
  rw [tryMsix]
  split
  · exact ixgbeAcquireMsixVectors_txRing ..
  · rfl

theorem tryMsi_txRing (cpus : Nat) (mtu : Int32) (numTc : Nat) (a : QueueAdapter) :
    (a.tryMsi cpus mtu numTc).txRing = a.txRing := by
  simp only [tryMsi, ixgbeSetNumQueues_txRing]
  split <;> split <;> rfl

theorem numbered_of_cached (h : a.Wired base) {u : Unit}
    (hcache : a.ixgbeCacheRingRegister = .ok u) : a.Numbered base := by
  rw [ixgbeCacheRingRegister] at hcache
  split at hcache
  · next hall =>
    refine ⟨h, fun i hi => ?_⟩
    exact List.all_eq_true.mp hall i (List.mem_range.mpr hi)
  · cases hcache

end QueueAdapter

namespace QueueCard

open QueueAdapter

variable {c c' : QueueCard} {p q : Port} {inp : SchemeInputs} {base : Nat} {ok : Bool}
  {a : QueueAdapter} {i : Nat}

@[simp] theorem setAdapter_self (c : QueueCard) (p : Port) (a : QueueAdapter) :
    (c.setAdapter p a).adapter p = a :=
  Function.update_self ..

theorem setAdapter_of_ne (h : q ≠ p) : (c.setAdapter p a).adapter q = c.adapter q :=
  Function.update_of_ne h ..

def SameRings (a b : QueueAdapter) : Prop :=
  a.txRing = b.txRing ∧ a.numTxQueues = b.numTxQueues

theorem SameRings.numbered {b : QueueAdapter} (h : SameRings a b) (hb : b.Numbered base) :
    a.Numbered base := by
  refine ⟨fun i r hr => hb.wired i r (h.1 ▸ hr), fun i hi => ?_⟩
  rw [h.1]
  exact hb.full i (h.2 ▸ hi)

theorem SameRings.refl (a : QueueAdapter) : SameRings a a := ⟨rfl, rfl⟩

theorem resetTc_sameRings (c : QueueCard) (q : Port) :
    SameRings (c.resetTc.adapter q) (c.adapter q) := by
  rw [resetTc]
  split
  · by_cases hq : q = .primary
    · subst hq
      rw [setAdapter_self]
      exact ⟨rfl, rfl⟩
    · rw [setAdapter_of_ne hq]
      exact .refl _
  · exact .refl _

theorem ixgbeSetInterruptCapability_spec (inp : SchemeInputs) (p : Port) (c : QueueCard) :
    ((c.ixgbeSetInterruptCapability inp p).adapter p).txRing = (c.adapter p).txRing ∧
      SameRings ((c.ixgbeSetInterruptCapability inp p).adapter p.other) (c.adapter p.other) := by
  simp only [ixgbeSetInterruptCapability]
  split
  · rw [setAdapter_self, setAdapter_of_ne p.other_ne]
    exact ⟨tryMsix_txRing .., .refl _⟩
  · -- the traffic classes reset are those of the primary port, whichever port fell back
    rw [setAdapter_self, setAdapter_of_ne p.other_ne, tryMsi_txRing]
    refine ⟨?_, ?_⟩
    · rw [(resetTc_sameRings _ p).1, setAdapter_self, tryMsix_txRing]
    · have hother := resetTc_sameRings (c.setAdapter p ((c.adapter p).tryMsix inp.msix)) p.other
      rwa [setAdapter_of_ne p.other_ne] at hother

theorem setCounts_spec (inp : SchemeInputs) (p : Port) (c : QueueCard) :
    ((c.setCounts inp p).adapter p).txRing = (c.adapter p).txRing ∧
      SameRings ((c.setCounts inp p).adapter p.other) (c.adapter p.other) := by
  have h := ixgbeSetInterruptCapability_spec inp p
    (c.setAdapter p ((c.adapter p).ixgbeSetNumQueues c.cpus c.mtu c.numTc))
  rw [setAdapter_self, setAdapter_of_ne p.other_ne, ixgbeSetNumQueues_txRing] at h
  exact h

/-- What `ixgbe_init_interrupt_scheme` keeps of a card. -/
def SameCard (c c' : QueueCard) : Prop :=
  c'.cpus = c.cpus ∧ c'.mtu = c.mtu ∧ c'.running = c.running ∧ c'.probed = c.probed

theorem setCounts_sameCard (inp : SchemeInputs) (p : Port) (c : QueueCard) :
    c.SameCard (c.setCounts inp p) := by
  simp only [setCounts, ixgbeSetInterruptCapability, resetTc]
  split_ifs <;> exact ⟨rfl, rfl, rfl, rfl⟩

/-- The first index of the rings `ixgbe_init_interrupt_scheme` makes. -/
def firstIndex (p : Port) (c : QueueCard) : Nat :=
  if p = .primary then 0 else (c.adapter .primary).numTxQueues

theorem firstIndex_setCounts (inp : SchemeInputs) (p : Port) (c : QueueCard) :
    (if p = .primary then 0 else ((c.setCounts inp p).adapter .primary).numTxQueues) =
      c.firstIndex p := by
  rw [firstIndex]
  cases p with
  | primary => rfl
  | secondary => exact (setCounts_spec inp .secondary c).2.2

theorem ixgbeInitInterruptScheme_spec (h : (c.adapter p).Wired (c.firstIndex p))
    (hinit : c.ixgbeInitInterruptScheme inp p = .ok (c', ok)) :
    (c'.adapter p).Numbered (c.firstIndex p) ∧
      SameRings (c'.adapter p.other) (c.adapter p.other) ∧ c.SameCard c' ∧
      ∃ a, ((c.setCounts inp p).adapter p).ixgbeAllocQVectors inp (c.firstIndex p) = .ok (a, ok) ∧
        (c'.adapter p).numTxQueues =
          if ok then ((c.setCounts inp p).adapter p).numTxQueues else 0 := by
  obtain ⟨hrings, hother⟩ := setCounts_spec inp p c
  have hsame := setCounts_sameCard inp p c
  simp only [ixgbeInitInterruptScheme, firstIndex_setCounts] at hinit
  obtain ⟨⟨a, made⟩, halloc, hinit⟩ := bind_eq_ok.mp hinit
  have hwired : ((c.setCounts inp p).adapter p).Wired (c.firstIndex p) :=
    fun i r hr => h i r (hrings ▸ hr)
  obtain ⟨hkept, hcount⟩ := ixgbeAllocQVectors_kept hwired halloc
  cases made with
  | true =>
    obtain ⟨_, hcache, hinit⟩ := bind_eq_ok.mp hinit
    cases hinit
    rw [setAdapter_self, setAdapter_of_ne p.other_ne]
    exact ⟨numbered_of_cached hkept hcache, hother, hsame, a, halloc, hcount⟩
  | false =>
    cases hinit
    rw [setAdapter_self, setAdapter_of_ne p.other_ne]
    refine ⟨⟨hkept, fun i hi => ?_⟩, hother, hsame, a, halloc, hcount⟩
    exact absurd hi (by simp [hcount])

/-! ## The invariant -/

/-- The rings of both ports are numbered, those of the secondary one from `base` on. -/
structure NumberedFrom (base : Nat) (c : QueueCard) : Prop where
  primary : (c.adapter .primary).Numbered 0
  secondary : (c.adapter .secondary).Numbered base
  base_le : base ≤ maxTxQueues

theorem toNat_index (hi : i < maxTxQueues) (hbase : base ≤ maxTxQueues) :
    (UInt8.ofNat (i + base)).toNat = i + base := by
  rw [UInt8.toNat_ofNat']
  simp only [maxTxQueues] at hi hbase
  omega

theorem NumberedFrom.index (h : c.NumberedFrom base) {r : TxRing} (hr : c.Live p i r) :
    r.netifQueueIndex.toNat = i + if p = .primary then 0 else base := by
  cases p with
  | primary =>
    obtain ⟨hi, rfl⟩ := h.primary.wired i r hr.2
    exact toNat_index hi (Nat.zero_le _)
  | secondary =>
    obtain ⟨hi, rfl⟩ := h.secondary.wired i r hr.2
    exact toNat_index hi h.base_le

theorem NumberedFrom.live (h : c.NumberedFrom base) (hi : i < (c.adapter p).numTxQueues) :
    ∃ r, c.Live p i r := by
  have hsome : ((c.adapter p).txRing i).isSome := by
    cases p with
    | primary => exact h.primary.full i hi
    | secondary => exact h.secondary.full i hi
  obtain ⟨r, hr⟩ := Option.isSome_iff_exists.mp hsome
  exact ⟨r, hi, hr⟩

theorem NumberedFrom.indicesOk_iff (h : c.NumberedFrom base) :
    c.IndicesOk ↔ (c.adapter .secondary).numTxQueues = 0 ∨
      (c.adapter .primary).numTxQueues = base := by
  constructor
  · intro hok
    by_contra hnot
    obtain ⟨hsec, hbase⟩ := not_or.mp hnot
    rcases Nat.lt_or_gt_of_ne hbase with hlt | hgt
    · -- the last ring of the secondary port is past the end
      obtain ⟨r, hr⟩ := h.live (p := .secondary)
        (Nat.sub_one_lt hsec)
      have hbound := hok.bound .secondary _ r hr
      have hindex := h.index hr
      simp only [reduceCtorEq, if_false] at hindex
      omega
    · -- the first ring of the secondary port has the index of one of the primary port
      obtain ⟨r, hr⟩ := h.live (p := .secondary) (Nat.pos_of_ne_zero hsec)
      obtain ⟨s, hs⟩ := h.live (p := .primary) hgt
      have hindex := h.index hr
      have hindex' := h.index hs
      simp only [reduceCtorEq, if_false, if_true, Nat.zero_add, Nat.add_zero] at hindex hindex'
      have hsame := hok.injective .secondary .primary _ _ r s hr hs
        (UInt8.toNat_inj.mp (hindex.trans hindex'.symm))
      cases hsame.1
  · intro hcount
    constructor
    · intro p q i j r s hr hs hrs
      have hindex := (h.index hr).symm.trans ((congrArg UInt8.toNat hrs).trans (h.index hs))
      have hi := hr.1
      have hj := hs.1
      cases p <;> cases q <;> simp at hindex hi hj ⊢ <;> omega
    · intro p i r hr
      rw [h.index hr]
      have hi := hr.1
      cases p <;> simp at hi ⊢ <;> omega

/-- What the steps keep.  The secondary port has no queues before it is probed. -/
def Inv (c : QueueCard) : Prop :=
  (∃ base, c.NumberedFrom base ∧ ((c.adapter .secondary).numTxQueues = 0 ∨
    (c.adapter .primary).numTxQueues = base)) ∧
  (c.probed < 2 → (c.adapter .secondary).numTxQueues = 0)

theorem Inv.indicesOk (h : c.Inv) : c.IndicesOk := by
  obtain ⟨⟨base, hnum, hcount⟩, -⟩ := h
  exact hnum.indicesOk_iff.mpr hcount

theorem inv_initial (cpus : Nat) : Inv { cpus } := by
  have hnone : ({} : QueueAdapter).Numbered 0 :=
    ⟨fun _ _ h => (by cases h), fun i hi => absurd hi (Nat.not_lt_zero i)⟩
  exact ⟨⟨0, ⟨hnone, hnone, Nat.zero_le _⟩, .inl rfl⟩, fun _ => rfl⟩

theorem Inv.probe (h : c.Inv) (hprobed : c.probed < 2) (hprobe : c.probe a inp = .ok (c', ok)) :
    c'.Inv := by
  obtain ⟨⟨base, hnum, -⟩, hnone⟩ := h
  obtain ⟨⟨d, made⟩, hinit, hprobe⟩ := bind_eq_ok.mp hprobe
  cases hprobe
  have hwired : ((c.setAdapter c.nextPort a.fresh).adapter c.nextPort).Wired
      ((c.setAdapter c.nextPort a.fresh).firstIndex c.nextPort) := by
    rw [setAdapter_self]
    exact wired_fresh a _
  obtain ⟨hport, hother, ⟨-, -, -, hsame⟩, -⟩ := ixgbeInitInterruptScheme_spec hwired hinit
  rw [setAdapter_of_ne (Port.other_ne _)] at hother
  have hsame : d.probed = c.probed := hsame
  rw [nextPort] at hport hother
  split at hport
  · -- the primary port, with no queues on the other
    next hfirst =>
    rw [if_pos hfirst] at hother
    have hsec : (d.adapter .secondary).numTxQueues = 0 := hother.2.trans (hnone hprobed)
    exact ⟨⟨base, ⟨hport, hother.numbered hnum.secondary, hnum.base_le⟩, .inl hsec⟩, fun _ => hsec⟩
  · next hsecond =>
    rw [if_neg hsecond] at hother
    rw [firstIndex, if_neg (by decide), setAdapter_of_ne (by decide)] at hport
    refine ⟨⟨_, ⟨hother.numbered hnum.primary, hport, hnum.primary.le⟩, .inr hother.2⟩, ?_⟩
    intro hlt
    simp only [hsame] at hlt
    omega

theorem reinitTxQueues_of_alloc {made : Bool}
    (halloc : (((c.setAdapter .primary (c.adapter .primary).ixgbeClearInterruptScheme).setCounts inp
      .primary).adapter .primary).ixgbeAllocQVectors inp 0 = .ok (a, made)) :
    c.reinitTxQueues c.mtu inp = if made then
      (((c.setAdapter .primary (c.adapter .primary).ixgbeClearInterruptScheme).setCounts inp
        .primary).adapter .primary).numTxQueues else 0 := by
  have hmatch : c.reinitTxQueues c.mtu inp =
      match (Except.ok (a, made) : Except QueueFault (QueueAdapter × Bool)) with
      | .ok (_, true) => (((c.setAdapter .primary
          (c.adapter .primary).ixgbeClearInterruptScheme).setCounts inp .primary).adapter
            .primary).numTxQueues
      | _ => 0 := by
    rw [← halloc]
    rfl
  rw [hmatch]
  cases made <;> rfl

theorem ixgbeReinitLockedChangeQueues_spec (h : (c.adapter .primary).Wired 0)
    (hreinit : c.ixgbeReinitLockedChangeQueues inp = .ok c') :
    (c'.adapter .primary).Numbered 0 ∧
      SameRings (c'.adapter .secondary) (c.adapter .secondary) ∧ c'.probed = c.probed ∧
      (c'.adapter .primary).numTxQueues = c.reinitTxQueues c.mtu inp := by
  obtain ⟨⟨d, made⟩, hinit, hreinit⟩ := bind_eq_ok.mp hreinit
  cases hreinit
  have hwired : ((c.setAdapter .primary (c.adapter .primary).ixgbeClearInterruptScheme).adapter
      .primary).Wired 0 := by
    rw [setAdapter_self]
    exact (freeBelow_kept h _).1
  obtain ⟨hport, hother, hsame, a, halloc, hcount⟩ := ixgbeInitInterruptScheme_spec hwired hinit
  refine ⟨hport, hother, hsame.2.2.2, ?_⟩
  rw [hcount, reinitTxQueues_of_alloc halloc]

theorem Inv.changeMtu {newMtu : Int32} (h : c.Inv) (hprobed : c.probed = 2)
    (hchange : c.ixgbeChangeMtu newMtu inp = .ok c') :
    (c.KeepsCount (.changeMtu newMtu inp) → c'.Inv) ∧
      (c'.IndicesOk → c.KeepsCount (.changeMtu newMtu inp)) := by
  obtain ⟨⟨base, hnum, hcount⟩, hnone⟩ := h
  simp only [ixgbeChangeMtu] at hchange
  split at hchange
  · next hrejected =>
    cases hchange
    refine ⟨fun _ => ⟨⟨base, hnum, hcount⟩, hnone⟩, fun _ haccepted => ?_⟩
    simp [haccepted] at hrejected
  · next haccepted =>
    split at hchange
    · next hmakes =>
      obtain ⟨hpri, hsec, hsame, hnew⟩ :=
        ixgbeReinitLockedChangeQueues_spec (c := { c with mtu := newMtu }) hnum.primary.wired
          hchange
      have hnum' : c'.NumberedFrom base := ⟨hpri, hsec.numbered hnum.secondary, hnum.base_le⟩
      have hiff : c'.IndicesOk ↔ (c.adapter .secondary).numTxQueues = 0 ∨
          c.reinitTxQueues newMtu inp = base := by
        rw [hnum'.indicesOk_iff, hsec.2, hnew]
        exact Iff.rfl
      have hguard : c.KeepsCount (.changeMtu newMtu inp) ↔ (c.adapter .secondary).numTxQueues = 0 ∨
          c.reinitTxQueues newMtu inp = (c.adapter .primary).numTxQueues := by
        have hmakes := Bool.and_eq_true_iff.mp hmakes
        exact ⟨fun h => h (by simpa using haccepted) hmakes.1 hmakes.2, fun h _ _ _ => h⟩
      -- the rings of the secondary port start where those of the primary one ended
      have hsame_base : ((c.adapter .secondary).numTxQueues = 0 ∨
          c.reinitTxQueues newMtu inp = (c.adapter .primary).numTxQueues) ↔ c'.IndicesOk := by
        rw [hiff]
        rcases hcount with hnone | hbase
        · exact iff_of_true (.inl hnone) (.inl hnone)
        · rw [hbase]
      rw [hguard, hsame_base]
      refine ⟨fun hok => ⟨⟨base, hnum', hnum'.indicesOk_iff.mp hok⟩, fun hlt => ?_⟩, id⟩
      rw [hsame] at hlt
      exact absurd hlt (by simp [hprobed])
    · next hkeeps =>
      cases hchange
      refine ⟨fun _ => ⟨⟨base, ⟨hnum.primary, hnum.secondary, hnum.base_le⟩, hcount⟩, hnone⟩,
        fun _ _ hrunning hcrosses => ?_⟩
      exact absurd (by simp [hrunning, hcrosses]) hkeeps

theorem Inv.step {op : Op} (h : c.Inv) (hstep : Step c op c') :
    (c.KeepsCount op → c'.Inv) ∧ (c'.IndicesOk → c.KeepsCount op) := by
  cases op with
  | probe a inp => exact ⟨fun _ => h.probe hstep.1 hstep.2, fun _ => trivial⟩
  | setRunning running =>
    obtain ⟨-, rfl⟩ := hstep
    obtain ⟨⟨base, hnum, hcount⟩, hnone⟩ := h
    exact ⟨fun _ => ⟨⟨base, ⟨hnum.primary, hnum.secondary, hnum.base_le⟩, hcount⟩, hnone⟩,
      fun _ => trivial⟩
  | changeMtu newMtu inp => exact h.changeMtu hstep.1 hstep.2

/-- **Indices of the transmit queues.** All along a run from no port probed, the live rings have
    distinct indices below the number of queues exactly if every change of the MTU that makes
    the queues of the primary port anew makes as many as there were. -/
theorem netif_queue_index_iff {cpus : Nat} {ops : List Op} (h : Run Step { cpus } ops c) :
    Always Step IndicesOk { cpus } ops ↔ Run (Guarded Step KeepsCount) { cpus } ops c :=
  always_iff_guarded (T := Step) (fun _ _ _ _ => step_unique) (fun _ => Inv.indicesOk)
    (fun _ _ _ hinv hstep => hinv.step hstep) h (inv_initial cpus)

/-- Both ports are probed in VMDq mode with `limit` pools, the interface is opened and its MTU
    lowered to `ETH_DATA_LEN`. -/
def mtuLowered (limit : Nat) : List Op :=
  let a : QueueAdapter := {
    vmdqEnabled := true, msixCapable := true, vmdqLimit := limit, rssLimit := 1
    maxQVectors := 64, maxMsixVectors := 64 }
  [.probe a {}, .probe a {}, .setRunning true, .changeMtu 1500 {}]

/-- Four pools have four queues for either MTU. -/
theorem netif_queue_index_fourPools :
    ∃ c, Run Step { cpus := 4 } (mtuLowered 4) c ∧ (c.adapter .secondary).numTxQueues = 4 ∧
      Always Step IndicesOk { cpus := 4 } (mtuLowered 4) := by
  obtain ⟨c, hexec, hcount⟩ := Option.map_eq_some_iff.mp
    (show (Run.exec (fun (c : QueueCard) op => if c.KeepsCount op then c.exec op else none)
      { cpus := 4 } (mtuLowered 4)).map (fun c => (c.adapter .secondary).numTxQueues) = some 4 by
        decide +kernel)
  have hguarded := (Run.exec_eq_some_iff (guarded_eq_some_iff exec_eq_some_iff)).mp hexec
  have hrun : Run Step { cpus := 4 } (mtuLowered 4) c := hguarded.mono fun _ _ _ hstep => hstep.2
  exact ⟨c, hrun, hcount, (netif_queue_index_iff hrun).mpr hguarded⟩

/-- Eight pools have four queues for a jumbo MTU and eight otherwise: ring 4 of the primary port
    gets the index ring 0 of the secondary one has. -/
theorem netif_queue_index_shared :
    ∃ c, Run Step { cpus := 4 } (mtuLowered 8) c ∧
      ¬Always Step IndicesOk { cpus := 4 } (mtuLowered 8) := by
  obtain ⟨c, hexec, hvalue⟩ := Option.map_eq_some_iff.mp
    (show (Run.exec exec { cpus := 4 } (mtuLowered 8)).map
      (fun c => ((c.adapter .primary).numTxQueues, (c.adapter .primary).txRing 4,
        (c.adapter .secondary).numTxQueues, (c.adapter .secondary).txRing 0)) =
      some (8, some ⟨4, 4⟩, 4, some ⟨0, 4⟩) by decide +kernel)
  have hrun := (Run.exec_eq_some_iff exec_eq_some_iff).mp hexec
  refine ⟨c, hrun, fun halways => ?_⟩
  simp only [Prod.mk.injEq] at hvalue
  obtain ⟨hpri, hring, hsec, hring'⟩ := hvalue
  have hok := halways _ c (List.prefix_refl _) hrun
  have hsame := hok.injective .primary .secondary 4 0 ⟨4, 4⟩ ⟨0, 4⟩ ⟨by omega, hring⟩
    ⟨by omega, hring'⟩ rfl
  cases hsame.1

end QueueCard

end VmkDrivers.Wfs
