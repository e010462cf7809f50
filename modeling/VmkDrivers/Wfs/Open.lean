/-
  VmkDrivers.Wfs.Open

  `ixgbe_open` and `ixgbe_close` over the two ports of a card
  (`ixgbe_main.c`), as far as they acquire and release the transmit and
  receive resources and the interrupts of the ports.

  `ixgbe_open` brings up the primary port completely before it tries the
  secondary one.  Its labels release a resource of both ports only from the
  one the error jumps to, so what the primary port already holds beyond that
  stays.  An open that fails on the secondary port after its queues were set
  up is the only one that is undone on both.
-/

import VmkDrivers.Lib.Acquire
import VmkDrivers.Lib.Transition
import VmkDrivers.Wfs.Defs

namespace VmkDrivers.Wfs

open VmkDrivers.Lib

/-! ## Resources of a port -/

structure RingMem where
  /-- `tx_buffer_info` or `rx_buffer_info`. -/
  bufferInfo : Bool := false
  desc : Bool := false
  /-- A pointer to memory still allocated was overwritten. -/
  lost : Bool := false
deriving DecidableEq, Repr

inductive RingAlloc where
  | done
  | noBufferInfo
  | noDesc
deriving DecidableEq, Repr

/-- The part of `struct ixgbe_adapter` that open and close work on. -/
structure AdapterRes where
  numTxQueues : Nat
  numRxQueues : Nat
  numQVectors : Nat
  /-- The vectors with a ring. -/
  usedVector : Nat → Bool
  msixEnabled : Bool
  /-- `fcoe->ddp_pool` is allocated. -/
  ddpPool : Bool
  txRing : Nat → RingMem := fun _ => {}
  rxRing : Nat → RingMem := fun _ => {}
  /-- `fcoe->extra_ddp_buffer` and its pools. -/
  ddp : Bool := false
  /-- Handlers registered for the entries of `msix_entries`. -/
  msixIrq : Nat → Bool := fun _ => false
  /-- The handler registered for `pdev->irq`. -/
  irq : Bool := false

structure PortInputs where
  /-- `__IXGBE_TESTING` is set. -/
  testing : Bool := false
  txAlloc : Nat → RingAlloc := fun _ => .done
  rxAlloc : Nat → RingAlloc := fun _ => .done
  ddpAlloc : Bool := true
  /-- `request_irq` for an entry of `msix_entries`. -/
  msixRequest : Nat → Bool := fun _ => true
  /-- `request_irq` for `pdev->irq`. -/
  irqRequest : Bool := true

/-- `ixgbe_setup_tx_resources` and `ixgbe_setup_rx_resources` of a ring. -/
def setupRing (alloc : Nat → RingAlloc) (i : Nat) (ring : RingMem) : RingMem × Bool :=
  match alloc i with
  | .done => ({ bufferInfo := true, desc := true
                lost := ring.lost || ring.bufferInfo || ring.desc }, true)
  | .noBufferInfo => ({ ring with bufferInfo := false, lost := ring.lost || ring.bufferInfo }, false)
  | .noDesc => ({ bufferInfo := false, desc := false
                  lost := ring.lost || ring.bufferInfo || ring.desc }, false)

/-- `ixgbe_free_tx_resources` and `ixgbe_free_rx_resources` of a ring. -/
def freeRing (ring : RingMem) : RingMem :=
  let ring := { ring with bufferInfo := false }
  if ring.desc then { ring with desc := false } else ring

/-- `request_irq` for an entry, which an entry without ring is not asked for. -/
def requestVector (used request : Nat → Bool) (i : Nat) (held : Bool) : Bool × Bool :=
  if used i then (held || request i, request i) else (held, true)

/-- `free_irq`. -/
def freeVector (_held : Bool) : Bool := false

namespace AdapterRes

def ixgbeSetupAllTxResources (inp : PortInputs) (a : AdapterRes) : AdapterRes × Bool :=
  let (txRing, ok) := acquireAll (setupRing inp.txAlloc) freeRing a.numTxQueues a.txRing
  ({ a with txRing }, ok)

/-- `ixgbe_setup_all_rx_resources`, with `ixgbe_setup_fcoe_ddp_resources` behind the rings. -/
def ixgbeSetupAllRxResources (inp : PortInputs) (a : AdapterRes) : AdapterRes × Bool :=
  match acquireAll (setupRing inp.rxAlloc) freeRing a.numRxQueues a.rxRing with
  | (rxRing, false) => ({ a with rxRing }, false)
  | (rxRing, true) =>
    if a.ddpPool = false then ({ a with rxRing }, true)
    else if inp.ddpAlloc then ({ a with rxRing, ddp := true }, true)
    else ({ a with rxRing := releaseAll freeRing a.numRxQueues rxRing }, false)

/-- The entries `ixgbe_request_msix_irqs` asks for: those with a ring and the last one. -/
def wantsVector (a : AdapterRes) (i : Nat) : Bool := a.usedVector i || i == a.numQVectors

/-- `ixgbe_request_irq`.  If `ixgbe_request_msix_irqs` fails the port goes without MSI-X. -/
def ixgbeRequestIrq (inp : PortInputs) (a : AdapterRes) : AdapterRes × Bool :=
  if a.msixEnabled then
    match acquireAll (requestVector a.wantsVector inp.msixRequest) freeVector (a.numQVectors + 1)
        a.msixIrq with
    | (msixIrq, true) => ({ a with msixIrq }, true)
    | (msixIrq, false) => ({ a with msixIrq, msixEnabled := false }, false)
  else ({ a with irq := a.irq || inp.irqRequest }, inp.irqRequest)

def ixgbeFreeIrq (a : AdapterRes) : AdapterRes :=
  if a.msixEnabled then
    { a with msixIrq := fun i => if i ≤ a.numQVectors ∧ a.wantsVector i then false else a.msixIrq i }
  else { a with irq := false }

def ixgbeFreeAllTxResources (a : AdapterRes) : AdapterRes :=
  { a with txRing := releaseAll freeRing a.numTxQueues a.txRing }

def ixgbeFreeAllRxResources (a : AdapterRes) : AdapterRes :=
  { a with
    ddp := if a.ddpPool then false else a.ddp
    rxRing := releaseAll freeRing a.numRxQueues a.rxRing }

end AdapterRes

/-! ## Open and close -/

/-- The card: `struct ixgbe_wfs_adapter` with its two adapters. -/
structure Card where
  state : AdapterState
  port : Port → AdapterRes

/-- What `ixgbe_open` takes from the outside.  Builds for vmklinux do not set the number of
    receive queues, so that `setRealNumRxQueues` never fails there. -/
structure OpenInputs where
  port : Port → PortInputs := fun _ => {}
  setRealNumRxQueues : Bool := true

open AdapterRes

namespace Card

def setPort (s : Card) (p : Port) (a : AdapterRes) : Card :=
  { s with port := Function.update s.port p a }

/-- Release something of the primary port, if `adapter` is the secondary one, and of
    `adapter`. -/
def freeOn (free : AdapterRes → AdapterRes) (adapter : Port) (s : Card) : Card :=
  let s := if adapter = .secondary then s.setPort .primary (free (s.port .primary)) else s
  s.setPort adapter (free (s.port adapter))

/-- `err_setup_rx`, and `err_setup_tx` behind it, which only resets the hardware. -/
def errSetupRx (adapter : Port) (s : Card) : Card :=
  s.freeOn ixgbeFreeAllTxResources adapter

/-- `err_req_irq` and the labels behind it. -/
def errReqIrq (adapter : Port) (s : Card) : Card :=
  (s.freeOn ixgbeFreeAllRxResources adapter).errSetupRx adapter

/-- `err_set_queues` and the labels behind it. -/
def errSetQueues (adapter : Port) (s : Card) : Card :=
  (s.freeOn ixgbeFreeIrq adapter).errReqIrq adapter

/-- The body of the loop of `ixgbe_open`: whether the loop goes on. -/
def openPort (inp : OpenInputs) (adapter : Port) (s : Card) : Card × Bool :=
  -- "disallow open during test"
  if (inp.port adapter).testing then (s, false)
  else
    match (s.port adapter).ixgbeSetupAllTxResources (inp.port adapter) with
    | (a, false) => (s.setPort adapter a, false)
    | (a, true) =>
      match a.ixgbeSetupAllRxResources (inp.port adapter) with
      | (a, false) => ((s.setPort adapter a).errSetupRx adapter, false)
      | (a, true) =>
        match a.ixgbeRequestIrq (inp.port adapter) with
        | (a, false) => ((s.setPort adapter a).errReqIrq adapter, false)
        | (a, true) =>
          if adapter = .secondary ∧ inp.setRealNumRxQueues = false then
            ((s.setPort adapter a).errSetQueues adapter, false)
          else (s.setPort adapter a, true)

def ixgbeOpen (inp : OpenInputs) (s : Card) : Card :=
  if s.state = .opened then s
  else
    match s.openPort inp .primary with
    | (s, false) => s
    | (s, true) =>
      match s.openPort inp .secondary with
      | (s, false) => s
      | (s, true) => { s with state := .opened }

/-- The body of the loop of `ixgbe_close`. -/
def closePort (adapter : Port) (s : Card) : Card :=
  s.setPort adapter
    (s.port adapter).ixgbeFreeIrq.ixgbeFreeAllTxResources.ixgbeFreeAllRxResources

def ixgbeClose (s : Card) : Card :=
  if s.state ≠ .opened then s
  else { (s.closePort .primary).closePort .secondary with state := .closed }

end Card

inductive OpenCall where
  | open (inp : OpenInputs)
  | close

def OpenCall.step (s : Card) : OpenCall → Card
  | .open inp => s.ixgbeOpen inp
  | .close => s.ixgbeClose

def OpenCallStep (s : Card) (op : OpenCall) (t : Card) : Prop := op.step s = t

/-! ## What a port holds -/

namespace RingMem

def full : RingMem := { bufferInfo := true, desc := true }

/-- The first `n` rings have their memory. -/
def firstOnes (n : Nat) (i : Nat) : RingMem := if i < n then full else {}

theorem eq_firstOnes_iff {n : Nat} {rings : Nat → RingMem} :
    rings = firstOnes n ↔ Acquired (fun r => r = {}) (fun _ r => r = full) n rings := by
  rw [funext_iff]
  refine forall_congr' fun i => ?_
  unfold firstOnes
  split <;> exact Iff.rfl

end RingMem

open RingMem

namespace AdapterRes

/-- The adapter with its transmit resources, its receive resources and its interrupts held
    or not, and nothing else. -/
def holding (a : AdapterRes) (tx rx irq : Bool) : AdapterRes :=
  { a with
    txRing := firstOnes (if tx then a.numTxQueues else 0)
    rxRing := firstOnes (if rx then a.numRxQueues else 0)
    ddp := rx && a.ddpPool
    msixIrq := fun i => irq && a.msixEnabled && (decide (i ≤ a.numQVectors) && a.wantsVector i)
    irq := irq && !a.msixEnabled }

def Holds (a : AdapterRes) (tx rx irq : Bool) : Prop := a = a.holding tx rx irq

variable (a : AdapterRes) (inp : PortInputs)

theorem holds_holding (tx rx irq : Bool) : (a.holding tx rx irq).Holds tx rx irq := rfl

def IrqUp (inp : PortInputs) (a : AdapterRes) : Prop :=
  if a.msixEnabled then ∀ i ≤ a.numQVectors, a.wantsVector i = true → inp.msixRequest i = true
  else inp.irqRequest = true

structure Up (inp : PortInputs) (a : AdapterRes) : Prop where
  testing : inp.testing = false
  tx : ∀ i < a.numTxQueues, inp.txAlloc i = .done
  rx : (∀ i < a.numRxQueues, inp.rxAlloc i = .done) ∧ (a.ddpPool = true → inp.ddpAlloc = true)
  irq : a.IrqUp inp

/-! ### The loops over the rings -/

variable {alloc : Nat → RingAlloc}

theorem setupRing_done {i : Nat} (h : alloc i = .done) : setupRing alloc i {} = (.full, true) := by
  rw [setupRing, h]
  rfl

theorem setupRing_failed {i : Nat} (h : alloc i ≠ .done) : setupRing alloc i {} = ({}, false) := by
  unfold setupRing
  split
  · next hdone => exact absurd hdone h
  · rfl
  · rfl

theorem releaseRings (n : Nat) (b : Bool) :
    releaseAll freeRing n (firstOnes (if b then n else 0)) = firstOnes 0 := by
  funext i
  simp only [releaseAll, firstOnes, Nat.not_lt_zero, if_false]
  cases b
  · split <;> rfl
  · simp only [if_true]
    split
    · rfl
    · rfl

theorem setupRings (alloc : Nat → RingAlloc) (n : Nat) :
    (∀ i < n, alloc i = .done) ∧
        acquireAll (setupRing alloc) freeRing n (firstOnes 0) = (.firstOnes n, true) ∨
      ¬(∀ i < n, alloc i = .done) ∧
        acquireAll (setupRing alloc) freeRing n (firstOnes 0) = (.firstOnes 0, false) := by
  generalize hloop : acquireAll (setupRing alloc) freeRing n (firstOnes 0) = loop
  have hspec : (∀ i < n, alloc i = .done) ∧ loop.2 = true ∧
        Acquired (fun r => r = {}) (fun _ r => r = .full) n loop.1 ∨
      ¬(∀ i < n, alloc i = .done) ∧ loop.2 = false ∧ ∀ i, loop.1 i = {} := by
    subst hloop
    refine acquireAll_spec (fun r : RingMem => r = {}) (fun _ r => r = full) _ ?_ ?_ ?_
      (fun i => rfl) n
    · rintro i r rfl h
      rw [setupRing_done h]
      exact ⟨rfl, rfl⟩
    · rintro i r rfl h
      rw [setupRing_failed h]
      exact ⟨rfl, rfl⟩
    · rintro i r rfl
      rfl
  obtain ⟨hall, hdone, hacq⟩ | ⟨hsome, hdone, hnone⟩ := hspec
  · exact .inl ⟨hall, Prod.ext (eq_firstOnes_iff.mpr hacq) hdone⟩
  · refine .inr ⟨hsome, Prod.ext (funext fun i => ?_) hdone⟩
    rw [hnone i]
    rfl

/-! ### The steps of open and close -/

theorem setupTx_spec (a : AdapterRes) :
    (∀ i < a.numTxQueues, inp.txAlloc i = .done) ∧
        (a.holding false false false).ixgbeSetupAllTxResources inp =
          (a.holding true false false, true) ∨
      ¬(∀ i < a.numTxQueues, inp.txAlloc i = .done) ∧
        (a.holding false false false).ixgbeSetupAllTxResources inp =
          (a.holding false false false, false) := by
  obtain ⟨hall, hrings⟩ | ⟨hsome, hrings⟩ := setupRings inp.txAlloc a.numTxQueues
  · refine .inl ⟨hall, ?_⟩
    have hloop : acquireAll (setupRing inp.txAlloc) freeRing (a.holding false false false).numTxQueues
        (a.holding false false false).txRing = (.firstOnes a.numTxQueues, true) := hrings
    rw [ixgbeSetupAllTxResources, hloop]
    rfl
  · refine .inr ⟨hsome, ?_⟩
    have hloop : acquireAll (setupRing inp.txAlloc) freeRing (a.holding false false false).numTxQueues
        (a.holding false false false).txRing = (.firstOnes 0, false) := hrings
    rw [ixgbeSetupAllTxResources, hloop]
    rfl

theorem setupRx_spec (a : AdapterRes) :
    ((∀ i < a.numRxQueues, inp.rxAlloc i = .done) ∧ (a.ddpPool = true → inp.ddpAlloc = true)) ∧
        (a.holding true false false).ixgbeSetupAllRxResources inp =
          (a.holding true true false, true) ∨
      ¬((∀ i < a.numRxQueues, inp.rxAlloc i = .done) ∧ (a.ddpPool = true → inp.ddpAlloc = true)) ∧
        (a.holding true false false).ixgbeSetupAllRxResources inp =
          (a.holding true false false, false) := by
  obtain ⟨hall, hrings⟩ | ⟨hsome, hrings⟩ := setupRings inp.rxAlloc a.numRxQueues
  · have hloop : acquireAll (setupRing inp.rxAlloc) freeRing (a.holding true false false).numRxQueues
        (a.holding true false false).rxRing = (.firstOnes a.numRxQueues, true) := hrings
    rw [ixgbeSetupAllRxResources, hloop]
    dsimp only
    cases hpool : a.ddpPool with
    | false =>
      refine .inl ⟨⟨hall, fun h => nomatch h⟩, ?_⟩
      rw [if_pos (show (a.holding true false false).ddpPool = false from hpool)]
      simp [holding, hpool]
    | true =>
      rw [if_neg (show ¬(a.holding true false false).ddpPool = false by simp [holding, hpool])]
      cases hddp : inp.ddpAlloc with
      | true =>
        refine .inl ⟨⟨hall, fun _ => rfl⟩, ?_⟩
        simp [holding, hpool]
      | false =>
        refine .inr ⟨fun h => absurd (h.2 rfl) (by decide), ?_⟩
        have hrewind : releaseAll freeRing a.numRxQueues (.firstOnes a.numRxQueues) =
          firstOnes 0 := releaseRings a.numRxQueues true
        simp [holding, hrewind]
  · refine .inr ⟨fun h => hsome h.1, ?_⟩
    have hloop : acquireAll (setupRing inp.rxAlloc) freeRing (a.holding true false false).numRxQueues
        (a.holding true false false).rxRing = (.firstOnes 0, false) := hrings
    rw [ixgbeSetupAllRxResources, hloop]
    rfl

theorem requestVectors (wants request : Nat → Bool) (n : Nat) :
    (∀ i ≤ n, wants i = true → request i = true) ∧
        acquireAll (requestVector wants request) freeVector (n + 1) (fun _ => false) =
          (fun i => decide (i ≤ n) && wants i, true) ∨
      ¬(∀ i ≤ n, wants i = true → request i = true) ∧
        acquireAll (requestVector wants request) freeVector (n + 1) (fun _ => false) =
          (fun _ => false, false) := by
  generalize hloop : acquireAll (requestVector wants request) freeVector (n + 1) (fun _ => false) =
    loop
  have hspec : (∀ i < n + 1, wants i = true → request i = true) ∧ loop.2 = true ∧
        Acquired (fun r => r = false) (fun i r => r = wants i) (n + 1) loop.1 ∨
      ¬(∀ i < n + 1, wants i = true → request i = true) ∧ loop.2 = false ∧
        ∀ i, loop.1 i = false := by
    subst hloop
    refine acquireAll_spec (fun r => r = false) (fun i r => r = wants i)
      (fun i => wants i = true → request i = true) ?_ ?_ (fun _ _ _ => rfl) (fun i => rfl) (n + 1)
    · rintro i r rfl hok
      unfold requestVector
      cases hwants : wants i with
      | false => exact ⟨rfl, rfl⟩
      | true => simp [hok hwants]
    · rintro i r rfl hok
      obtain ⟨hwants, hrequest⟩ : wants i = true ∧ request i = false := by simpa using hok
      simp [requestVector, hwants, hrequest]
  simp only [Nat.lt_succ_iff] at hspec
  obtain ⟨hall, hdone, hacq⟩ | ⟨hsome, hdone, hnone⟩ := hspec
  · refine .inl ⟨hall, Prod.ext (funext fun i => ?_) hdone⟩
    have hi := hacq i
    dsimp only
    split at hi
    · next hlt => rw [hi, decide_eq_true (Nat.lt_succ_iff.mp hlt), Bool.true_and]
    · next hge => rw [hi, decide_eq_false (fun h => hge (Nat.lt_succ_of_le h)), Bool.false_and]
  · exact .inr ⟨hsome, Prod.ext (funext hnone) hdone⟩

theorem requestIrq_spec (a : AdapterRes) :
    a.IrqUp inp ∧ (a.holding true true false).ixgbeRequestIrq inp = (a.holding true true true, true) ∨
      ¬a.IrqUp inp ∧ (a.holding true true false).ixgbeRequestIrq inp =
        ({ a with msixEnabled := false }.holding true true false, false) := by
  unfold IrqUp ixgbeRequestIrq
  cases hmsix : a.msixEnabled with
  | true =>
    rw [if_pos rfl, if_pos (show (a.holding true true false).msixEnabled = true from hmsix)]
    obtain ⟨hall, hvectors⟩ | ⟨hsome, hvectors⟩ :=
      requestVectors a.wantsVector inp.msixRequest a.numQVectors
    · refine .inl ⟨hall, ?_⟩
      have hloop : acquireAll (requestVector (a.holding true true false).wantsVector
          inp.msixRequest) freeVector ((a.holding true true false).numQVectors + 1)
          (a.holding true true false).msixIrq = _ := hvectors
      rw [hloop]
      simp [holding, hmsix]
    · refine .inr ⟨hsome, ?_⟩
      have hloop : acquireAll (requestVector (a.holding true true false).wantsVector
          inp.msixRequest) freeVector ((a.holding true true false).numQVectors + 1)
          (a.holding true true false).msixIrq = _ := hvectors
      rw [hloop]
      simp [holding]
  | false =>
    rw [if_neg (by decide), if_neg (show ¬(a.holding true true false).msixEnabled = true by
      simp [holding, hmsix])]
    cases hrequest : inp.irqRequest with
    | true => exact .inl ⟨rfl, by simp [holding, hmsix]⟩
    | false => exact .inr ⟨by decide, by simp [holding, hmsix]⟩

/-! ### Release -/

theorem freeTx_holding (tx rx irq : Bool) :
    (a.holding tx rx irq).ixgbeFreeAllTxResources = a.holding false rx irq := by
  have hrings : releaseAll freeRing (a.holding tx rx irq).numTxQueues (a.holding tx rx irq).txRing =
      firstOnes 0 := releaseRings a.numTxQueues tx
  rw [ixgbeFreeAllTxResources, hrings]
  rfl

theorem freeRx_holding (tx rx irq : Bool) :
    (a.holding tx rx irq).ixgbeFreeAllRxResources = a.holding tx false irq := by
  have hrings : releaseAll freeRing (a.holding tx rx irq).numRxQueues (a.holding tx rx irq).rxRing =
      firstOnes 0 := releaseRings a.numRxQueues rx
  rw [ixgbeFreeAllRxResources, hrings]
  cases hpool : a.ddpPool <;> simp [holding, hpool]

theorem freeIrq_holding (tx rx irq : Bool) :
    (a.holding tx rx irq).ixgbeFreeIrq = a.holding tx rx false := by
  unfold ixgbeFreeIrq
  cases hmsix : a.msixEnabled with
  | true =>
    rw [if_pos (show (a.holding tx rx irq).msixEnabled = true from hmsix)]
    have hnone : ∀ i, (if i ≤ a.numQVectors ∧ a.wantsVector i = true then false
        else (a.holding tx rx irq).msixIrq i) = false := by
      intro i
      split
      · rfl
      · next hunwanted =>
        have hcut : (decide (i ≤ a.numQVectors) && a.wantsVector i) = false := by
          simpa using hunwanted
        simp only [holding, hcut, Bool.and_false]
    simp only [show (a.holding tx rx irq).numQVectors = a.numQVectors from rfl,
      show (a.holding tx rx irq).wantsVector = a.wantsVector from rfl, hnone]
    simp [holding, hmsix]
  | false =>
    rw [if_neg (show ¬(a.holding tx rx irq).msixEnabled = true by simp [holding, hmsix])]
    simp [holding, hmsix]

theorem not_holds_of_irq (tx rx : Bool) : ¬(a.holding tx rx true).Holds false false false := by
  intro h
  cases hmsix : a.msixEnabled with
  | true =>
    have hother := congrFun (congrArg msixIrq h) a.numQVectors
    simp [holding, hmsix, wantsVector] at hother
  | false =>
    have hline := congrArg irq h
    simp [holding, hmsix] at hline

end AdapterRes

/-! ## One call -/

namespace Card

/-- **All or nothing**: each port holds all its resources if the card is open, and none
    otherwise. -/
def AllOrNothing (s : Card) : Prop :=
  ∀ p, (s.port p).Holds (s.state = .opened) (s.state = .opened) (s.state = .opened)

def Strands (s : Card) : OpenCall → Prop
  | .open inp => s.state ≠ .opened ∧ (s.port .primary).Up (inp.port .primary) ∧
      ¬(s.port .secondary).Up (inp.port .secondary)
  | .close => False

variable (s : Card)

@[simp] theorem setPort_state (p : Port) (a : AdapterRes) : (s.setPort p a).state = s.state := rfl

@[simp] theorem setPort_port (p : Port) (a : AdapterRes) :
    (s.setPort p a).port p = a := Function.update_self ..

@[simp] theorem setPort_port_other (p : Port) (a : AdapterRes) :
    (s.setPort p a).port p.other = s.port p.other := Function.update_of_ne p.other_ne ..

section FreeOn

variable (free : AdapterRes → AdapterRes) (adapter : Port) (s : Card)

@[simp] theorem freeOn_state : (s.freeOn free adapter).state = s.state := by
  cases adapter <;> rfl

@[simp] theorem freeOn_port_self : (s.freeOn free adapter).port adapter = free (s.port adapter) := by
  cases adapter <;> simp [freeOn, setPort]

@[simp] theorem freeOn_primary_port_secondary :
    (s.freeOn free .primary).port .secondary = s.port .secondary := by
  simp [freeOn, setPort]

@[simp] theorem freeOn_secondary_port_primary :
    (s.freeOn free .secondary).port .primary = free (s.port .primary) := by
  simp [freeOn, setPort]

end FreeOn

theorem setPort_port_ne (s : Card) {p q : Port} (h : q ≠ p) (a : AdapterRes) :
    (s.setPort p a).port q = s.port q := Function.update_of_ne h ..

variable (inp : OpenInputs)

theorem openPort_cases (s : Card) (p : Port) (hnone : (s.port p).Holds false false false) :
    (s.port p).Up (inp.port p) ∧ s.openPort inp p =
        (if p = .secondary ∧ inp.setRealNumRxQueues = false then
          ((s.setPort p ((s.port p).holding true true true)).errSetQueues p, false)
        else (s.setPort p ((s.port p).holding true true true), true)) ∨
      ¬(s.port p).Up (inp.port p) ∧
        (s.openPort inp p = (s, false) ∨ s.openPort inp p =
            ((s.setPort p ((s.port p).holding true false false)).errSetupRx p, false) ∨
          ∃ a : AdapterRes, s.openPort inp p =
            ((s.setPort p (a.holding true true false)).errReqIrq p, false)) := by
  unfold openPort
  generalize hport : inp.port p = pinp
  generalize hadapter : s.port p = a at hnone
  by_cases htest : pinp.testing = true
  · refine .inr ⟨fun h => absurd h.testing (by simp [htest]), .inl ?_⟩
    rw [if_pos htest]
  rw [if_neg htest, show a = a.holding false false false from hnone]
  obtain ⟨htx, hset⟩ | ⟨htx, hset⟩ := a.setupTx_spec pinp
  · rw [hset]
    dsimp only
    obtain ⟨hrx, hset⟩ | ⟨hrx, hset⟩ := a.setupRx_spec pinp
    · rw [hset]
      dsimp only
      obtain ⟨hirq, hset⟩ | ⟨hirq, hset⟩ := a.requestIrq_spec pinp
      · rw [hset]
        exact .inl ⟨⟨by simpa using htest, htx, hrx, hirq⟩, rfl⟩
      · rw [hset]
        exact .inr ⟨fun h => hirq h.irq, .inr (.inr ⟨_, rfl⟩)⟩
    · rw [hset]
      exact .inr ⟨fun h => hrx h.rx, .inr (.inl rfl)⟩
  · rw [hset]
    refine .inr ⟨fun h => htx h.tx, .inl ?_⟩
    have hsame : s.setPort p (a.holding false false false) = s := by
      rw [← show a = a.holding false false false from hnone, ← hadapter]
      simp [setPort]
    exact congrArg (·, false) hsame

theorem openPort_primary (s : Card) (hnone : (s.port .primary).Holds false false false) :
    (s.port .primary).Up (inp.port .primary) ∧ s.openPort inp .primary =
        (s.setPort .primary ((s.port .primary).holding true true true), true) ∨
      ¬(s.port .primary).Up (inp.port .primary) ∧ ∃ t : Card, s.openPort inp .primary = (t, false) ∧
        t.state = s.state ∧ (t.port .primary).Holds false false false ∧
        t.port .secondary = s.port .secondary := by
  obtain ⟨hup, h⟩ | ⟨hup, h | h | ⟨a, h⟩⟩ := s.openPort_cases inp .primary hnone
  · exact .inl ⟨hup, by rw [h, if_neg (by simp)]⟩
  · exact .inr ⟨hup, s, h, rfl, hnone, rfl⟩
  · refine .inr ⟨hup, _, h, by simp [errSetupRx], ?_, ?_⟩
    · simp only [errSetupRx, freeOn_port_self, setPort_port, freeTx_holding]
      exact holds_holding ..
    · simp [errSetupRx, setPort_port_ne]
  · refine .inr ⟨hup, _, h, by simp [errReqIrq, errSetupRx], ?_, ?_⟩
    · simp only [errReqIrq, errSetupRx, freeOn_port_self, setPort_port, freeTx_holding,
        freeRx_holding]
      exact holds_holding ..
    · simp [errReqIrq, errSetupRx, setPort_port_ne]

theorem openPort_secondary (s : Card) (a : AdapterRes)
    (hpri : s.port .primary = a.holding true true true)
    (hnone : (s.port .secondary).Holds false false false) :
    (s.port .secondary).Up (inp.port .secondary) ∧
        (s.openPort inp .secondary =
            (s.setPort .secondary ((s.port .secondary).holding true true true), true) ∨
          ∃ t : Card, s.openPort inp .secondary = (t, false) ∧ t.state = s.state ∧
            ∀ p, (t.port p).Holds false false false) ∨
      ¬(s.port .secondary).Up (inp.port .secondary) ∧ ∃ t : Card,
        s.openPort inp .secondary = (t, false) ∧ t.state = s.state ∧
        ∃ tx rx, t.port .primary = a.holding tx rx true := by
  obtain ⟨hup, h⟩ | ⟨hup, h | h | ⟨b, h⟩⟩ := s.openPort_cases inp .secondary hnone
  · refine .inl ⟨hup, ?_⟩
    split at h
    · refine .inr ⟨_, h, by simp [errSetQueues, errReqIrq, errSetupRx], Port.forall_iff.mpr ⟨?_, ?_⟩⟩
      · simp only [errSetQueues, errReqIrq, errSetupRx, freeOn_secondary_port_primary,
          setPort_port_ne _ (show Port.primary ≠ .secondary by decide), hpri,
          freeIrq_holding, freeRx_holding, freeTx_holding]
        exact holds_holding ..
      · simp only [errSetQueues, errReqIrq, errSetupRx, freeOn_port_self, setPort_port,
          freeIrq_holding, freeRx_holding, freeTx_holding]
        exact holds_holding ..
    · exact .inl h
  · exact .inr ⟨hup, s, h, rfl, true, true, hpri⟩
  · refine .inr ⟨hup, _, h, by simp [errSetupRx], false, true, ?_⟩
    simp only [errSetupRx, freeOn_secondary_port_primary,
      setPort_port_ne _ (show Port.primary ≠ .secondary by decide), hpri, freeTx_holding]
  · refine .inr ⟨hup, _, h, by simp [errReqIrq, errSetupRx], false, false, ?_⟩
    simp only [errReqIrq, errSetupRx, freeOn_secondary_port_primary,
      setPort_port_ne _ (show Port.primary ≠ .secondary by decide), hpri,
      freeRx_holding, freeTx_holding]

variable {s : Card}

theorem allOrNothing_iff_of_opened (h : s.state = .opened) :
    s.AllOrNothing ↔ ∀ p, (s.port p).Holds true true true := by
  simp only [AllOrNothing, h, decide_true]

theorem allOrNothing_iff_of_not_opened (h : s.state ≠ .opened) :
    s.AllOrNothing ↔ ∀ p, (s.port p).Holds false false false := by
  simp only [AllOrNothing, h, decide_false]

theorem allOrNothing_close (h : s.AllOrNothing) : s.ixgbeClose.AllOrNothing := by
  unfold ixgbeClose
  split
  · exact h
  · next hopen =>
    have hall := (allOrNothing_iff_of_opened (not_not.mp hopen)).mp h
    refine (allOrNothing_iff_of_not_opened (by simp)).mpr fun p => ?_
    have hfreed : ∀ a : AdapterRes, a.Holds true true true →
        a.ixgbeFreeIrq.ixgbeFreeAllTxResources.ixgbeFreeAllRxResources =
          a.holding false false false := by
      intro a ha
      rw [show a.ixgbeFreeIrq = (a.holding true true true).ixgbeFreeIrq from
        congrArg ixgbeFreeIrq ha, freeIrq_holding, freeTx_holding,
        freeRx_holding]
    cases p
    · have hpri := hfreed _ (hall .primary)
      simp only [closePort, setPort_port_ne _ (show Port.primary ≠ .secondary by decide),
        setPort_port, hpri]
      exact holds_holding ..
    · have hsec := hfreed _ (hall .secondary)
      simp only [closePort, setPort_port_ne _ (show Port.secondary ≠ .primary by decide),
        setPort_port, hsec]
      exact holds_holding ..

theorem allOrNothing_open (h : s.AllOrNothing) (inp : OpenInputs) :
    (s.ixgbeOpen inp).AllOrNothing ↔ ¬s.Strands (.open inp) := by
  unfold ixgbeOpen Strands
  by_cases hopen : s.state = .opened
  · rw [if_pos hopen]
    exact iff_of_true h fun hstrands => hstrands.1 hopen
  rw [if_neg hopen]
  have hnone := (allOrNothing_iff_of_not_opened hopen).mp h
  obtain ⟨hpri, hstep⟩ | ⟨hpri, t, hstep, hstate, hport, hother⟩ :=
    s.openPort_primary inp (hnone .primary)
  · -- the primary port is up
    rw [hstep]
    dsimp only
    set s' := s.setPort .primary ((s.port .primary).holding true true true) with hs'
    have hport : s'.port .primary = (s.port .primary).holding true true true := setPort_port ..
    have hsecondary : s'.port .secondary = s.port .secondary := setPort_port_ne _ (by decide) _
    have hnone' : (s'.port .secondary).Holds false false false := hsecondary ▸ hnone .secondary
    obtain ⟨hsec, hstep' | ⟨t, hstep', hstate, hall⟩⟩ | ⟨hsec, t, hstep', hstate, tx, rx, hleft⟩ :=
      s'.openPort_secondary inp _ hport hnone'
    · -- both are
      rw [hstep']
      refine iff_of_true ?_ fun hstrands => hstrands.2.2 (hsecondary ▸ hsec)
      have hboth : ∀ p, ((s'.setPort .secondary
          ((s'.port .secondary).holding true true true)).port p).Holds true true true := by
        refine Port.forall_iff.mpr ⟨?_, ?_⟩
        · rw [setPort_port_ne _ (by decide), hport]
          exact holds_holding ..
        · rw [setPort_port]
          exact holds_holding ..
      exact (allOrNothing_iff_of_opened rfl).mpr hboth
    · -- the queue counts are refused, which undoes both
      rw [hstep']
      refine iff_of_true ?_ fun hstrands => hstrands.2.2 (hsecondary ▸ hsec)
      exact (allOrNothing_iff_of_not_opened (by rwa [hstate])).mpr hall
    · -- the primary port keeps its interrupts at least
      rw [hstep']
      refine iff_of_false (fun hlaw => ?_) (not_not.mpr ⟨hopen, hpri, hsecondary ▸ hsec⟩)
      have hclosed := (allOrNothing_iff_of_not_opened (by rwa [hstate])).mp hlaw .primary
      rw [hleft] at hclosed
      exact not_holds_of_irq _ _ _ hclosed
  · rw [hstep]
    refine iff_of_true ?_ fun hstrands => hpri hstrands.2.1
    refine (allOrNothing_iff_of_not_opened (by rwa [hstate])).mpr (Port.forall_iff.mpr ⟨hport, ?_⟩)
    rw [hother]
    exact hnone .secondary

theorem allOrNothing_step (h : s.AllOrNothing) (op : OpenCall) :
    (op.step s).AllOrNothing ↔ ¬s.Strands op := by
  cases op with
  | «open» inp => exact allOrNothing_open h inp
  | close => exact iff_of_true (allOrNothing_close h) not_false

/-! ## All calls -/

def probed (port : Port → AdapterRes) : Card :=
  { state := .initialized, port := fun p => (port p).holding false false false }

theorem allOrNothing_probed (port : Port → AdapterRes) : (probed port).AllOrNothing :=
  (allOrNothing_iff_of_not_opened (by simp [probed])).mpr fun _ => holds_holding ..

/-- **Open is all or nothing** along a sequence of calls exactly if none of its opens brings
    the primary port up and fails to bring up the secondary one. -/
theorem open_allOrNothing_iff (port : Port → AdapterRes) (calls : List OpenCall) :
    Always OpenCallStep AllOrNothing (probed port) calls ↔
      ∃ t, Run (Guarded OpenCallStep fun s op => ¬s.Strands op) (probed port) calls t := by
  have h := allOrNothing_probed port
  generalize probed port = s at h
  induction calls generalizing s with
  | nil => exact iff_of_true (always_nil.mpr h) ⟨s, .nil s⟩
  | cons op calls ih =>
    have hdet : ∀ s l t t', OpenCallStep s l t → OpenCallStep s l t' → t = t' :=
      fun _ _ _ _ h₁ h₂ => h₁.symm.trans h₂
    rw [always_cons hdet (rfl : OpenCallStep s op (op.step s))]
    constructor
    · rintro ⟨-, hrest⟩
      have hnext := hrest [] _ List.nil_prefix (.nil _)
      obtain ⟨t, ht⟩ := (ih _ hnext).mp hrest
      exact ⟨t, .cons ⟨(allOrNothing_step h op).mp hnext, rfl⟩ ht⟩
    · rintro ⟨t, ht⟩
      cases ht with
      | cons hfirst hrest =>
        obtain ⟨hkeep, rfl⟩ := hfirst
        have hnext := (allOrNothing_step h op).mpr hkeep
        exact ⟨h, (ih _ hnext).mpr ⟨t, hrest⟩⟩

def onePort : AdapterRes :=
  { numTxQueues := 1, numRxQueues := 1, numQVectors := 1, usedVector := fun i => i == 0
    msixEnabled := true, ddpPool := false }

def noSecondaryRing : OpenInputs :=
  { port := fun p => { txAlloc := fun _ => if p = .secondary then .noBufferInfo else .done } }

/-- After that open the primary port still has its rings and interrupts. -/
theorem open_strands_primary :
    ¬Always OpenCallStep AllOrNothing (probed fun _ => onePort) [.open noSecondaryRing] := by
  intro h
  have hafter := h [.open noSecondaryRing] _ List.prefix_rfl (.single rfl)
  have hirq := congrArg (fun a => a.msixIrq 0) (hafter .primary)
  exact absurd hirq (by decide)

end Card

end VmkDrivers.Wfs
