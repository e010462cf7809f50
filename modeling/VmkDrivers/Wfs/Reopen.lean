/-
  VmkDrivers.Wfs.Reopen

  What open, close and a change of the MTU acquire and release: every
  interrupt, ring and vector is to be requested while it is free only, and
  freed while it is held only.

  A change of the MTU across `ETH_DATA_LEN` closes both ports and then frees
  the interrupts of the primary one again.  The pairs are kept exactly if no
  MTU crosses that bound while the interface runs (`pairs_kept_iff`).

  All allocations and requests succeed, so that the outcome of an open is the
  one of `Card.ixgbeOpen` with nothing failing.  A vector is named by the
  address `kzalloc` returns for it, and a ring by the vector it is part of.
-/

import VmkDrivers.Wfs.Open
import VmkDrivers.Wfs.TxQueues

namespace VmkDrivers.Wfs

open VmkDrivers.Lib AdapterRes Card

/-! ## The card -/

inductive Resource where
  | irq
  | txRing
  | rxRing
  | qVector
deriving DecidableEq, Repr

inductive PairFault where
  /-- Requested while it is held. -/
  | requested (r : Resource)
  /-- Freed while it is not. -/
  | freed (r : Resource)
  /-- A vector, or a ring of one, that is not there. -/
  | dereferenced
deriving DecidableEq, Repr

structure PortVectors where
  qVector : Nat → Option Nat := fun _ => none
  /-- The vectors with the rings `adapter->tx_ring` points to. -/
  txVector : Nat → Option Nat := fun _ => none
  rxVector : Nat → Option Nat := fun _ => none
  down : Bool := false

/-- What `ixgbe_init_interrupt_scheme` makes: the numbers of queues and vectors, and the vector
    that each queue has its ring in. -/
structure RingPlan where
  numTxQueues : Nat
  numRxQueues : Nat
  numQVectors : Nat
  msixEnabled : Bool
  txVector : Nat → Option (Fin numQVectors)
  rxVector : Nat → Option (Fin numQVectors)

def RingPlan.usedVector (plan : RingPlan) (v : Nat) : Bool :=
  (List.range plan.numTxQueues).any (fun i => (plan.txVector i).any (·.val == v)) ||
    (List.range plan.numRxQueues).any fun i => (plan.rxVector i).any (·.val == v)

structure PairCard where
  card : Card
  mtu : Int32 := wfsDefaultMtu
  running : Bool := false
  vectors : Port → PortVectors := fun _ => {}
  /-- The addresses from here on are free. -/
  next : Nat := 0

def ensure (cond : Prop) [Decidable cond] (f : PairFault) : Except PairFault Unit :=
  if cond then .ok () else .error f

namespace AdapterRes

/-- All interrupts that are requested for the port are held, or none of them is. -/
def irqsAre (a : AdapterRes) (held : Bool) : Prop :=
  if a.msixEnabled then ∀ v ∈ List.range (a.numQVectors + 1), a.wantsVector v = true →
    a.msixIrq v = held
  else a.irq = held

instance (a : AdapterRes) (held : Bool) : Decidable (a.irqsAre held) :=
  inferInstanceAs (Decidable (if a.msixEnabled = true then
    ∀ v ∈ List.range (a.numQVectors + 1), a.wantsVector v = true → a.msixIrq v = held
    else a.irq = held))

def ringsFree (n : Nat) (ring : Nat → RingMem) : Prop := ∀ i ∈ List.range n, ring i = {}

instance (n : Nat) (ring : Nat → RingMem) : Decidable (ringsFree n ring) :=
  inferInstanceAs (Decidable (∀ i ∈ List.range n, ring i = {}))

end AdapterRes

namespace PairCard

def setRes (s : PairCard) (p : Port) (a : AdapterRes) : PairCard :=
  { s with card := s.card.setPort p a }

def setVectors (s : PairCard) (p : Port) (v : PortVectors) : PairCard :=
  { s with vectors := Function.update s.vectors p v }

def setDown (s : PairCard) (p : Port) (down : Bool) : PairCard :=
  s.setVectors p { s.vectors p with down }

/-! ## Pointers -/

def liveVectors (s : PairCard) (p : Port) : List Nat :=
  (List.range (s.card.port p).numQVectors).filterMap (s.vectors p).qVector

def ringLive (s : PairCard) (p : Port) (ring : Option Nat) : Bool :=
  ring.any (s.liveVectors p).contains

def VectorsThere (s : PairCard) (p : Port) : Prop :=
  ∀ v ∈ List.range (s.card.port p).numQVectors, ((s.vectors p).qVector v).isSome

instance (s : PairCard) (p : Port) : Decidable (s.VectorsThere p) :=
  inferInstanceAs (Decidable (∀ v ∈ List.range _, _))

def TxThere (s : PairCard) (p : Port) : Prop :=
  ∀ i ∈ List.range (s.card.port p).numTxQueues, s.ringLive p ((s.vectors p).txVector i)

instance (s : PairCard) (p : Port) : Decidable (s.TxThere p) :=
  inferInstanceAs (Decidable (∀ i ∈ List.range _, _))

def RxThere (s : PairCard) (p : Port) : Prop :=
  ∀ i ∈ List.range (s.card.port p).numRxQueues, s.ringLive p ((s.vectors p).rxVector i)

instance (s : PairCard) (p : Port) : Decidable (s.RxThere p) :=
  inferInstanceAs (Decidable (∀ i ∈ List.range _, _))

/-! ## Down and up -/

/-- `ixgbe_down`, which reads the rings and, in `ixgbe_napi_disable_all`, the vectors. -/
def ixgbeDown (s : PairCard) (p : Port) : Except PairFault PairCard :=
  if (s.vectors p).down then .ok s
  else do
    ensure (s.RxThere p) .dereferenced
    ensure (s.VectorsThere p) .dereferenced
    ensure (s.TxThere p) .dereferenced
    return s.setDown p true

/-- `ixgbe_configure`, or `ixgbe_up_complete` with `ixgbe_napi_enable_all`, as to pointers. -/
def ixgbeConfigure (s : PairCard) (p : Port) : Except PairFault Unit := do
  ensure (s.TxThere p) .dereferenced
  ensure (s.RxThere p) .dereferenced
  ensure (s.VectorsThere p) .dereferenced

def ixgbeUp (s : PairCard) (p : Port) : Except PairFault PairCard := do
  s.ixgbeConfigure p
  return s.setDown p false

def ixgbeReinitLocked (s : PairCard) (p : Port) : Except PairFault PairCard := do
  let s ← s.ixgbeDown p
  s.ixgbeUp p

/-! ## Interrupts and rings -/

/-- `ixgbe_free_irq`, which reads the vectors if there is one interrupt for each. -/
def ixgbeFreeIrq (s : PairCard) (p : Port) : Except PairFault PairCard := do
  ensure ((s.card.port p).msixEnabled = true → s.VectorsThere p) .dereferenced
  ensure ((s.card.port p).irqsAre true) (.freed .irq)
  return s.setRes p (s.card.port p).ixgbeFreeIrq

/-- `ixgbe_free_all_tx_resources`.  A ring without memory is not freed: "if not set, then don't
    free". -/
def ixgbeFreeAllTxResources (s : PairCard) (p : Port) : Except PairFault PairCard := do
  ensure (s.TxThere p) .dereferenced
  return s.setRes p (s.card.port p).ixgbeFreeAllTxResources

def ixgbeFreeAllRxResources (s : PairCard) (p : Port) : Except PairFault PairCard := do
  ensure (s.RxThere p) .dereferenced
  return s.setRes p (s.card.port p).ixgbeFreeAllRxResources

/-- The body of the loop of `ixgbe_open`. -/
def openPort (s : PairCard) (p : Port) : Except PairFault PairCard := do
  let a := s.card.port p
  ensure (s.TxThere p) .dereferenced
  ensure (ringsFree a.numTxQueues a.txRing) (.requested .txRing)
  ensure (s.RxThere p) .dereferenced
  ensure (ringsFree a.numRxQueues a.rxRing) (.requested .rxRing)
  s.ixgbeConfigure p
  ensure (a.irqsAre false) (.requested .irq)
  return { s with card := (s.card.openPort {} p).1 }.setDown p false

def ixgbeOpen (s : PairCard) : Except PairFault PairCard :=
  if s.card.state = .opened then .ok s
  else do
    let s ← s.openPort .primary
    let s ← s.openPort .secondary
    return { s with card := { s.card with state := .opened } }

/-- The body of the loop of `ixgbe_close`. -/
def closePort (s : PairCard) (p : Port) : Except PairFault PairCard := do
  let s ← s.ixgbeDown p
  let s ← s.ixgbeFreeIrq p
  let s ← s.ixgbeFreeAllTxResources p
  s.ixgbeFreeAllRxResources p

def ixgbeClose (s : PairCard) : Except PairFault PairCard :=
  if s.card.state ≠ .opened then .ok s
  else do
    let s ← s.closePort .primary
    let s ← s.closePort .secondary
    return { s with card := { s.card with state := .closed } }

/-! ## Vectors -/

/-- `ixgbe_clear_interrupt_scheme`, where `ixgbe_free_q_vector` takes the rings of the vector out
    of the adapter. -/
def ixgbeClearInterruptScheme (s : PairCard) (p : Port) : Except PairFault PairCard := do
  ensure (s.VectorsThere p) (.freed .qVector)
  let a := s.card.port p
  let v := s.vectors p
  let gone := fun (vector : Nat → Option Nat) i => s.ringLive p (vector i)
  return (s.setRes p { a with
    numTxQueues := 0, numRxQueues := 0, numQVectors := 0, msixEnabled := false
    txRing := fun i => if gone v.txVector i then {} else a.txRing i
    rxRing := fun i => if gone v.rxVector i then {} else a.rxRing i }).setVectors p { v with
      qVector := fun i => if i < a.numQVectors then none else v.qVector i
      txVector := fun i => if gone v.txVector i then none else v.txVector i
      rxVector := fun i => if gone v.rxVector i then none else v.rxVector i }

/-- `ixgbe_init_interrupt_scheme`.  At its end `ixgbe_cache_ring_register` writes to every ring. -/
def ixgbeInitInterruptScheme (s : PairCard) (p : Port) (plan : RingPlan) :
    Except PairFault PairCard := do
  let a := s.card.port p
  let v := s.vectors p
  ensure (∀ i ∈ List.range plan.numQVectors, v.qVector i = none) (.requested .qVector)
  let new := fun i => s.next + i
  let s : PairCard := { s with next := s.next + plan.numQVectors }.setRes p { a with
    numTxQueues := plan.numTxQueues, numRxQueues := plan.numRxQueues
    numQVectors := plan.numQVectors, msixEnabled := plan.msixEnabled
    usedVector := plan.usedVector
    txRing := fun i => if (plan.txVector i).isSome then {} else a.txRing i
    rxRing := fun i => if (plan.rxVector i).isSome then {} else a.rxRing i }
  let s : PairCard := s.setVectors p {
    qVector := fun i => if i < plan.numQVectors then some (new i) else v.qVector i
    txVector := fun i => ((plan.txVector i).map (new ·.val)).or (v.txVector i)
    rxVector := fun i => ((plan.rxVector i).map (new ·.val)).or (v.rxVector i)
    down := true }
  ensure (s.TxThere p) .dereferenced
  ensure (s.RxThere p) .dereferenced
  return s

/-! ## Calls -/

def ixgbeReinitLockedChangeQueues (s : PairCard) (plan : RingPlan) :
    Except PairFault PairCard := do
  -- "start out the same as a close(), but don't release the hw"
  let s ← s.ixgbeClose
  let s ← s.ixgbeDown .primary
  let s ← s.ixgbeFreeIrq .primary
  let s ← s.ixgbeFreeAllRxResources .primary
  let s ← s.ixgbeFreeAllTxResources .primary
  let s ← s.ixgbeClearInterruptScheme .primary
  let s ← s.ixgbeInitInterruptScheme .primary plan
  s.ixgbeOpen

def ixgbeChangeMtu (s : PairCard) (newMtu : Int32) (plan : RingPlan) :
    Except PairFault PairCard :=
  if !QueueCard.mtuAccepted newMtu then .ok s
  else
    let oldMtu := s.mtu
    let s := { s with mtu := newMtu }
    if s.running then do
      let s ← if QueueCard.crosses oldMtu newMtu then s.ixgbeReinitLockedChangeQueues plan
        else s.ixgbeReinitLocked .primary
      s.ixgbeReinitLocked .secondary
    else .ok s

def probe (ddpPool : Port → Bool) (plan : Port → RingPlan) : Except PairFault PairCard := do
  let a := fun p => { numTxQueues := 0, numRxQueues := 0, numQVectors := 0
                      usedVector := fun _ => false, msixEnabled := false, ddpPool := ddpPool p }
  let s : PairCard := { card := { state := .initialized, port := a } }
  let s ← s.ixgbeInitInterruptScheme .primary (plan .primary)
  s.ixgbeInitInterruptScheme .secondary (plan .secondary)

end PairCard

inductive PairCall where
  | open
  | close
  | changeMtu (newMtu : Int32) (plan : RingPlan)

namespace PairCard

/-- A call of the network stack, for which `netif_running` follows open and close. -/
def exec (s : PairCard) : PairCall → Except PairFault PairCard
  | .open => do
    let s ← s.ixgbeOpen
    return { s with running := true }
  | .close => do
    let s ← s.ixgbeClose
    return { s with running := false }
  | .changeMtu newMtu plan => s.ixgbeChangeMtu newMtu plan

end PairCard

def PairStep (r : Except PairFault PairCard) (call : PairCall) (t : Except PairFault PairCard) :
    Prop :=
  match r with
  | .ok s => t = s.exec call
  | .error _ => False

/-! ## What is promised -/

/-- No call broke a pair, each port holds its interrupts and rings exactly while the card is open,
    and its vectors all along. -/
def PairsKept : Except PairFault PairCard → Prop
  | .ok s => s.card.AllOrNothing ∧ ∀ p, s.VectorsThere p
  | .error _ => False

/-- No MTU crosses `ETH_DATA_LEN` while the interface runs. -/
def KeepsQueues : Except PairFault PairCard → PairCall → Prop
  | .ok s, .changeMtu newMtu _ =>
    ¬(QueueCard.mtuAccepted newMtu = true ∧ s.running = true ∧
      QueueCard.crosses s.mtu newMtu = true)
  | _, _ => True

/-! ## Adapters -/

variable {f : PairFault}

@[simp] theorem ensure_eq_ok {cond : Prop} [Decidable cond] {u : Unit} :
    ensure cond f = .ok u ↔ cond := by
  unfold ensure
  split
  · next h => exact iff_of_true rfl h
  · next h => exact iff_of_false nofun h

theorem ensure_bind {cond : Prop} [Decidable cond] {α : Type} {k : Unit → Except PairFault α}
    (h : cond) : (ensure cond f >>= k) = k () := by
  rw [ensure, if_pos h]
  rfl

theorem ensure_bind_error {cond : Prop} [Decidable cond] {α : Type} {k : Unit → Except PairFault α}
    (h : ¬cond) : (ensure cond f >>= k) = .error f := by
  rw [ensure, if_neg h]
  rfl

namespace AdapterRes

variable {a b : AdapterRes}

def SameCounts (a b : AdapterRes) : Prop :=
  b.numTxQueues = a.numTxQueues ∧ b.numRxQueues = a.numRxQueues ∧ b.numQVectors = a.numQVectors

theorem sameCounts_freeIrq (a : AdapterRes) : SameCounts a a.ixgbeFreeIrq := by
  unfold ixgbeFreeIrq
  split <;> exact ⟨rfl, rfl, rfl⟩

theorem Holds.irqsAre {tx rx irq : Bool} (h : a.Holds tx rx irq) : a.irqsAre irq := by
  unfold AdapterRes.irqsAre
  split
  · next hmsix =>
    intro v hv hwants
    rw [List.mem_range] at hv
    have hentry : a.msixIrq v = (a.holding tx rx irq).msixIrq v := congrArg (·.msixIrq v) h
    have hle : v ≤ a.numQVectors := by omega
    simpa [holding, hmsix, hwants, hle] using hentry
  · next hmsix =>
    have hline : a.irq = (a.holding tx rx irq).irq := congrArg (·.irq) h
    simpa [holding, hmsix] using hline

theorem not_irqsAre (h : a.irqsAre false) : ¬a.irqsAre true := by
  unfold irqsAre at h ⊢
  intro h'
  split at h'
  · next hmsix =>
    rw [if_pos hmsix] at h
    have hlast : a.numQVectors ∈ List.range (a.numQVectors + 1) := by simp
    have hwants : a.wantsVector a.numQVectors = true := by simp [wantsVector]
    have heq := (h _ hlast hwants).symm.trans (h' _ hlast hwants)
    cases heq
  · next hmsix =>
    rw [if_neg hmsix] at h
    have heq := h.symm.trans h'
    cases heq

theorem Holds.ringsFree {irq : Bool} (h : a.Holds false false irq) (n : Nat) :
    ringsFree n a.txRing ∧ ringsFree n a.rxRing := by
  have htx : a.txRing = _ := congrArg (·.txRing) h
  have hrx : a.rxRing = _ := congrArg (·.rxRing) h
  constructor
  · intro i _
    rw [htx]
    rfl
  · intro i _
    rw [hrx]
    rfl

theorem up_default (a : AdapterRes) : a.Up {} := by
  refine ⟨rfl, fun _ _ => rfl, ⟨fun _ _ => rfl, fun _ => rfl⟩, ?_⟩
  unfold IrqUp
  split
  · exact fun _ _ _ => rfl
  · rfl

end AdapterRes

theorem Card.openPort_default {s : Card} {p : Port} (h : (s.port p).Holds false false false) :
    s.openPort {} p = (s.setPort p ((s.port p).holding true true true), true) := by
  obtain ⟨-, hopen⟩ | ⟨hup, -⟩ := s.openPort_cases {} p h
  · rw [hopen, if_neg (by simp)]
  · exact absurd (up_default _) hup

theorem AdapterRes.Holds.close {a : AdapterRes} (h : a.Holds true true true) :
    a.ixgbeFreeIrq.ixgbeFreeAllTxResources.ixgbeFreeAllRxResources =
      a.holding false false false := by
  rw [show a.ixgbeFreeIrq = (a.holding true true true).ixgbeFreeIrq from
    congrArg AdapterRes.ixgbeFreeIrq h, AdapterRes.freeIrq_holding, AdapterRes.freeTx_holding,
    AdapterRes.freeRx_holding]

namespace PairCard

variable {s t : PairCard} {p : Port}

/-! ## Pointers that stay -/

structure There (s : PairCard) : Prop where
  vectors : ∀ p, s.VectorsThere p
  tx : ∀ p, s.TxThere p
  rx : ∀ p, s.RxThere p

/-- The vectors of the ports are the same, as many, and point to the same rings. -/
def SameScheme (s t : PairCard) : Prop := ∀ p,
  (s.card.port p).SameCounts (t.card.port p) ∧
    (t.vectors p).qVector = (s.vectors p).qVector ∧
    (t.vectors p).txVector = (s.vectors p).txVector ∧
    (t.vectors p).rxVector = (s.vectors p).rxVector

theorem SameScheme.trans {u : PairCard} (h : SameScheme s t) (h' : SameScheme t u) :
    SameScheme s u := by
  intro p
  obtain ⟨⟨htx, hrx, hn⟩, hq, ht, hr⟩ := h p
  obtain ⟨⟨htx', hrx', hn'⟩, hq', ht', hr'⟩ := h' p
  exact ⟨⟨htx'.trans htx, hrx'.trans hrx, hn'.trans hn⟩, hq'.trans hq, ht'.trans ht, hr'.trans hr⟩

theorem SameScheme.of_eq (hcard : t.card = s.card) (hvectors : t.vectors = s.vectors) :
    SameScheme s t := by
  intro p
  rw [hcard, hvectors]
  exact ⟨⟨rfl, rfl, rfl⟩, rfl, rfl, rfl⟩

theorem There.of_same (h : There s) (hsame : SameScheme s t) : There t := by
  have hlive : ∀ p, t.liveVectors p = s.liveVectors p := by
    intro p
    obtain ⟨⟨-, -, hn⟩, hq, -⟩ := hsame p
    unfold liveVectors
    rw [hn, hq]
  refine ⟨fun p => ?_, fun p => ?_, fun p => ?_⟩
  · obtain ⟨⟨-, -, hn⟩, hq, -⟩ := hsame p
    unfold VectorsThere
    rw [hn, hq]
    exact h.vectors p
  · obtain ⟨⟨hn, -⟩, -, hv, -⟩ := hsame p
    unfold TxThere ringLive
    rw [hn, hv, hlive]
    exact h.tx p
  · obtain ⟨⟨-, hn, -⟩, -, -, hv⟩ := hsame p
    unfold RxThere ringLive
    rw [hn, hv, hlive]
    exact h.rx p

theorem sameScheme_setDown (s : PairCard) (p : Port) (down : Bool) :
    SameScheme s (s.setDown p down) := by
  intro q
  refine ⟨⟨rfl, rfl, rfl⟩, ?_⟩
  by_cases hq : q = p
  · subst hq
    simp [setDown, setVectors]
  · simp [setDown, setVectors, Function.update_of_ne hq]

theorem sameScheme_setRes {a : AdapterRes} (h : (s.card.port p).SameCounts a) :
    SameScheme s (s.setRes p a) := by
  intro q
  refine ⟨?_, rfl, rfl, rfl⟩
  by_cases hq : q = p
  · subst hq
    simpa [setRes] using h
  · rw [setRes, setPort_port_ne _ hq]
    exact ⟨rfl, rfl, rfl⟩

/-! ## One step each -/

theorem ixgbeDown_spec (h : There s) (p : Port) : s.ixgbeDown p = .ok (s.setDown p true) := by
  unfold ixgbeDown
  split
  · next hdown =>
    have hsame : { s.vectors p with down := true } = s.vectors p := by rw [← hdown]
    simp [setDown, setVectors, hsame]
  · rw [ensure_bind (h.rx p), ensure_bind (h.vectors p), ensure_bind (h.tx p)]
    rfl

theorem ixgbeConfigure_spec (h : There s) (p : Port) : s.ixgbeConfigure p = .ok () := by
  unfold ixgbeConfigure
  rw [ensure_bind (h.tx p), ensure_bind (h.rx p)]
  exact ensure_eq_ok.mpr (h.vectors p)

theorem ixgbeReinitLocked_spec (h : There s) (p : Port) :
    ∃ t, s.ixgbeReinitLocked p = .ok t ∧ SameScheme s t ∧ t.card = s.card ∧
      t.running = s.running := by
  have hdown := sameScheme_setDown s p true
  refine ⟨(s.setDown p true).setDown p false, ?_, hdown.trans (sameScheme_setDown _ p false), rfl,
    rfl⟩
  rw [ixgbeReinitLocked, ixgbeDown_spec h]
  show ixgbeUp _ p = _
  rw [ixgbeUp, ixgbeConfigure_spec (h.of_same hdown)]
  rfl

theorem ixgbeFreeIrq_spec (h : There s) (hirq : (s.card.port p).irqsAre true) :
    s.ixgbeFreeIrq p = .ok (s.setRes p (s.card.port p).ixgbeFreeIrq) := by
  rw [ixgbeFreeIrq, ensure_bind fun _ => h.vectors p, ensure_bind hirq]
  rfl

theorem closePort_spec (h : There s) (hholds : (s.card.port p).Holds true true true) :
    ∃ t, s.closePort p = .ok t ∧ SameScheme s t ∧
      t.card = s.card.setPort p ((s.card.port p).holding false false false) ∧
      t.running = s.running := by
  let a := s.card.port p
  let s₁ := s.setDown p true
  let s₂ := s₁.setRes p a.ixgbeFreeIrq
  let s₃ := s₂.setRes p (s₂.card.port p).ixgbeFreeAllTxResources
  let s₄ := s₃.setRes p (s₃.card.port p).ixgbeFreeAllRxResources
  have h₁ : SameScheme s s₁ := sameScheme_setDown s p true
  have h₂ : SameScheme s s₂ := h₁.trans (sameScheme_setRes (sameCounts_freeIrq a))
  have h₃ : SameScheme s s₃ := h₂.trans (sameScheme_setRes ⟨rfl, rfl, rfl⟩)
  have h₄ : SameScheme s s₄ := h₃.trans (sameScheme_setRes ⟨rfl, rfl, rfl⟩)
  refine ⟨s₄, ?_, h₄, ?_, rfl⟩
  · rw [closePort, ixgbeDown_spec h]
    show s₁.ixgbeFreeIrq p >>= _ = _
    rw [ixgbeFreeIrq_spec (h.of_same h₁) (AdapterRes.Holds.irqsAre hholds)]
    show s₂.ixgbeFreeAllTxResources p >>= _ = _
    rw [ixgbeFreeAllTxResources, ensure_bind ((h.of_same h₂).tx p)]
    show s₃.ixgbeFreeAllRxResources p = _
    rw [ixgbeFreeAllRxResources, ensure_bind ((h.of_same h₃).rx p)]
    rfl
  · rw [← AdapterRes.Holds.close hholds]
    simp [s₄, s₃, s₂, s₁, setRes, setDown, setVectors, setPort, a]

theorem ixgbeClose_spec (h : There s) (hcard : s.card.AllOrNothing)
    (hopen : s.card.state = .opened) :
    ∃ t, s.ixgbeClose = .ok t ∧ SameScheme s t ∧ t.card.state = .closed ∧ t.card.AllOrNothing ∧
      t.running = s.running := by
  have hall := (allOrNothing_iff_of_opened hopen).mp hcard
  obtain ⟨u, hu, hsame, hucard, hurun⟩ := closePort_spec h (hall .primary)
  have hsec : u.card.port .secondary = s.card.port .secondary := by
    rw [hucard]
    exact setPort_port_ne _ (by decide) _
  obtain ⟨t, ht, hsame', htcard, htrun⟩ :=
    closePort_spec (p := .secondary) (h.of_same hsame) (hsec ▸ hall .secondary)
  refine ⟨{ t with card := { t.card with state := .closed } }, ?_, ?_, rfl, ?_, htrun.trans hurun⟩
  · rw [ixgbeClose, if_neg (not_not.mpr hopen)]
    exact bind_eq_ok.mpr ⟨u, hu, bind_eq_ok.mpr ⟨t, ht, rfl⟩⟩
  · exact hsame.trans hsame'
  · refine (allOrNothing_iff_of_not_opened (by simp)).mpr (Port.forall_iff.mpr ⟨?_, ?_⟩)
    · show (t.card.port .primary).Holds _ _ _
      rw [htcard, setPort_port_ne _ (by decide), hucard, setPort_port]
      exact holds_holding ..
    · show (t.card.port .secondary).Holds _ _ _
      rw [htcard, setPort_port]
      exact holds_holding ..

theorem openPort_spec (h : There s) (hnone : (s.card.port p).Holds false false false) :
    ∃ t, s.openPort p = .ok t ∧ SameScheme s t ∧
      t.card = s.card.setPort p ((s.card.port p).holding true true true) ∧
      t.running = s.running := by
  have hopen := openPort_default hnone
  have hrings := AdapterRes.Holds.ringsFree hnone
  have hsame : SameScheme s { s with card := (s.card.openPort {} p).1 } := by
    rw [hopen]
    exact sameScheme_setRes ⟨rfl, rfl, rfl⟩
  refine ⟨{ s with card := (s.card.openPort {} p).1 }.setDown p false, ?_,
    hsame.trans (sameScheme_setDown _ p false), congrArg Prod.fst hopen, rfl⟩
  rw [openPort, ensure_bind (h.tx p), ensure_bind (hrings _).1, ensure_bind (h.rx p),
    ensure_bind (hrings _).2, ixgbeConfigure_spec h]
  show (ensure _ _ >>= _) = _
  rw [ensure_bind (AdapterRes.Holds.irqsAre hnone)]
  rfl

theorem ixgbeOpen_spec (h : There s) (hcard : s.card.AllOrNothing)
    (hopen : s.card.state ≠ .opened) :
    ∃ t, s.ixgbeOpen = .ok t ∧ SameScheme s t ∧ t.card.state = .opened ∧ t.card.AllOrNothing := by
  have hnone := (allOrNothing_iff_of_not_opened hopen).mp hcard
  obtain ⟨u, hu, hsame, hucard, -⟩ := openPort_spec h (hnone .primary)
  have hsec : u.card.port .secondary = s.card.port .secondary := by
    rw [hucard]
    exact setPort_port_ne _ (by decide) _
  obtain ⟨t, ht, hsame', htcard, -⟩ :=
    openPort_spec (p := .secondary) (h.of_same hsame) (hsec ▸ hnone .secondary)
  refine ⟨{ t with card := { t.card with state := .opened } }, ?_, ?_, rfl, ?_⟩
  · rw [ixgbeOpen, if_neg hopen]
    exact bind_eq_ok.mpr ⟨u, hu, bind_eq_ok.mpr ⟨t, ht, rfl⟩⟩
  · exact hsame.trans hsame'
  · refine (allOrNothing_iff_of_opened rfl).mpr (Port.forall_iff.mpr ⟨?_, ?_⟩)
    · show (t.card.port .primary).Holds _ _ _
      rw [htcard, setPort_port_ne _ (by decide), hucard, setPort_port]
      exact holds_holding ..
    · show (t.card.port .secondary).Holds _ _ _
      rw [htcard, setPort_port]
      exact holds_holding ..

/-! ## The calls -/

structure PairOk (s : PairCard) : Prop where
  card : s.card.AllOrNothing
  there : There s
  running : s.running = true ↔ s.card.state = .opened

theorem PairOk.of_same (h : PairOk s) (hsame : SameScheme s t) (hcard : t.card = s.card)
    (hrunning : t.running = s.running) : PairOk t := by
  refine ⟨hcard ▸ h.card, h.there.of_same hsame, ?_⟩
  rw [hrunning, hcard]
  exact h.running

theorem open_step (h : PairOk s) : ∃ t, s.exec .open = .ok t ∧ PairOk t := by
  by_cases hopen : s.card.state = .opened
  · refine ⟨{ s with running := true }, ?_, h.card, h.there.of_same (.of_eq rfl rfl),
      iff_of_true rfl hopen⟩
    rw [exec, ixgbeOpen, if_pos hopen]
    rfl
  · obtain ⟨t, ht, hsame, hstate, hcard⟩ := ixgbeOpen_spec h.there h.card hopen
    refine ⟨{ t with running := true }, ?_, hcard, h.there.of_same hsame, iff_of_true rfl hstate⟩
    exact bind_eq_ok.mpr ⟨t, ht, rfl⟩

theorem close_step (h : PairOk s) : ∃ t, s.exec .close = .ok t ∧ PairOk t := by
  by_cases hopen : s.card.state = .opened
  · obtain ⟨t, ht, hsame, hstate, hcard, -⟩ := ixgbeClose_spec h.there h.card hopen
    refine ⟨{ t with running := false }, bind_eq_ok.mpr ⟨t, ht, rfl⟩, hcard,
      h.there.of_same hsame, iff_of_false (by simp) ?_⟩
    show ¬t.card.state = .opened
    rw [hstate]
    decide
  · refine ⟨{ s with running := false }, ?_, h.card, h.there.of_same (.of_eq rfl rfl),
      iff_of_false (by simp) hopen⟩
    rw [exec, ixgbeClose, if_pos hopen]
    rfl

theorem changeMtu_step {newMtu : Int32} {plan : RingPlan} (h : PairOk s)
    (hkeep : KeepsQueues (.ok s) (.changeMtu newMtu plan)) :
    ∃ t, s.exec (.changeMtu newMtu plan) = .ok t ∧ PairOk t := by
  rw [exec, ixgbeChangeMtu]
  by_cases haccepted : QueueCard.mtuAccepted newMtu = true
  · rw [if_neg (by simp [haccepted])]
    by_cases hrunning : s.running = true
    · have hcross : ¬QueueCard.crosses s.mtu newMtu = true :=
        fun hcross => hkeep ⟨haccepted, hrunning, hcross⟩
      obtain ⟨u, hu, hsame, hucard, hurun⟩ :=
        ixgbeReinitLocked_spec (s := { s with mtu := newMtu })
          (h.there.of_same (.of_eq rfl rfl)) .primary
      have hsame' : SameScheme s u := hsame
      obtain ⟨t, ht, htsame, htcard, htrun⟩ :=
        ixgbeReinitLocked_spec (h.there.of_same hsame') .secondary
      refine ⟨t, ?_, h.of_same (hsame'.trans htsame) (htcard.trans hucard) (htrun.trans hurun)⟩
      show (if s.running = true then _ else _) = _
      rw [if_pos hrunning, if_neg hcross]
      exact bind_eq_ok.mpr ⟨u, hu, ht⟩
    · exact ⟨{ s with mtu := newMtu }, if_neg hrunning, h.of_same (.of_eq rfl rfl) rfl rfl⟩
  · rw [if_pos (by simp [haccepted])]
    exact ⟨s, rfl, h⟩

/-- **A change** of the MTU across the bound frees the interrupts of the primary port twice. -/
theorem changeMtu_fault {newMtu : Int32} {plan : RingPlan} (h : PairOk s)
    (hcross : ¬KeepsQueues (.ok s) (.changeMtu newMtu plan)) :
    s.exec (.changeMtu newMtu plan) = .error (.freed .irq) := by
  obtain ⟨haccepted, hrunning, hcross⟩ := not_not.mp hcross
  obtain ⟨t, ht, hsame, hstate, hcard, -⟩ :=
    ixgbeClose_spec (s := { s with mtu := newMtu }) (h.there.of_same (.of_eq rfl rfl)) h.card
      (h.running.mp hrunning)
  have hthere : There t := h.there.of_same (s := s) hsame
  -- the interrupts were freed by `ixgbe_close`
  have hirq : ¬(t.card.port .primary).irqsAre true := by
    have hnone : (t.card.port .primary).Holds false false false :=
      (allOrNothing_iff_of_not_opened (by simp [hstate])).mp hcard .primary
    exact not_irqsAre hnone.irqsAre
  have hfree : (t.setDown .primary true).ixgbeFreeIrq .primary = .error (.freed .irq) := by
    have hdown : There (t.setDown .primary true) := hthere.of_same (sameScheme_setDown t _ _)
    rw [ixgbeFreeIrq, ensure_bind fun _ => hdown.vectors _]
    exact ensure_bind_error hirq
  rw [exec, ixgbeChangeMtu, if_neg (by simp [haccepted])]
  show (if s.running = true then _ else _) = _
  rw [if_pos hrunning, if_pos hcross, ixgbeReinitLockedChangeQueues, ht]
  simp only [ok_bind, ixgbeDown_spec hthere, hfree, error_bind]

end PairCard

def PairInv : Except PairFault PairCard → Prop
  | .ok s => s.PairOk
  | .error _ => False

theorem PairInv.pairsKept {r : Except PairFault PairCard} (h : PairInv r) : PairsKept r := by
  cases r with
  | ok s => exact ⟨PairCard.PairOk.card h, (PairCard.PairOk.there h).vectors⟩
  | error f => exact h

theorem PairStep.unique {r t t' : Except PairFault PairCard} {call : PairCall}
    (h : PairStep r call t) (h' : PairStep r call t') : t = t' := by
  cases r with
  | error f => exact h.elim
  | ok s => exact Eq.trans h h'.symm

namespace PairCard

variable {s t : PairCard} {p : Port}

/-- **One call.** -/
theorem pair_step {r t : Except PairFault PairCard} {call : PairCall} (h : PairInv r)
    (hstep : PairStep r call t) :
    (KeepsQueues r call → PairInv t) ∧ (PairsKept t → KeepsQueues r call) := by
  cases r with
  | error f => exact h.elim
  | ok s =>
    obtain rfl := hstep
    have hs : s.PairOk := h
    cases call with
    | «open» =>
      obtain ⟨t, ht, hok⟩ := open_step hs
      rw [ht]
      exact ⟨fun _ => hok, fun _ => trivial⟩
    | close =>
      obtain ⟨t, ht, hok⟩ := close_step hs
      rw [ht]
      exact ⟨fun _ => hok, fun _ => trivial⟩
    | changeMtu newMtu plan =>
      constructor
      · intro hkeep
        obtain ⟨t, ht, hok⟩ := changeMtu_step hs hkeep
        rw [ht]
        exact hok
      · intro hkept
        by_contra hcross
        rw [changeMtu_fault hs hcross] at hkept
        exact hkept

/-! ## Probing -/

theorem ixgbeInitInterruptScheme_spec {plan : RingPlan}
    (h : s.ixgbeInitInterruptScheme p plan = .ok t) :
    t.VectorsThere p ∧ t.TxThere p ∧ t.RxThere p ∧
      (∀ q, q ≠ p → t.card.port q = s.card.port q ∧ t.vectors q = s.vectors q) ∧
      t.card.state = s.card.state ∧ t.running = s.running ∧
      ((s.card.port p).Holds false false false → (t.card.port p).Holds false false false) := by
  obtain ⟨_, -, h⟩ := bind_eq_ok.mp h
  obtain ⟨_, htx, h⟩ := bind_eq_ok.mp h
  obtain ⟨_, hrx, h⟩ := bind_eq_ok.mp h
  cases h
  rw [ensure_eq_ok] at htx hrx
  refine ⟨?_, htx, hrx, fun q hq => ⟨?_, ?_⟩, rfl, rfl, fun hnone => ?_⟩
  · intro v hv
    simp only [setVectors, setRes, setPort_port, Function.update_self, List.mem_range] at hv ⊢
    rw [if_pos hv]
    rfl
  · exact setPort_port_ne _ hq _
  · exact Function.update_of_ne hq _ _
  · have htx₀ : (s.card.port p).txRing = fun _ => {} := congrArg (·.txRing) hnone
    have hrx₀ : (s.card.port p).rxRing = fun _ => {} := congrArg (·.rxRing) hnone
    have hddp : (s.card.port p).ddp = false := congrArg (·.ddp) hnone
    have hmsix : (s.card.port p).msixIrq = fun _ => false := congrArg (·.msixIrq) hnone
    have hirq : (s.card.port p).irq = false := congrArg (·.irq) hnone
    simp only [setVectors, setRes, setPort_port, AdapterRes.Holds, holding, htx₀,
      hrx₀, hddp, hmsix, hirq, ite_self]
    rfl

theorem of_port_eq (hcard : t.card.port p = s.card.port p) (hvectors : t.vectors p = s.vectors p) :
    (s.VectorsThere p → t.VectorsThere p) ∧ (s.TxThere p → t.TxThere p) ∧
      (s.RxThere p → t.RxThere p) := by
  unfold VectorsThere TxThere RxThere ringLive liveVectors
  rw [hcard, hvectors]
  exact ⟨id, id, id⟩

theorem probe_spec {ddpPool : Port → Bool} {plan : Port → RingPlan}
    (h : probe ddpPool plan = .ok s) : PairOk s := by
  obtain ⟨u, hpri, hsec⟩ := bind_eq_ok.mp h
  obtain ⟨hv, htx, hrx, hother, hstate, hrun, hhold⟩ := ixgbeInitInterruptScheme_spec hpri
  obtain ⟨hv', htx', hrx', hother', hstate', hrun', hhold'⟩ := ixgbeInitInterruptScheme_spec hsec
  obtain ⟨hsec₀, -⟩ := hother .secondary (by decide)
  obtain ⟨hcard, hvectors⟩ := hother' .primary (by decide)
  obtain ⟨hkv, hktx, hkrx⟩ := of_port_eq hcard hvectors
  refine ⟨?_, ⟨?_, ?_, ?_⟩, ?_⟩
  · have hclosed : s.card.state ≠ .opened := by
      rw [hstate', hstate]
      simp
    refine (allOrNothing_iff_of_not_opened hclosed).mpr (Port.forall_iff.mpr ⟨?_, ?_⟩)
    · rw [hcard]
      exact hhold rfl
    · refine hhold' ?_
      rw [hsec₀]
      rfl
  · exact Port.forall_iff.mpr ⟨hkv hv, hv'⟩
  · exact Port.forall_iff.mpr ⟨hktx htx, htx'⟩
  · exact Port.forall_iff.mpr ⟨hkrx hrx, hrx'⟩
  · rw [hrun', hrun, hstate', hstate]
    simp

/-- **The pairs are kept along a run exactly if** no MTU crosses `ETH_DATA_LEN` while the
    interface runs. -/
theorem pairs_kept_iff {ddpPool : Port → Bool} {plan : Port → RingPlan} {calls : List PairCall}
    {r : Except PairFault PairCard} (hprobe : probe ddpPool plan = .ok s)
    (hrun : Run PairStep (.ok s) calls r) :
    Always PairStep PairsKept (.ok s) calls ↔ Run (Guarded PairStep KeepsQueues) (.ok s) calls r :=
  always_iff_guarded (I := PairInv) (fun _ _ _ _ h h' => h.unique h') (fun _ h => h.pairsKept)
    (fun _ _ _ h hstep => pair_step h hstep) hrun (probe_spec hprobe)

def onePair : RingPlan where
  numTxQueues := 1
  numRxQueues := 1
  numQVectors := 1
  msixEnabled := true
  txVector i := if i = 0 then some 0 else none
  rxVector i := if i = 0 then some 0 else none

theorem open_onePair : ∃ s t, probe (fun _ => false) (fun _ => onePair) = .ok s ∧
    s.exec .open = .ok t ∧ t.running = true ∧ t.mtu = wfsDefaultMtu :=
  ⟨_, _, rfl, rfl, rfl, rfl⟩

def jumboRun : List PairCall := [.open, .changeMtu 4000 onePair, .close]

theorem pairs_kept_jumboRun : ∃ s, probe (fun _ => false) (fun _ => onePair) = .ok s ∧
    Always PairStep PairsKept (.ok s) jumboRun := by
  obtain ⟨s, t, hs, ht, -, hmtu⟩ := open_onePair
  have htok : PairInv (.ok t) := (pair_step (r := .ok s) (probe_spec hs) ht.symm).1 trivial
  have hkeep : KeepsQueues (.ok t) (.changeMtu 4000 onePair) := by
    refine fun h => absurd h.2.2 ?_
    rw [hmtu]
    decide
  obtain ⟨u, hu, -⟩ := changeMtu_step htok hkeep
  have hguarded : Run (Guarded PairStep KeepsQueues) (.ok s) jumboRun (u.exec .close) :=
    .cons ⟨trivial, ht.symm⟩ (.cons ⟨hkeep, hu.symm⟩ (.single ⟨trivial, rfl⟩))
  exact ⟨s, hs, (pairs_kept_iff hs (hguarded.mono fun _ _ _ h => h.2)).mpr hguarded⟩

/-- The MTU of the open interface is lowered to `ETH_DATA_LEN`. -/
theorem pairs_broken_lowerMtu : ∃ s, probe (fun _ => false) (fun _ => onePair) = .ok s ∧
    Run PairStep (.ok s) [.open, .changeMtu 1500 onePair] (.error (.freed .irq)) ∧
    ¬Always PairStep PairsKept (.ok s) [.open, .changeMtu 1500 onePair] := by
  obtain ⟨s, t, hs, ht, hrunning, hmtu⟩ := open_onePair
  have htok : PairInv (.ok t) := (pair_step (r := .ok s) (probe_spec hs) ht.symm).1 trivial
  have hcross : ¬KeepsQueues (.ok t) (.changeMtu 1500 onePair) := by
    refine not_not.mpr ⟨by decide, hrunning, ?_⟩
    rw [hmtu]
    decide
  have hrun : Run PairStep (.ok s) [.open, .changeMtu 1500 onePair] (.error (.freed .irq)) :=
    .cons ht.symm (.single (changeMtu_fault htok hcross).symm)
  exact ⟨s, hs, hrun, fun halways => halways _ _ List.prefix_rfl hrun⟩

end PairCard

end VmkDrivers.Wfs
