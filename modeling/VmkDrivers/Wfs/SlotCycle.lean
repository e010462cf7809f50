/-
  VmkDrivers.Wfs.SlotCycle

  The life of a card in `ixgbe_wfs_adapter[]`: `ixgbe_probe` and `ixgbe_remove`
  on its two functions.

  The adapter of the function probed first is the private area of the net
  device, so one address stands for both, and `free_netdev` releases both.
  The adapter of the second function is an object of its own that nothing
  releases.  A read or write through a null pointer, or through one to a
  released object, is a fault that ends the run.

  The entry follows the functions exactly as long as no function is removed
  and no probe gets stuck between enabling its device and the end
  (`slot_follows_functions_iff`).
-/

import VmkDrivers.Lib.ExceptLoop
import VmkDrivers.Lib.Heap
import VmkDrivers.Lib.Transition
import VmkDrivers.Wfs.Defs

namespace VmkDrivers.Wfs

open VmkDrivers.Lib Heap

/-! ## Cards and objects -/

/-- A function of a card: `WFS_DEVID` and `WFS_PORTID`. -/
structure PciFn where
  devId : UInt32
  port : Fin 2
deriving DecidableEq, Repr

/-- `struct ixgbe_adapter`. -/
structure Adapter where
  wfsParent : Fin 2
  isWfsPrimary : Bool
  pdev : PciFn
  netdevRegistered : Bool := false
deriving DecidableEq, Repr

/-- An entry of `ixgbe_wfs_adapter[]`. -/
structure WfsSlot where
  state : AdapterState := .unused
  devId : UInt32 := 0
  primary : Option Nat := none
  secondary : Option Nat := none
  ndev : Option Nat := none
deriving DecidableEq, Repr

/-- The entries, the objects, and for each function `pci_get_drvdata` and whether the driver is
    bound to it. -/
structure Driver where
  table : Fin 2 → WfsSlot
  heap : Heap Adapter
  drvdata : PciFn → Option Nat
  bound : PciFn → Bool

def Driver.loaded : Driver :=
  { table := fun _ => {}, heap := .empty, drvdata := fun _ => none, bound := fun _ => false }

inductive SlotPtr where
  | adapter
  | primary
  | secondary
  | ndev
deriving DecidableEq, Repr

inductive SlotFault where
  | null (p : SlotPtr)
  | released (p : SlotPtr)
deriving DecidableEq, Repr

/-- The steps of `ixgbe_wfs_probe` that can fail. -/
inductive ProbeStep where
  | enableDevice
  | dmaMask
  | requestRegions
  | allocAdapter
  | ioremap
  | swInit
  | resetHw
  | eepromChecksum
  | macAddr
  | cfgRemoved
  | interruptScheme
deriving DecidableEq, Repr

def ProbeStep.taken (isPrimary : Bool) : ProbeStep → Bool
  | .macAddr => isPrimary
  | _ => true

structure ProbeResults where
  fails : Option ProbeStep := none
  registered : Bool := true
  init2 : Bool := true
deriving DecidableEq, Repr

inductive PciCall where
  | probe (f : PciFn) (res : ProbeResults)
  | remove (f : PciFn)
deriving DecidableEq, Repr

namespace Driver

def deref (d : Driver) (p : SlotPtr) : Option Nat → Except SlotFault Adapter
  | none => .error (.null p)
  | some a =>
    match d.heap.obj a with
    | none => .error (.released p)
    | some o => .ok o

def setSlot (d : Driver) (i : Fin 2) (slot : WfsSlot) : Driver :=
  { d with table := Function.update d.table i slot }

def withHeap (d : Driver) (heap : Heap Adapter) : Driver :=
  { d with heap }

def withBound (d : Driver) (f : PciFn) (bound : Bool) : Driver :=
  { d with bound := Function.update d.bound f bound }

def freeNetdev (d : Driver) (netdev : Option Nat) : Except SlotFault Driver := do
  let _ ← d.deref .ndev netdev
  return d.withHeap (netdev.elim d.heap d.heap.release)

/-- An assignment to `netdev_registered` of an adapter. -/
def setRegistered (d : Driver) (p : SlotPtr) (adapter : Option Nat) (registered : Bool) :
    Except SlotFault Driver := do
  let _ ← d.deref p adapter
  let set (a : Nat) := d.heap.modify a fun o => { o with netdevRegistered := registered }
  return d.withHeap (adapter.elim d.heap set)

/-! ## Probe -/

def findEntry (d : Driver) (devId : UInt32) : Option (Fin 2) :=
  (List.finRange 2).find? fun i => (d.table i).state ≠ .unused ∧ (d.table i).devId = devId

def ixgbeWfsGetAdapter (devId : UInt32) (d : Driver) : Option (Fin 2 × Driver) :=
  match d.findEntry devId with
  | some i => some (i, d)
  | none =>
    match (List.finRange 2).find? fun i => (d.table i).state = .unused with
    | some i => some (i, d.setSlot i { state := .allocated, devId })
    | none => none

section Unwind

variable (i : Fin 2) (isPrimary : Bool) (adapter netdev : Option Nat)

/-- Where `ixgbe_wfs_probe` unwinds what belongs to the primary adapter too. -/
def touchPrimary (d : Driver) : Except SlotFault Unit :=
  if isPrimary then .ok () else do
    let _ ← d.deref .primary (d.table i).primary
    return ()

/-- Labels `err_pci_reg` and `err_dma`: `__IXGBE_DISABLED` of the adapter is set. -/
def errDma (d : Driver) : Except SlotFault Driver := do
  let _ ← d.deref .adapter adapter
  d.touchPrimary i isPrimary
  return d

/-- Label `err_alloc_etherdev`. -/
def errAllocEtherdev (d : Driver) : Except SlotFault Driver := do
  d.touchPrimary i isPrimary
  d.errDma i isPrimary adapter

/-- Label `err_ioremap`.  It is not the probe of the primary adapter, which allocated the net
    device, that frees it here. -/
def errIoremap (d : Driver) : Except SlotFault Driver := do
  let d ← if isPrimary then pure d else d.freeNetdev netdev
  d.errAllocEtherdev i isPrimary adapter

/-- Label `err_sw_init`. -/
def errSwInit (d : Driver) : Except SlotFault Driver := do
  let _ ← d.deref .adapter adapter
  d.touchPrimary i isPrimary
  d.errIoremap i isPrimary adapter netdev

end Unwind

/-- A new adapter, which gets the `drvdata` of its function. -/
def newAdapter (i : Fin 2) (isPrimary : Bool) (pdev : PciFn) (d : Driver) : Driver :=
  { d with
    heap := d.heap.alloc { wfsParent := i, isWfsPrimary := isPrimary, pdev }
    drvdata := Function.update d.drvdata pdev (some d.heap.next) }

/-- A step of `ixgbe_wfs_probe` fails.  The adapter is there from `ioremap` on, and the name of
    the net device is set before `ixgbe_sw_init`. -/
def probeFails (i : Fin 2) (isPrimary : Bool) (pdev : PciFn) (d : Driver) :
    ProbeStep → Except SlotFault Driver
  | .enableDevice => .ok d
  | .dmaMask | .requestRegions => d.errDma i isPrimary none
  | .allocAdapter => d.errAllocEtherdev i isPrimary none
  | .ioremap =>
    let adapter := d.heap.next
    let netdev := if isPrimary then some adapter else (d.table i).ndev
    (d.newAdapter i isPrimary pdev).errIoremap i isPrimary (some adapter) netdev
  | _ => do
    let adapter := d.heap.next
    let netdev := if isPrimary then some adapter else (d.table i).ndev
    let d := d.newAdapter i isPrimary pdev
    let _ ← d.deref .ndev netdev
    d.errSwInit i isPrimary (some adapter) netdev

/-- No step of `ixgbe_wfs_probe` fails.  The entry gets the adapter of the first function with
    its net device, or the adapter of the second one. -/
def probeSucceeds (i : Fin 2) (isPrimary : Bool) (pdev : PciFn) (d : Driver) :
    Except SlotFault Driver := do
  let adapter := d.heap.next
  let slot := d.table i
  let netdev := if isPrimary then some adapter else slot.ndev
  let d := d.newAdapter i isPrimary pdev
  let _ ← d.deref .ndev netdev
  if isPrimary then
    return d.setSlot i { slot with
      ndev := netdev, primary := some adapter, state := .partialInitialized }
  else
    let _ ← d.deref .primary slot.primary
    return d.setSlot i { slot with secondary := some adapter, state := .initialized }

/-- `ixgbe_wfs_probe`, with the step that fails.  The first function of a card is the primary
    one, whatever its port. -/
def ixgbeWfsProbe (i : Fin 2) (pdev : PciFn) (fails : Option ProbeStep) (d : Driver) :
    Except SlotFault (Bool × Driver) :=
  let isPrimary : Bool := (d.table i).state = .allocated
  match fails.filter (·.taken isPrimary) with
  | some step => return (false, ← d.probeFails i isPrimary pdev step)
  | none => return (true, ← d.probeSucceeds i isPrimary pdev)

/-! ## Remove -/

def ixgbeWfsRemove (i : Fin 2) (pdev : PciFn) (d : Driver) : Except SlotFault Driver := do
  let adapter ← d.deref .adapter (d.drvdata pdev)
  let d ← d.setRegistered .adapter (d.drvdata pdev) false
  let slot := d.table i
  if adapter.isWfsPrimary then
    return d.setSlot i { slot with primary := none, state := .unused }
  else
    return d.setSlot i { slot with secondary := none, state := .partialInitialized }

def ixgbeRemove (pdev : PciFn) (d : Driver) : Except SlotFault Driver := do
  let adapter ← d.deref .adapter (d.drvdata pdev)
  let i := adapter.wfsParent
  let slot := d.table i
  let d ← if slot.ndev.isNone then pure d else do
    let primary ← d.deref .primary slot.primary
    let registered ←
      if primary.netdevRegistered then pure true
      else (·.netdevRegistered) <$> d.deref .secondary slot.secondary
    -- `unregister_netdev`
    let _ ← if registered then (fun _ => ()) <$> d.deref .ndev slot.ndev else pure ()
    let d ← d.freeNetdev slot.ndev
    let d := d.setSlot i { slot with ndev := none }
    let d ← d.setRegistered .secondary slot.secondary false
    d.setRegistered .primary slot.primary false
  d.ixgbeWfsRemove i pdev

/-- `ixgbe_probe` once both functions of the card are there. -/
def registerNetdev (i : Fin 2) (res : ProbeResults) (d : Driver) :
    Except SlotFault (Bool × Driver) := do
  let slot := d.table i
  let _ ← d.deref .ndev slot.ndev
  if res.registered then
    let d ← d.setRegistered .secondary slot.secondary true
    let d ← d.setRegistered .primary slot.primary true
    return (res.init2, d)
  else
    let d ← d.freeNetdev slot.ndev
    let d ← if slot.primary.isNone then pure d else do
      let primary ← d.deref .primary slot.primary
      d.ixgbeWfsRemove i primary.pdev
    let slot := d.table i
    let d ← if slot.secondary.isNone then pure d else do
      let secondary ← d.deref .secondary slot.secondary
      d.ixgbeWfsRemove i secondary.pdev
    return (res.init2, d)

/-- `ixgbe_probe` with the entry it got. -/
def probeEntry (i : Fin 2) (pdev : PciFn) (res : ProbeResults) (d : Driver) :
    Except SlotFault (Bool × Driver) :=
  if (d.table i).state = .initialized then
    return (false, d)
  else do
    let (ok, d) ← d.ixgbeWfsProbe i pdev res.fails
    if (d.table i).state = .initialized then
      d.registerNetdev i res
    else
      return (ok, d)

def ixgbeProbe (pdev : PciFn) (res : ProbeResults) (d : Driver) :
    Except SlotFault (Bool × Driver) :=
  match d.ixgbeWfsGetAdapter pdev.devId with
  | none => return (false, d)
  | some (i, d) => d.probeEntry i pdev res

/-! ## Calls of the PCI core -/

def enabled (d : Driver) : PciCall → Bool
  | .probe f _ => !d.bound f
  | .remove f => d.bound f

def call (d : Driver) : PciCall → Except SlotFault Driver
  | .probe f res => do
    let (ok, d) ← d.ixgbeProbe f res
    return d.withBound f ok
  | .remove f => do
    let d ← d.ixgbeRemove f
    return d.withBound f false

def CallStep (s : Except SlotFault Driver) (c : PciCall) (t : Except SlotFault Driver) : Prop :=
  match s with
  | .ok d => d.enabled c ∧ d.call c = t
  | .error _ => False

/-! ## What is promised -/

def boundCount (d : Driver) (devId : UInt32) : Nat :=
  (List.finRange 2).countP fun port => d.bound ⟨devId, port⟩

def stateOf (d : Driver) (devId : UInt32) : AdapterState :=
  (d.findEntry devId).elim .unused fun i => (d.table i).state

structure StateFollows (d : Driver) (devId : UInt32) : Prop where
  absent : d.stateOf devId = .unused ∨ d.stateOf devId = .allocated ↔ d.boundCount devId = 0
  one : d.stateOf devId = .partialInitialized ↔ d.boundCount devId = 1
  both : d.stateOf devId = .initialized ↔ d.boundCount devId = 2

/-- An adapter of an entry is alive at `a`. -/
def Alive (d : Driver) (i : Fin 2) (isWfsPrimary : Bool) (a : Nat) : Prop :=
  ∃ o, d.heap.obj a = some o ∧ o.wfsParent = i ∧ o.isWfsPrimary = isWfsPrimary

structure PointersLive (d : Driver) (i : Fin 2) : Prop where
  primary : ∀ a, (d.table i).primary = some a ↔ d.Alive i true a
  secondary : ∀ a, (d.table i).secondary = some a ↔ d.Alive i false a
  ndev : ∀ a, (d.table i).ndev = some a ↔ d.Alive i true a

/-- No fault, and the entries follow the functions. -/
def FollowsFunctions : Except SlotFault Driver → Prop
  | .ok d => (∀ devId, d.StateFollows devId) ∧ ∀ i, d.PointersLive i
  | .error _ => False

/-- A probe that gets an entry fails at `pci_enable_device_mem` or not at all, and as the second
    one of its card it has the net device registered and `ixgbe_wfs_init2` succeed. -/
def Harmless : Except SlotFault Driver → PciCall → Prop
  | .ok d, .probe f res => ∀ i d₁, d.ixgbeWfsGetAdapter f.devId = some (i, d₁) →
      res.fails = some .enableDevice ∨
        res.fails.filter (·.taken ((d₁.table i).state = .allocated)) = none ∧
        ((d₁.table i).state = .partialInitialized → res.registered ∧ res.init2)
  | _, _ => False

/-! ## The invariant -/

/-- What an entry holds: nothing, the adapter of one function, or the adapters of both. -/
inductive Holds (d : Driver) (i : Fin 2) : Prop where
  | none (hstate : (d.table i).state = .unused ∨ (d.table i).state = .allocated)
      (hslot : d.table i = { state := (d.table i).state, devId := (d.table i).devId })
      (hobj : ∀ a o, d.heap.obj a = some o → o.wfsParent ≠ i)
      (hbound : (d.table i).state = .allocated → ∀ p, d.bound ⟨(d.table i).devId, p⟩ = false)
  | one (devId : UInt32) (p : Fin 2) (a : Nat)
      (hslot : d.table i = ⟨.partialInitialized, devId, some a, none, some a⟩)
      (hobj : ∀ b o, d.heap.obj b = some o ∧ o.wfsParent = i ↔
        b = a ∧ o = ⟨i, true, ⟨devId, p⟩, false⟩)
      (hbound : ∀ q, d.bound ⟨devId, q⟩ = decide (q = p))
      (hdata : d.drvdata ⟨devId, p⟩ = some a)
  | both (devId : UInt32) (p : Fin 2) (a b : Nat) (hne : a ≠ b)
      (hslot : d.table i = ⟨.initialized, devId, some a, some b, some a⟩)
      (hobj : ∀ c o, d.heap.obj c = some o ∧ o.wfsParent = i ↔
        c = a ∧ o = ⟨i, true, ⟨devId, p⟩, true⟩ ∨ c = b ∧ o = ⟨i, false, ⟨devId, 1 - p⟩, true⟩)
      (hbound : ∀ q, d.bound ⟨devId, q⟩ = true)
      (hdata : ∀ q, d.drvdata ⟨devId, q⟩ = some (if q = p then a else b))

/-- Every entry holds what it should, no card has two, and bound functions have one. -/
structure Inv (d : Driver) : Prop where
  holds : ∀ i, d.Holds i
  distinct : ∀ i j, (d.table i).state ≠ .unused → (d.table j).state ≠ .unused →
    (d.table i).devId = (d.table j).devId → i = j
  known : ∀ f, d.bound f = true → ∃ i, (d.table i).state ≠ .unused ∧ (d.table i).devId = f.devId

theorem inv_loaded : Inv loaded where
  holds _ := .none (.inl rfl) rfl (fun _ _ h => by cases h) fun h => by cases h
  distinct _ _ h := absurd rfl h
  known _ h := by cases h

variable {d d' : Driver} {i j : Fin 2} {devId : UInt32} {f g g' : PciFn}

theorem findEntry_eq_some (h : d.findEntry devId = some i) :
    (d.table i).state ≠ .unused ∧ (d.table i).devId = devId := by
  simpa using List.find?_some h

theorem findEntry_eq_none (h : d.findEntry devId = none) (i : Fin 2)
    (hstate : (d.table i).state ≠ .unused) : (d.table i).devId ≠ devId := by
  have hi := List.find?_eq_none.mp h i (List.mem_finRange i)
  simpa [hstate] using hi

theorem Inv.findEntry (h : d.Inv) (hstate : (d.table i).state ≠ .unused) :
    d.findEntry (d.table i).devId = some i := by
  cases hentry : d.findEntry (d.table i).devId with
  | none => exact absurd rfl (findEntry_eq_none hentry i hstate)
  | some j =>
    obtain ⟨hj, hdev⟩ := findEntry_eq_some hentry
    rw [h.distinct j i hj hstate hdev]

theorem boundCount_eq (d : Driver) (devId : UInt32) :
    d.boundCount devId = (d.bound ⟨devId, 0⟩).toNat + (d.bound ⟨devId, 1⟩).toNat := by
  rw [boundCount, show List.finRange 2 = [0, 1] from rfl]
  cases h0 : d.bound ⟨devId, 0⟩ <;> cases h1 : d.bound ⟨devId, 1⟩ <;> simp [h0, h1]

theorem bound_of_boundCount (h : d.boundCount devId = 2) (p : Fin 2) : d.bound ⟨devId, p⟩ = true :=
  List.countP_eq_length.mp h p (List.mem_finRange p)

theorem Inv.stateFollows (h : d.Inv) (devId : UInt32) : d.StateFollows devId := by
  have hcount := boundCount_eq d devId
  cases hentry : d.findEntry devId with
  | none =>
    have hfree (p : Fin 2) : d.bound ⟨devId, p⟩ = false := by
      by_contra hbound
      rw [Bool.not_eq_false] at hbound
      obtain ⟨i, hstate, hdev⟩ := h.known _ hbound
      exact findEntry_eq_none hentry i hstate hdev
    have hstate : d.stateOf devId = .unused := by rw [stateOf, hentry]; rfl
    constructor <;> simp [hstate, hcount, hfree]
  | some i =>
    obtain ⟨hused, rfl⟩ := findEntry_eq_some hentry
    have hstate : d.stateOf (d.table i).devId = (d.table i).state := by rw [stateOf, hentry]; rfl
    rcases h.holds i with ⟨hfree, -, -, hbound⟩ | ⟨dev, p, a, hslot, -, hbound, -⟩ |
      ⟨dev, p, a, b, -, hslot, -, hbound, -⟩
    · have hallocated := hfree.resolve_left hused
      constructor <;> simp [hstate, hcount, hallocated, hbound hallocated]
    · have hone : d.boundCount (d.table i).devId = 1 := by
        have hsplit : ∀ p : Fin 2, (decide (0 = p)).toNat + (decide (1 = p)).toNat = 1 := by
          decide
        rw [hcount, hslot, hbound, hbound, hsplit]
      have hpartial : (d.table i).state = .partialInitialized := by rw [hslot]
      constructor <;> simp [hstate, hone, hpartial]
    · have hboth : d.boundCount (d.table i).devId = 2 := by
        rw [hcount, hslot, hbound, hbound]
        rfl
      have hinitialized : (d.table i).state = .initialized := by rw [hslot]
      constructor <;> simp [hstate, hboth, hinitialized]

theorem Inv.pointersLive (h : d.Inv) (i : Fin 2) : d.PointersLive i := by
  rcases h.holds i with ⟨-, hslot, hobj, -⟩ | ⟨dev, p, a, hslot, hobj, -, -⟩ |
    ⟨dev, p, a, b, hne, hslot, hobj, -, -⟩
  · have hdead (isPrimary : Bool) (a : Nat) : ¬d.Alive i isPrimary a := by
      rintro ⟨o, ho, hparent, -⟩
      exact hobj a o ho hparent
    constructor <;> intro a <;> rw [hslot] <;> simp [hdead]
  · have hlive (isPrimary : Bool) (b : Nat) :
        d.Alive i isPrimary b ↔ isPrimary = true ∧ a = b := by
      constructor
      · rintro ⟨o, ho, hparent, rfl⟩
        obtain ⟨rfl, rfl⟩ := (hobj b o).mp ⟨ho, hparent⟩
        exact ⟨rfl, rfl⟩
      · rintro ⟨rfl, rfl⟩
        exact ⟨_, ((hobj a _).mpr ⟨rfl, rfl⟩).1, rfl, rfl⟩
    constructor <;> intro b <;> rw [hslot] <;> simp [hlive]
  · have hlive (isPrimary : Bool) (c : Nat) :
        d.Alive i isPrimary c ↔ (if isPrimary then a else b) = c := by
      constructor
      · rintro ⟨o, ho, hparent, rfl⟩
        obtain ⟨rfl, rfl⟩ | ⟨rfl, rfl⟩ := (hobj c o).mp ⟨ho, hparent⟩
        · rfl
        · rfl
      · rintro rfl
        cases isPrimary with
        | true => exact ⟨_, ((hobj a _).mpr (.inl ⟨rfl, rfl⟩)).1, rfl, rfl⟩
        | false => exact ⟨_, ((hobj b _).mpr (.inr ⟨rfl, rfl⟩)).1, rfl, rfl⟩
    constructor <;> intro c <;> rw [hslot] <;> simp [hlive]

theorem Inv.follows (h : d.Inv) : FollowsFunctions (.ok d) :=
  ⟨h.stateFollows, h.pointersLive⟩

theorem Holds.frame (h : d.Holds j) (htable : d'.table j = d.table j)
    (hobj : ∀ a o, o.wfsParent = j → (d'.heap.obj a = some o ↔ d.heap.obj a = some o))
    (hfn : (d.table j).state ≠ .unused → ∀ q, d'.bound ⟨(d.table j).devId, q⟩ =
        d.bound ⟨(d.table j).devId, q⟩ ∧
      d'.drvdata ⟨(d.table j).devId, q⟩ = d.drvdata ⟨(d.table j).devId, q⟩) : d'.Holds j := by
  have hiff (a : Nat) (o : Adapter) : d'.heap.obj a = some o ∧ o.wfsParent = j ↔
      d.heap.obj a = some o ∧ o.wfsParent = j :=
    and_congr_left (hobj a o)
  rcases h with ⟨hstate, hslot, hnone, hbound⟩ | ⟨dev, p, a, hslot, hone, hbound, hdata⟩ |
    ⟨dev, p, a, b, hne, hslot, hboth, hbound, hdata⟩
  · refine .none (htable ▸ hstate) (htable ▸ hslot) ?_ ?_
    · intro a o ho hparent
      exact hnone a o ((hobj a o hparent).mp ho) hparent
    · rw [htable]
      intro hallocated p
      rw [(hfn (by rw [hallocated]; decide) p).1]
      exact hbound hallocated p
  · rw [hslot] at hfn
    have hsame := hfn (by simp)
    exact .one dev p a (htable.trans hslot) (fun b o => (hiff b o).trans (hone b o))
      (fun q => (hsame q).1.trans (hbound q)) ((hsame p).2.trans hdata)
  · rw [hslot] at hfn
    have hsame := hfn (by simp)
    exact .both dev p a b hne (htable.trans hslot) (fun c o => (hiff c o).trans (hboth c o))
      (fun q => (hsame q).1.trans (hbound q)) fun q => (hsame q).2.trans (hdata q)

@[simp] theorem setSlot_table_self (d : Driver) (i : Fin 2) (slot : WfsSlot) :
    (d.setSlot i slot).table i = slot :=
  Function.update_self ..

theorem setSlot_table_of_ne {slot : WfsSlot} (hj : j ≠ i) :
    (d.setSlot i slot).table j = d.table j :=
  Function.update_of_ne hj ..

theorem Inv.allocate (h : d.Inv) (hunused : (d.table i).state = .unused)
    (hentry : d.findEntry devId = none) :
    (d.setSlot i { state := .allocated, devId }).Inv := by
  have habsent (p : Fin 2) : d.bound ⟨devId, p⟩ = false := by
    by_contra hbound
    rw [Bool.not_eq_false] at hbound
    obtain ⟨k, hstate, hdev⟩ := h.known _ hbound
    exact findEntry_eq_none hentry k hstate hdev
  constructor
  · intro k
    by_cases hk : k = i
    · subst hk
      have hobj : ∀ a o, d.heap.obj a = some o → o.wfsParent ≠ k := by
        rcases h.holds k with ⟨-, -, hobj, -⟩ | ⟨dev, p, a, hslot, -, -, -⟩ |
          ⟨dev, p, a, b, -, hslot, -, -, -⟩
        · exact hobj
        · rw [hslot] at hunused
          cases hunused
        · rw [hslot] at hunused
          cases hunused
      refine .none (.inr (by simp)) (by simp) hobj fun _ p => ?_
      rw [setSlot_table_self]
      exact habsent p
    · exact (h.holds k).frame (setSlot_table_of_ne hk) (fun _ _ _ => Iff.rfl)
        fun _ _ => ⟨rfl, rfl⟩
  · intro k l hk hl hdev
    by_cases hki : k = i
    · by_cases hli : l = i
      · rw [hki, hli]
      · rw [hki, setSlot_table_self, setSlot_table_of_ne hli] at hdev
        rw [setSlot_table_of_ne hli] at hl
        exact absurd hdev.symm (findEntry_eq_none hentry l hl)
    · rw [setSlot_table_of_ne hki] at hk hdev
      by_cases hli : l = i
      · rw [hli, setSlot_table_self] at hdev
        exact absurd hdev (findEntry_eq_none hentry k hk)
      · rw [setSlot_table_of_ne hli] at hl hdev
        exact h.distinct k l hk hl hdev
  · intro g hg
    obtain ⟨k, hk, hdev⟩ := h.known g hg
    have hki : k ≠ i := fun hki => hk (hki ▸ hunused)
    exact ⟨k, by rwa [setSlot_table_of_ne hki], by rwa [setSlot_table_of_ne hki]⟩

/-- What the entry of a probe is: that of a card with an absent function, or a new one. -/
structure Got (d d₁ : Driver) (i : Fin 2) (f : PciFn) : Prop where
  inv : d₁.Inv
  absent : d₁.bound f = false
  devId : (d₁.table i).devId = f.devId
  state : (d₁.table i).state = .allocated ∨ (d₁.table i).state = .partialInitialized
  bound : d₁.bound = d.bound

theorem Inv.getAdapter (h : d.Inv) (hf : d.bound f = false) {d₁ : Driver}
    (hget : d.ixgbeWfsGetAdapter f.devId = some (i, d₁)) : Got d d₁ i f := by
  rw [ixgbeWfsGetAdapter] at hget
  cases hentry : d.findEntry f.devId with
  | some j =>
    obtain ⟨hused, hdev⟩ := findEntry_eq_some hentry
    simp only [hentry, Option.some.injEq, Prod.mk.injEq] at hget
    obtain ⟨rfl, rfl⟩ := hget
    refine ⟨h, hf, hdev, ?_, rfl⟩
    rcases h.holds j with ⟨hfree, -, -, -⟩ | ⟨dev, p, a, hslot, -, -, -⟩ |
      ⟨dev, p, a, b, -, hslot, -, hbound, -⟩
    · exact .inl (hfree.resolve_left hused)
    · exact .inr (by rw [hslot])
    · rw [hslot] at hdev
      obtain rfl : dev = f.devId := hdev
      rw [hbound f.port] at hf
      cases hf
  | none =>
    simp only [hentry] at hget
    split at hget
    · next j hfind =>
      have hunused : (d.table j).state = .unused := by simpa using List.find?_some hfind
      obtain ⟨rfl, rfl⟩ := hget
      exact ⟨h.allocate hunused hentry, hf, by simp, .inl (by simp), rfl⟩
    · cases hget

/-! ## The calls -/

section Follow

variable {p : SlotPtr} {a : Nat} {o : Adapter}

@[simp] theorem deref_none (d : Driver) (p : SlotPtr) : d.deref p none = .error (.null p) := rfl

theorem deref_some (p : SlotPtr) (h : d.heap.obj a = some o) : d.deref p (some a) = .ok o := by
  simp only [deref, h]

theorem deref_released (p : SlotPtr) (h : d.heap.obj a = none) :
    d.deref p (some a) = .error (.released p) := by
  simp only [deref, h]

theorem freeNetdev_some (h : d.heap.obj a = some o) :
    d.freeNetdev (some a) = .ok (d.withHeap (d.heap.release a)) := by
  rw [freeNetdev, deref_some .ndev h]
  rfl

theorem setRegistered_some (p : SlotPtr) (registered : Bool) (h : d.heap.obj a = some o) :
    d.setRegistered p (some a) registered = .ok (d.withHeap (d.heap.modify a fun o =>
      { o with netdevRegistered := registered })) := by
  rw [setRegistered, deref_some p h]
  rfl

theorem setRegistered_released (p : SlotPtr) (registered : Bool) (h : d.heap.obj a = none) :
    d.setRegistered p (some a) registered = .error (.released p) := by
  rw [setRegistered, deref_released p h]
  rfl

@[simp] theorem withHeap_heap (d : Driver) (h : Heap Adapter) : (d.withHeap h).heap = h := rfl

@[simp] theorem withHeap_table (d : Driver) (h : Heap Adapter) :
    (d.withHeap h).table = d.table := rfl

@[simp] theorem setSlot_heap (d : Driver) (i : Fin 2) (slot : WfsSlot) :
    (d.setSlot i slot).heap = d.heap := rfl

end Follow

variable {a : Nat} {o : Adapter} {res : ProbeResults}

theorem remove_one (hdata : d.drvdata f = some a) (hpri : d.heap.obj a = some ⟨i, true, f, false⟩)
    (hslot : d.table i = ⟨.partialInitialized, devId, some a, none, some a⟩) :
    d.call (.remove f) = .error (.null .secondary) := by
  simp [call, ixgbeRemove, hdata, deref_some _ hpri, hslot]

theorem remove_both {b c : Nat} (hne : a ≠ b) (hdata : d.drvdata f = some c)
    (hadapter : d.heap.obj c = some o) (hparent : o.wfsParent = i)
    (hpri : d.heap.obj a = some ⟨i, true, g, true⟩)
    (hsec : d.heap.obj b = some ⟨i, false, g', true⟩)
    (hslot : d.table i = ⟨.initialized, devId, some a, some b, some a⟩) :
    d.call (.remove f) = .error (.released .primary) := by
  have hsec' (slot : WfsSlot) :
      ((d.withHeap (d.heap.release a)).setSlot i slot).heap.obj b = some ⟨i, false, g', true⟩ := by
    rw [setSlot_heap, withHeap_heap, release_obj_of_ne hne.symm, hsec]
  have hreleased (e : Driver) (set : Adapter → Adapter) :
      (e.withHeap ((d.heap.release a).modify b set)).heap.obj a = none := by
    rw [withHeap_heap, modify_obj_of_ne hne, release_obj_self]
  simp [call, ixgbeRemove, hdata, deref_some _ hadapter, hparent, deref_some _ hpri, hslot,
    freeNetdev_some hpri, setRegistered_some .secondary false (hsec' _),
    setRegistered_released .primary false (hreleased _ _)]

theorem Inv.remove (h : d.Inv) (hf : d.bound f = true) : ∃ e, d.call (.remove f) = .error e := by
  obtain ⟨i, hused, hdev⟩ := h.known f hf
  rcases h.holds i with ⟨hfree, -, -, hbound⟩ | ⟨dev, p, a, hslot, hobj, hbound, hdata⟩ |
    ⟨dev, p, a, b, hne, hslot, hobj, -, hdata⟩
  · have habsent := hbound (hfree.resolve_left hused) f.port
    rw [hdev, show PciFn.mk f.devId f.port = f from rfl, hf] at habsent
    cases habsent
  · rw [hslot] at hdev
    obtain rfl : dev = f.devId := hdev
    have hport := hbound f.port
    rw [show PciFn.mk f.devId f.port = f from rfl, hf] at hport
    obtain rfl := of_decide_eq_true hport.symm
    obtain ⟨hpri, -⟩ := (hobj a _).mpr ⟨rfl, rfl⟩
    exact ⟨_, remove_one hdata hpri hslot⟩
  · rw [hslot] at hdev
    obtain rfl : dev = f.devId := hdev
    obtain ⟨hpri, -⟩ := (hobj a _).mpr (.inl ⟨rfl, rfl⟩)
    obtain ⟨hsec, -⟩ := (hobj b _).mpr (.inr ⟨rfl, rfl⟩)
    have hown := hdata f.port
    split at hown
    · exact ⟨_, remove_both hne hown hpri rfl hpri hsec hslot⟩
    · exact ⟨_, remove_both hne hown hsec rfl hpri hsec hslot⟩

@[simp] theorem newAdapter_obj_next (d : Driver) (i : Fin 2) (isPrimary : Bool) (f : PciFn) :
    (d.newAdapter i isPrimary f).heap.obj d.heap.next = some ⟨i, isPrimary, f, false⟩ :=
  alloc_obj_next ..

@[simp] theorem newAdapter_table (d : Driver) (i : Fin 2) (isPrimary : Bool) (f : PciFn) :
    (d.newAdapter i isPrimary f).table = d.table := rfl

theorem probeFails_first (step : ProbeStep) (d : Driver) (i : Fin 2) (f : PciFn) :
    step = .enableDevice ∨ (∃ e, d.probeFails i true f step = .error e) ∨
      d.probeFails i true f step = .ok (d.newAdapter i true f) := by
  have hnew := newAdapter_obj_next d i true f
  cases step <;>
    simp [probeFails, errDma, errAllocEtherdev, errIoremap, errSwInit, touchPrimary,
      deref_some _ hnew, pure, Except.pure]

theorem errIoremap_second {adapter : Option Nat} (hpri : d.heap.obj a = some o)
    (hprimary : (d.table i).primary = some a) :
    d.errIoremap i false adapter (some a) = .error (.released .primary) := by
  have hreleased := deref_released (d := d.withHeap (d.heap.release a)) .primary
    (release_obj_self d.heap a)
  simp [errIoremap, errAllocEtherdev, touchPrimary, freeNetdev_some hpri, hprimary, hreleased]

theorem probeFails_second (step : ProbeStep) (hpri : d.heap.obj a = some o)
    (hslot : d.table i = ⟨.partialInitialized, devId, some a, none, some a⟩) :
    step = .enableDevice ∨ ∃ e, d.probeFails i false f step = .error e := by
  have hnew := newAdapter_obj_next d i false f
  have hold : (d.newAdapter i false f).heap.obj a = some o := alloc_obj_of_some _ hpri
  have hunwind {adapter : Option Nat} : (d.newAdapter i false f).errIoremap i false adapter
      (some a) = .error (.released .primary) :=
    errIoremap_second hold (by rw [newAdapter_table, hslot])
  cases step <;>
    simp [probeFails, errDma, errAllocEtherdev, errSwInit, touchPrimary, hslot, hunwind,
      deref_some _ hnew, deref_some _ hpri, deref_some _ hold]

def withPrimary (i : Fin 2) (f : PciFn) (d : Driver) : Driver :=
  (d.newAdapter i true f).setSlot i
    ⟨.partialInitialized, f.devId, some d.heap.next, none, some d.heap.next⟩

/-- The second function has its adapter, next to the primary one at `a`. -/
def withSecondary (i : Fin 2) (f : PciFn) (a : Nat) (d : Driver) : Driver :=
  (d.newAdapter i false f).setSlot i
    ⟨.initialized, f.devId, some a, some d.heap.next, some a⟩

theorem probeSucceeds_first (hslot : d.table i = ⟨.allocated, f.devId, none, none, none⟩) :
    d.probeSucceeds i true f = .ok (d.withPrimary i f) := by
  have hnew := newAdapter_obj_next d i true f
  simp [probeSucceeds, withPrimary, hslot, deref_some _ hnew, pure, Except.pure]

theorem probeSucceeds_second (hpri : d.heap.obj a = some o)
    (hslot : d.table i = ⟨.partialInitialized, f.devId, some a, none, some a⟩) :
    d.probeSucceeds i false f = .ok (d.withSecondary i f a) := by
  have hold : (d.newAdapter i false f).heap.obj a = some o := alloc_obj_of_some _ hpri
  simp [probeSucceeds, withSecondary, hslot, deref_some _ hold, pure, Except.pure]

def registered (a b : Nat) (d : Driver) : Driver :=
  let mark (o : Adapter) := { o with netdevRegistered := true }
  d.withHeap ((d.heap.modify b mark).modify a mark)

theorem registerNetdev_ok {b : Nat} {o' : Adapter} (hne : a ≠ b) (hpri : d.heap.obj a = some o)
    (hsec : d.heap.obj b = some o')
    (hslot : d.table i = ⟨.initialized, devId, some a, some b, some a⟩)
    (hres : res.registered = true) :
    d.registerNetdev i res = .ok (res.init2, d.registered a b) := by
  have hpri' (set : Adapter → Adapter) :
      (d.withHeap (d.heap.modify b set)).heap.obj a = some o := by
    rw [withHeap_heap, modify_obj_of_ne hne, hpri]
  simp only [registerNetdev, hslot, deref_some _ hpri, ok_bind, hres, if_true,
    setRegistered_some _ _ hsec, setRegistered_some _ _ (hpri' _)]
  rfl

theorem registerNetdev_fails {b : Nat} (hpri : d.heap.obj a = some o)
    (hslot : d.table i = ⟨.initialized, devId, some a, some b, some a⟩)
    (hres : res.registered = false) : d.registerNetdev i res = .error (.released .primary) := by
  have hreleased := deref_released (d := d.withHeap (d.heap.release a)) .primary
    (release_obj_self d.heap a)
  simp [registerNetdev, hslot, deref_some _ hpri, hres, freeNetdev_some hpri, hreleased]

theorem Inv.of_entry (h : d.Inv) (hused : (d.table i).state ≠ .unused)
    (hdev : (d.table i).devId = f.devId) (hholds : d'.Holds i)
    (hused' : (d'.table i).state ≠ .unused) (hdev' : (d'.table i).devId = f.devId)
    (htable : ∀ j, j ≠ i → d'.table j = d.table j)
    (hobj : ∀ a o, o.wfsParent ≠ i → (d'.heap.obj a = some o ↔ d.heap.obj a = some o))
    (hfn : ∀ g, g ≠ f → d'.bound g = d.bound g ∧ d'.drvdata g = d.drvdata g) : d'.Inv := by
  have hstate (j : Fin 2) : (d'.table j).state ≠ .unused ↔ (d.table j).state ≠ .unused := by
    by_cases hj : j = i
    · rw [hj]
      exact iff_of_true hused' hused
    · rw [htable j hj]
  have hdevs (j : Fin 2) : (d'.table j).devId = (d.table j).devId := by
    by_cases hj : j = i
    · rw [hj, hdev', hdev]
    · rw [htable j hj]
  constructor
  · intro j
    by_cases hj : j = i
    · exact hj ▸ hholds
    · refine (h.holds j).frame (htable j hj) (fun a o ho => hobj a o (ho ▸ hj)) fun hjused q => ?_
      -- the function belongs to the card of the changed entry
      refine hfn _ fun hq => hj (h.distinct j i hjused hused ?_)
      rw [hdev, ← hq]
  · intro j k hj hk hjk
    rw [hdevs, hdevs] at hjk
    exact h.distinct j k ((hstate j).mp hj) ((hstate k).mp hk) hjk
  · intro g hg
    by_cases hgf : g = f
    · exact ⟨i, hused', hgf ▸ hdev'⟩
    · rw [(hfn g hgf).1] at hg
      obtain ⟨j, hj, hjdev⟩ := h.known g hg
      exact ⟨j, (hstate j).mpr hj, (hdevs j).trans hjdev⟩

theorem registered_obj_iff {b c : Nat} {o' x : Adapter} (hne : a ≠ b) (hpri : d.heap.obj a = some o)
    (hsec : d.heap.obj b = some o') :
    (d.registered a b).heap.obj c = some x ↔
      (c = a ∧ x = { o with netdevRegistered := true }) ∨
      (c = b ∧ x = { o' with netdevRegistered := true }) ∨
      (c ≠ a ∧ c ≠ b ∧ d.heap.obj c = some x) := by
  rw [registered, withHeap_heap]
  by_cases ha : c = a
  · subst ha
    simp [modify_obj_of_ne hne, hpri, hne, eq_comm]
  · rw [modify_obj_of_ne ha]
    by_cases hb : c = b
    · subst hb
      simp [hsec, ha, eq_comm]
    · rw [modify_obj_of_ne hb]
      simp [ha, hb]

theorem ports_of_ne {p q : Fin 2} (h : q ≠ p) : 1 - p = q ∧ ∀ r, r = p ∨ r = q := by
  revert p q
  decide

theorem Inv.first (h : d.Inv) (hslot : d.table i = ⟨.allocated, f.devId, none, none, none⟩) :
    ((d.withPrimary i f).withBound f true).Inv := by
  have hobjs {a : Nat} {o : Adapter} : (d.newAdapter i true f).heap.obj a = some o ↔
      (a = d.heap.next ∧ o = ⟨i, true, f, false⟩) ∨ d.heap.obj a = some o :=
    alloc_obj_iff
  rcases h.holds i with ⟨-, -, hnone, hbound⟩ | ⟨dev, p, a, hslot', -, -, -⟩ |
    ⟨dev, p, a, b, -, hslot', -, -, -⟩
  · refine h.of_entry (i := i) (f := f) (by simp [hslot]) (by rw [hslot]) ?_
      (by simp [withBound, withPrimary]) (by simp [withBound, withPrimary])
      (fun j hj => setSlot_table_of_ne hj) ?_ ?_
    · refine .one f.devId f.port d.heap.next (setSlot_table_self ..) (fun b o => ?_)
        (fun q => ?_) (Function.update_self ..)
      · show (d.newAdapter i true f).heap.obj b = some o ∧ _ ↔ _
        rw [hobjs]
        constructor
        · rintro ⟨hnew | hold, hparent⟩
          · exact hnew
          · exact absurd hparent (hnone b o hold)
        · rintro ⟨rfl, rfl⟩
          exact ⟨.inl ⟨rfl, rfl⟩, rfl⟩
      · show Function.update d.bound f true ⟨f.devId, q⟩ = _
        by_cases hq : q = f.port
        · subst hq
          rw [decide_eq_true rfl]
          exact Function.update_self ..
        · rw [decide_eq_false hq, Function.update_of_ne fun hqf => hq (congrArg PciFn.port hqf)]
          rw [hslot] at hbound
          exact hbound rfl q
    · intro a o hparent
      refine hobjs.trans (or_iff_right ?_)
      rintro ⟨-, rfl⟩
      exact hparent rfl
    · intro g hg
      exact ⟨Function.update_of_ne hg .., Function.update_of_ne hg ..⟩
  · rw [hslot] at hslot'
    cases hslot'
  · rw [hslot] at hslot'
    cases hslot'

theorem Inv.second (h : d.Inv) (hf : d.bound f = false)
    (hslot : d.table i = ⟨.partialInitialized, f.devId, some a, none, some a⟩) :
    (((d.withSecondary i f a).registered a d.heap.next).withBound f true).Inv := by
  rcases h.holds i with ⟨hfree, -, -, -⟩ | ⟨dev, p, a', hslot', hone, hbound, hdata⟩ |
    ⟨dev, p, a', b, -, hslot', -, -, -⟩
  · rw [hslot] at hfree
    simp at hfree
  · obtain ⟨-, rfl, hprimary, -⟩ := WfsSlot.mk.inj (hslot.symm.trans hslot')
    cases hprimary
    obtain ⟨hpri, -⟩ := (hone a _).mpr ⟨rfl, rfl⟩
    -- the one adapter of the slot is the other port's, since this function is not bound yet
    have hne : a ≠ d.heap.next := Nat.ne_of_lt (lt_next hpri)
    have hport : f.port ≠ p := by
      rintro rfl
      rw [hbound f.port, decide_eq_true rfl] at hf
      cases hf
    obtain ⟨hother, hports⟩ := ports_of_ne hport
    have hold : (d.newAdapter i false f).heap.obj a = _ := alloc_obj_of_some _ hpri
    have hobjs {c : Nat} {o : Adapter} := registered_obj_iff (d := d.withSecondary i f a)
      (c := c) (x := o) hne hold (newAdapter_obj_next d i false f)
    have hrest {c : Nat} {o : Adapter} : (c ≠ a ∧ c ≠ d.heap.next ∧
        (d.newAdapter i false f).heap.obj c = some o) ↔ c ≠ a ∧ d.heap.obj c = some o := by
      rw [show (d.newAdapter i false f).heap.obj c = some o ↔ _ from alloc_obj_iff]
      constructor
      · rintro ⟨ha, hnext, ⟨hc, -⟩ | hc⟩
        · exact absurd hc hnext
        · exact ⟨ha, hc⟩
      · rintro ⟨ha, hc⟩
        exact ⟨ha, Nat.ne_of_lt (lt_next hc), .inr hc⟩
    refine h.of_entry (i := i) (f := f) (by simp [hslot]) (by rw [hslot]) ?_
      (by simp [withBound, registered, withSecondary])
      (by simp [withBound, registered, withSecondary]) (fun j hj => setSlot_table_of_ne hj)
      ?_ ?_
    · refine .both f.devId p a d.heap.next hne (setSlot_table_self ..) (fun c o => ?_)
        (fun q => ?_) fun q => ?_
      · refine (and_congr_left fun _ => hobjs).trans ?_
        rw [hother]
        constructor
        · rintro ⟨⟨rfl, rfl⟩ | ⟨rfl, rfl⟩ | hc, hparent⟩
          · exact .inl ⟨rfl, rfl⟩
          · exact .inr ⟨rfl, rfl⟩
          · obtain ⟨ha, hc⟩ := hrest.mp hc
            exact absurd ((hone c o).mp ⟨hc, hparent⟩).1 ha
        · rintro (⟨rfl, rfl⟩ | ⟨rfl, rfl⟩)
          · exact ⟨.inl ⟨rfl, rfl⟩, rfl⟩
          · exact ⟨.inr (.inl ⟨rfl, rfl⟩), rfl⟩
      · show Function.update d.bound f true ⟨f.devId, q⟩ = true
        rcases hports q with rfl | rfl
        · rw [Function.update_of_ne fun hq => hport (congrArg PciFn.port hq).symm, hbound]
          exact decide_eq_true rfl
        · exact Function.update_self ..
      · show Function.update d.drvdata f _ ⟨f.devId, q⟩ = _
        rcases hports q with rfl | rfl
        · rw [Function.update_of_ne fun hq => hport (congrArg PciFn.port hq).symm, hdata,
            if_pos rfl]
        · rw [if_neg hport]
          exact Function.update_self ..
    · intro c o hparent
      refine hobjs.trans ?_
      constructor
      · rintro (⟨rfl, rfl⟩ | ⟨rfl, rfl⟩ | hc)
        · exact absurd rfl hparent
        · exact absurd rfl hparent
        · exact (hrest.mp hc).2
      · intro hc
        refine .inr (.inr (hrest.mpr ⟨?_, hc⟩))
        rintro rfl
        rw [hpri] at hc
        cases hc
        exact hparent rfl
    · intro g hg
      exact ⟨Function.update_of_ne hg .., Function.update_of_ne hg ..⟩
  · rw [hslot] at hslot'
    cases hslot'

theorem withBound_of_absent (hf : d.bound f = false) : d.withBound f false = d := by
  rw [withBound, ← hf, Function.update_eq_self]

/-- What a probe may come to: the invariant again, a fault, or an entry that does not follow. -/
def Comes (f : PciFn) (good : Prop) (r : Except SlotFault (Bool × Driver)) : Prop :=
  (good → ∃ ok d', r = .ok (ok, d') ∧ (d'.withBound f ok).Inv) ∧
    (¬good → (∃ e, r = .error e) ∨
      ∃ ok d', r = .ok (ok, d') ∧ ¬FollowsFunctions (.ok (d'.withBound f ok)))

section Entry

variable {isPrimary : Bool} {step : ProbeStep} {res : ProbeResults} {e : SlotFault} {ok : Bool}

theorem ixgbeWfsProbe_eq (f : PciFn) (fails : Option ProbeStep)
    (hrole : decide ((d.table i).state = .allocated) = isPrimary) :
    d.ixgbeWfsProbe i f fails = match fails.filter (·.taken isPrimary) with
      | some step => (false, ·) <$> d.probeFails i isPrimary f step
      | none => (true, ·) <$> d.probeSucceeds i isPrimary f := by
  rw [ixgbeWfsProbe, hrole]
  cases fails.filter (·.taken isPrimary) <;> simp

theorem probeEntry_error (hstate : (d.table i).state ≠ .initialized)
    (h : d.ixgbeWfsProbe i f res.fails = .error e) : d.probeEntry i f res = .error e := by
  rw [probeEntry, if_neg hstate, h]
  rfl

theorem probeEntry_ok (hstate : (d.table i).state ≠ .initialized)
    (h : d.ixgbeWfsProbe i f res.fails = .ok (ok, d')) :
    d.probeEntry i f res = if (d'.table i).state = .initialized then d'.registerNetdev i res
      else .ok (ok, d') := by
  rw [probeEntry, if_neg hstate, h]
  rfl

theorem Inv.probeEntry_first (h : d.Inv) (hf : d.bound f = false)
    (hslot : d.table i = ⟨.allocated, f.devId, none, none, none⟩) (res : ProbeResults) :
    Comes f (res.fails = some .enableDevice ∨ res.fails.filter (·.taken true) = none)
      (d.probeEntry i f res) := by
  have hstate : (d.table i).state ≠ .initialized := by simp [hslot]
  have hrole : decide ((d.table i).state = .allocated) = true := by rw [hslot]; rfl
  have hprobe := ixgbeWfsProbe_eq f res.fails hrole
  cases hfilter : res.fails.filter (·.taken true) with
  | none =>
    refine ⟨fun _ => ⟨true, _, ?_, h.first hslot⟩, fun hnot => absurd (.inr rfl) hnot⟩
    rw [hfilter, probeSucceeds_first hslot] at hprobe
    rw [probeEntry_ok hstate hprobe, if_neg (by simp [withPrimary])]
  | some step =>
    obtain ⟨hfails, -⟩ := Option.filter_eq_some_iff.mp hfilter
    rw [hfilter] at hprobe
    by_cases hstep : step = .enableDevice
    · subst hstep
      refine ⟨fun _ => ⟨false, d, ?_, ?_⟩, fun hnot => absurd (.inl hfails) hnot⟩
      · rw [probeEntry_ok hstate hprobe, if_neg hstate]
      · rwa [withBound_of_absent hf]
    · have hbad : ¬(res.fails = some .enableDevice ∨ some step = none) := by
        simpa [hfails] using hstep
      refine ⟨fun hgood => absurd hgood hbad, fun _ => ?_⟩
      rcases (probeFails_first step d i f).resolve_left hstep with ⟨e, herr⟩ | hleft
      · simp only [herr] at hprobe
        exact .inl ⟨e, probeEntry_error hstate hprobe⟩
      · simp only [hleft] at hprobe
        refine .inr ⟨false, _, by rw [probeEntry_ok hstate hprobe, newAdapter_table,
          if_neg hstate], ?_⟩
        -- the net device left behind is alive, and no pointer of the entry leads to it
        rintro ⟨-, hptr⟩
        have halive : ((d.newAdapter i true f).withBound f false).Alive i true d.heap.next :=
          ⟨_, newAdapter_obj_next d i true f, rfl, rfl⟩
        have hprimary := ((hptr i).primary d.heap.next).mpr halive
        rw [show ((d.newAdapter i true f).withBound f false).table i = d.table i from rfl,
          hslot] at hprimary
        cases hprimary

theorem Inv.not_follows (h : (d.withBound f true).Inv)
    (hstate : (d.table i).state = .initialized) (hdev : (d.table i).devId = f.devId) :
    ¬FollowsFunctions (.ok (d.withBound f false)) := by
  intro hfollows
  have hentry : (d.withBound f false).findEntry f.devId = some i :=
    hdev ▸ h.findEntry (i := i) (show (d.table i).state ≠ .unused by simp [hstate])
  have hboth : (d.withBound f false).stateOf f.devId = .initialized := by
    rw [stateOf, hentry]
    exact hstate
  have hbound := bound_of_boundCount ((hfollows.1 f.devId).both.mp hboth) f.port
  have habsent : (d.withBound f false).bound f = false := Function.update_self ..
  rw [habsent] at hbound
  cases hbound

theorem Inv.probeEntry_second {a : Nat} (h : d.Inv) (hf : d.bound f = false)
    (hslot : d.table i = ⟨.partialInitialized, f.devId, some a, none, some a⟩)
    (res : ProbeResults) :
    Comes f (res.fails = some .enableDevice ∨ res.fails.filter (·.taken false) = none ∧
      res.registered = true ∧ res.init2 = true) (d.probeEntry i f res) := by
  have hstate : (d.table i).state ≠ .initialized := by simp [hslot]
  have hrole : decide ((d.table i).state = .allocated) = false := by rw [hslot]; rfl
  have hprobe := ixgbeWfsProbe_eq f res.fails hrole
  obtain ⟨o, hpri, -, -⟩ := ((h.pointersLive i).primary a).mp (by rw [hslot])
  cases hfilter : res.fails.filter (·.taken false) with
  | none =>
    rw [hfilter, probeSucceeds_second hpri hslot] at hprobe
    rw [probeEntry_ok hstate hprobe, if_pos (by simp [withSecondary])]
    have hold : (d.newAdapter i false f).heap.obj a = some o := alloc_obj_of_some _ hpri
    have henabled : res.fails ≠ some .enableDevice := by
      intro hfails
      rw [hfails] at hfilter
      cases hfilter
    cases hregistered : res.registered with
    | false =>
      refine ⟨fun hgood => ?_, fun _ => .inl ⟨_, registerNetdev_fails hold
        (setSlot_table_self ..) hregistered⟩⟩
      simp [henabled] at hgood
    | true =>
      rw [registerNetdev_ok (d := d.withSecondary i f a) (Nat.ne_of_lt (lt_next hpri))
        hold (newAdapter_obj_next d i false f) (setSlot_table_self ..) hregistered]
      have hinv := h.second hf hslot
      cases hinit : res.init2 with
      | true => exact ⟨fun _ => ⟨true, _, rfl, hinv⟩, fun hnot => absurd (by simp) hnot⟩
      | false =>
        refine ⟨fun hgood => by simp [henabled] at hgood, fun _ => .inr ⟨false, _, rfl, ?_⟩⟩
        exact hinv.not_follows (i := i) (by simp [registered, withSecondary])
          (by simp [registered, withSecondary])
  | some step =>
    obtain ⟨hfails, -⟩ := Option.filter_eq_some_iff.mp hfilter
    rw [hfilter] at hprobe
    by_cases hstep : step = .enableDevice
    · subst hstep
      refine ⟨fun _ => ⟨false, d, ?_, ?_⟩, fun hnot => absurd (.inl hfails) hnot⟩
      · rw [probeEntry_ok hstate hprobe, if_neg hstate]
      · rwa [withBound_of_absent hf]
    · refine ⟨fun hgood => ?_, fun _ => ?_⟩
      · simp [hfails, hstep] at hgood
      · obtain ⟨e, herr⟩ := (probeFails_second (f := f) step hpri hslot).resolve_left hstep
        simp only [herr] at hprobe
        exact .inl ⟨e, probeEntry_error hstate hprobe⟩

end Entry

theorem Got.probeEntry {d₁ : Driver} (h : Got d d₁ i f) (res : ProbeResults) :
    Comes f (res.fails = some .enableDevice ∨
      res.fails.filter (·.taken ((d₁.table i).state = .allocated)) = none ∧
        ((d₁.table i).state = .partialInitialized → res.registered ∧ res.init2))
      (d₁.probeEntry i f res) := by
  have hdev := h.devId
  rcases h.inv.holds i with ⟨hfree, hslot, -, -⟩ | ⟨dev, p, a, hslot, -, -, -⟩ |
    ⟨dev, p, a, b, -, hslot, -, -, -⟩
  · have hallocated : (d₁.table i).state = .allocated := by
      rcases h.state with hstate | hstate
      · exact hstate
      · rw [hstate] at hfree
        simp at hfree
    rw [hallocated, hdev] at hslot
    have hfirst := h.inv.probeEntry_first h.absent hslot res
    simpa [hallocated] using hfirst
  · rw [hslot] at hdev
    obtain rfl : dev = f.devId := hdev
    have hsecond := h.inv.probeEntry_second h.absent hslot res
    simpa [hslot] using hsecond
  · rcases h.state with hstate | hstate
    · rw [hslot] at hstate
      cases hstate
    · rw [hslot] at hstate
      cases hstate

variable {c : PciCall}

theorem Inv.call (h : d.Inv) (hen : d.enabled c = true) :
    (Harmless (.ok d) c → ∃ d', d.call c = .ok d' ∧ d'.Inv) ∧
      (FollowsFunctions (d.call c) → Harmless (.ok d) c) := by
  cases c with
  | remove f =>
    refine ⟨False.elim, fun hfollows => ?_⟩
    obtain ⟨e, herr⟩ := h.remove hen
    rw [herr] at hfollows
    exact hfollows.elim
  | probe f res =>
    have hf : d.bound f = false := by simpa [enabled] using hen
    cases hget : d.ixgbeWfsGetAdapter f.devId with
    | none =>
      have hcall : d.call (.probe f res) = .ok (d.withBound f false) := by
        simp [Driver.call, ixgbeProbe, hget, pure, Except.pure]
      rw [withBound_of_absent hf] at hcall
      refine ⟨fun _ => ⟨d, hcall, h⟩, fun _ i d₁ hget' => ?_⟩
      rw [hget] at hget'
      cases hget'
    | some e =>
      obtain ⟨i, d₁⟩ := e
      obtain ⟨hgood, hbad⟩ := (h.getAdapter hf hget).probeEntry res
      have hcall : d.call (.probe f res) = (do
          let (ok, d) ← d₁.probeEntry i f res
          return d.withBound f ok) := by
        simp only [Driver.call, ixgbeProbe, hget]
      constructor
      · intro hharmless
        obtain ⟨ok, d', hentry, hinv⟩ := hgood (hharmless i d₁ hget)
        refine ⟨d'.withBound f ok, ?_, hinv⟩
        rw [hcall, hentry]
        rfl
      · intro hfollows
        by_contra hharmless
        have hnot := fun hgood => hharmless fun i' d' hget' => by
          rw [hget] at hget'
          obtain ⟨rfl, rfl⟩ := hget'
          exact hgood
        rcases hbad hnot with ⟨e, herr⟩ | ⟨ok, d', hentry, hno⟩
        · rw [hcall, herr] at hfollows
          exact hfollows.elim
        · rw [hcall, hentry] at hfollows
          exact hno hfollows

theorem callStep_unique {s t t' : Except SlotFault Driver} (h : CallStep s c t)
    (h' : CallStep s c t') : t = t' := by
  cases s with
  | error e => exact h.elim
  | ok d => exact h.2.symm.trans h'.2

/-- **Slot life cycle.** Along any probes and removes of the functions of any cards, the state
    of every entry follows the functions bound, its pointers lead to its live objects, and no
    null or released pointer is followed, exactly if every call is harmless: there is no
    remove, a probe that gets an entry fails at `pci_enable_device_mem` or nowhere, and the
    second one of a card has the net device registered and `ixgbe_wfs_init2` succeed. -/
theorem slot_follows_functions_iff {calls : List PciCall} {r : Except SlotFault Driver}
    (h : Run CallStep (.ok loaded) calls r) :
    Always CallStep FollowsFunctions (.ok loaded) calls ↔
      Run (Guarded CallStep Harmless) (.ok loaded) calls r := by
  refine always_iff_guarded (T := CallStep) (fun _ _ _ _ => callStep_unique)
    (I := fun s => ∃ d : Driver, s = .ok d ∧ d.Inv) ?_ ?_ h ⟨loaded, rfl, inv_loaded⟩
  · rintro _ ⟨d, rfl, hinv⟩
    exact hinv.follows
  · rintro _ c t ⟨d, rfl, hinv⟩ ⟨hen, rfl⟩
    exact hinv.call hen

def bothProbed : List PciCall := [.probe ⟨0x100, 0⟩ {}, .probe ⟨0x100, 1⟩ {}]

theorem slot_follows_functions_bothProbed :
    ∃ d, Run CallStep (.ok loaded) bothProbed (.ok d) ∧ (d.table 0).state = .initialized ∧
      Always CallStep FollowsFunctions (.ok loaded) bothProbed := by
  have hfirst : CallStep (.ok loaded) (.probe ⟨0x100, 0⟩ {}) (loaded.call (.probe ⟨0x100, 0⟩ {})) :=
    ⟨rfl, rfl⟩
  have hharmless (d : Driver) (f : PciFn) : Harmless (.ok d) (.probe f {}) :=
    fun _ _ _ => .inr ⟨rfl, fun _ => ⟨rfl, rfl⟩⟩
  obtain ⟨d, hsecond, hstate⟩ : ∃ d, CallStep (loaded.call (.probe ⟨0x100, 0⟩ {}))
      (.probe ⟨0x100, 1⟩ {}) (.ok d) ∧ (d.table 0).state = .initialized :=
    ⟨_, ⟨rfl, rfl⟩, rfl⟩
  have hrun : Run CallStep (.ok loaded) bothProbed (.ok d) := .cons hfirst (.single hsecond)
  exact ⟨d, hrun, hstate, (slot_follows_functions_iff hrun).mpr
    (.cons ⟨hharmless _ _, hfirst⟩ (.single ⟨hharmless _ _, hsecond⟩))⟩

def removedAlone : List PciCall := [.probe ⟨0x100, 0⟩ {}, .remove ⟨0x100, 0⟩]

/-- Its remove follows the null pointer to the secondary adapter. -/
theorem slot_fault_of_removedAlone :
    Run CallStep (.ok loaded) removedAlone (.error (.null .secondary)) ∧
      ¬Always CallStep FollowsFunctions (.ok loaded) removedAlone := by
  have hrun : Run CallStep (.ok loaded) removedAlone (.error (.null .secondary)) :=
    .cons (t := (loaded.call (.probe ⟨0x100, 0⟩ {}))) ⟨rfl, rfl⟩ (.single ⟨rfl, rfl⟩)
  exact ⟨hrun, fun h => h _ _ List.prefix_rfl hrun⟩

end Driver

end VmkDrivers.Wfs
