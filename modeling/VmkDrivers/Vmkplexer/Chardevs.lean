/-
  VmkDrivers.Vmkplexer.Chardevs

  The major and minor numbers of character devices (`vmkplexer_chardevs.c`).

  Pointers are addresses; `minorInfos` and `chardevs` are the memory behind them,
  with `none` where nothing is allocated.  What `vmk_HeapAlloc` returns is given
  with what the memory holds.  A function here is one section under
  `chardevRegSem`; it fails with a `Fault` where a `VMK_ASSERT` does, or where it
  follows a pointer into memory that is not allocated.
-/

import VmkDrivers.Lib.Bitset

namespace VmkDrivers.Vmkplexer

open VmkDrivers.Lib

/-- `VMKPLXR_MISC_MAJOR`, `VMKPLXR_DYNAMIC_MAJOR` and `VMKPLXR_DYNAMIC_MINOR` -/
def miscMajor : Nat := 10

def dynamicMajor : Nat := 0

def dynamicMinor : Nat := 255

/-- `MAJOR_BITSETS` and `BITSETS_PER_MINOR` -/
def bitsets : Nat := 8

/-- `VMK_ReturnStatus`, as far as it is told apart here. -/
inductive VmkStatus where
  | ok
  | badParam
  | noMemory
  | busy
  | failure
deriving DecidableEq, Repr

/-- A `VMK_ASSERT` on what was passed or on the tables, or a pointer to nowhere. -/
inductive Fault where
  | argument
  | assertion
  | pointer
deriving DecidableEq, Repr

structure VmkplxrCharDev where
  major : Nat
  minor : Nat
  vmkHandle : Nat
  unregPending : Bool
deriving DecidableEq, Repr

structure VmkplxrMinorInfo where
  minorsFreeBitset : Nat → BitVec 32
  chardevMinors : Nat → Option Nat

structure Chardevs where
  majorsFreeBitset : Nat → BitVec 32
  minorInfoPerMajor : Nat → Option Nat
  minorInfos : Nat → Option VmkplxrMinorInfo
  chardevs : Nat → Option VmkplxrCharDev

def vmkAssert (p : Prop) [Decidable p] (fault : Fault) : Except Fault Unit :=
  if p then .ok () else .error fault

def follow {α : Type} (memory : Nat → Option α) : Option Nat → Except Fault α
  | none => .error .pointer
  | some a => (memory a).elim (.error .pointer) .ok

theorem follow_some {α : Type} {memory : Nat → Option α} {a : Nat} {x : α} (h : memory a = some x) :
    follow memory (some a) = .ok x := by
  rw [follow, h]
  rfl

/-! ## The free bits -/

/-- "The bits for minors in least-to-greatest order" -/
def minorBitNum (minor : Nat) : Nat := minor % 32

/-- "The bits for majors in greatest-to-least order" -/
def majorBitNum (major : Nat) : Nat := 32 - major % 32 - 1

namespace VmkplxrMinorInfo

variable (info : VmkplxrMinorInfo)

def minorFree (minor : Nat) : Bool :=
  info.minorsFreeBitset (minor / 32) &&& 1#32 <<< minorBitNum minor ≠ 0#32

/-- The bitsets of a `minorInfo` that was allocated; the rest of the memory is as it was. -/
def fresh : VmkplxrMinorInfo :=
  { info with
    -- "reserve the 'dynamic minor' index"
    minorsFreeBitset :=
      clearBit (fun _ => BitVec.allOnes 32) (dynamicMinor / 32) (minorBitNum dynamicMinor) }

/-- "Find a free minor slot, searching from the *smallest* first" -/
def findMinor : Nat :=
  match (List.range bitsets).find? fun i => info.minorsFreeBitset i ≠ 0#32 with
  | none => dynamicMinor
  | some i => ffs (info.minorsFreeBitset i) - 1 + i * 32

/-- The loop of `VmkplxrMajorHasAllFreeMinors`. -/
def allFree : Bool :=
  (List.range bitsets).all fun i => info.minorsFreeBitset i =
    if i ≠ dynamicMinor / 32 then BitVec.allOnes 32 else ~~~(1#32 <<< minorBitNum dynamicMinor)

def setChardev (minor : Nat) (cdev : Option Nat) : VmkplxrMinorInfo :=
  { info with chardevMinors := Function.update info.chardevMinors minor cdev }

/-- `minorsFreeBitset[i] &= ~allocatedBit` -/
def takeMinor (minor : Nat) : VmkplxrMinorInfo :=
  { info with
    minorsFreeBitset := clearBit info.minorsFreeBitset (minor / 32) (minorBitNum minor) }

/-- `minorsFreeBitset[bitsetIndex] |= freeBit` -/
def freeMinor (minor : Nat) : VmkplxrMinorInfo :=
  { info with minorsFreeBitset := setBit info.minorsFreeBitset (minor / 32) (minorBitNum minor) }

end VmkplxrMinorInfo

namespace Chardevs

variable (d : Chardevs)

def majorFree (major : Nat) : Bool :=
  d.majorsFreeBitset (major / 32) &&& 1#32 <<< majorBitNum major ≠ 0#32

def setMinorInfo (a : Nat) (info : VmkplxrMinorInfo) : Chardevs :=
  { d with minorInfos := Function.update d.minorInfos a (some info) }

def setChardev (c : Nat) (cdev : Option VmkplxrCharDev) : Chardevs :=
  { d with chardevs := Function.update d.chardevs c cdev }

/-- A new `minorInfo` is put at the major. -/
def addMinorInfo (major a : Nat) (info : VmkplxrMinorInfo) : Chardevs :=
  { d.setMinorInfo a info with
    minorInfoPerMajor := Function.update d.minorInfoPerMajor major (some a) }

/-- `majorsFreeBitset[i] &= ~allocatedBit` -/
def takeMajor (major : Nat) : Chardevs :=
  { d with majorsFreeBitset := clearBit d.majorsFreeBitset (major / 32) (majorBitNum major) }

/-- The major is marked free, and its `minorInfo` is freed. -/
def dropMajor (major a : Nat) : Chardevs :=
  { d with
    majorsFreeBitset := setBit d.majorsFreeBitset (major / 32) (majorBitNum major)
    minorInfoPerMajor := Function.update d.minorInfoPerMajor major none
    minorInfos := Function.update d.minorInfos a none }

/-! ## The functions -/

/-- `vmkplxr_ChardevsInit`, with the memory it gets for the misc major. -/
def init (a : Nat) (memory : VmkplxrMinorInfo) : Chardevs where
  majorsFreeBitset :=
    clearBit
      (clearBit (fun _ => BitVec.allOnes 32) (miscMajor / 32) (majorBitNum miscMajor))
      (dynamicMajor / 32) (majorBitNum dynamicMajor)
  minorInfoPerMajor := Function.update (fun _ => none) miscMajor (some a)
  minorInfos := Function.update (fun _ => none) a (some memory.fresh)
  chardevs := fun _ => none

/-- "Find a free major slot, searching from the largest first" -/
def findMajor : Except Fault Nat :=
  match (List.range bitsets).reverse.find? fun i => d.majorsFreeBitset i ≠ 0#32 with
  | none => .ok dynamicMajor
  | some i => do
    let majorAllocated := ffs (d.majorsFreeBitset i)
    vmkAssert (0 < majorAllocated ∧ majorAllocated < 33) .assertion
    let majorAllocated := 32 - majorAllocated + i * 32
    vmkAssert (d.minorInfoPerMajor majorAllocated = none) .assertion
    return majorAllocated

/-- The `minorInfo` of the major, a new one if there is none yet. -/
def getMinorInfo (major : Nat) (memory : Option (Nat × VmkplxrMinorInfo)) :
    Option (Nat × Chardevs) :=
  match d.minorInfoPerMajor major with
  | some a => some (a, d)
  | none => memory.map fun (a, info) => (a, d.addMinorInfo major a info.fresh)

/-- `VmkplxrAllocDevNamespace` behind the search for a major, with the memory that `vmk_HeapAlloc`
    returns. -/
def allocMinor (majorAllocated minor : Nat) (memory : Option (Nat × VmkplxrMinorInfo)) :
    Except Fault (Except VmkStatus (Nat × Nat) × Chardevs) :=
  match d.getMinorInfo majorAllocated memory with
  | none => .ok (.error .noMemory, d)
  | some (a, d) => do
    let info ← follow d.minorInfos (some a)
    let minorAllocated := if minor = dynamicMinor then info.findMinor else minor
    if minor = dynamicMinor ∧ minorAllocated = dynamicMinor then
      return (.error .noMemory, d)
    else if info.minorFree minorAllocated = false then return (.error .busy, d)
    else
      return (.ok (majorAllocated, minorAllocated),
        (d.setMinorInfo a (info.takeMinor minorAllocated)).takeMajor majorAllocated)

def searchMajor (major : Nat) : Except Fault Nat :=
  if major = dynamicMajor then d.findMajor else .ok major

/-- `VmkplxrAllocDevNamespace` -/
def allocDevNamespace (major minor : Nat) (memory : Option (Nat × VmkplxrMinorInfo)) :
    Except Fault (Except VmkStatus (Nat × Nat) × Chardevs) :=
  if major = dynamicMajor ∧ minor ≠ 0 then .ok (.error .badParam, d)
  else if minor = dynamicMinor ∧ major = dynamicMajor then .ok (.error .badParam, d)
  else do
    let majorAllocated ← d.searchMajor major
    if majorAllocated = dynamicMajor then return (.error .noMemory, d)
    else d.allocMinor majorAllocated minor memory

/-- `VmkplxrMajorHasAllFreeMinors` -/
def majorHasAllFreeMinors (major : Nat) : Except Fault Bool :=
  if d.minorInfoPerMajor major = none then .ok true
  else do
    let info ← follow d.minorInfos (d.minorInfoPerMajor major)
    return info.allFree

/-- "If that was the last minor, also mark the major free" -/
def lastMinor (major : Nat) : Except Fault Bool :=
  if major = miscMajor then .ok false else d.majorHasAllFreeMinors major

/-- `VmkplxrFreeDevNamespace` -/
def freeDevNamespace (major minor : Nat) : Except Fault (VmkStatus × Chardevs) :=
  if major = dynamicMajor ∨ minor = dynamicMinor then .ok (.badParam, d)
  else
    match d.minorInfoPerMajor major with
    | none => .error .assertion
    | some a => do
      let info ← follow d.minorInfos (some a)
      vmkAssert (info.minorFree minor = false) .assertion
      let d := d.setMinorInfo a (info.freeMinor minor)
      -- the table of the major goes with its last minor
      if ← d.lastMinor major then
        vmkAssert (d.majorFree major = false) .assertion
        return (.ok, d.dropMajor major a)
      else return (.ok, d)

/-- The first section of `vmkplxr_RegisterChardev`, with the memory of `newDev`: where it succeeds,
    the `minorInfo` and the numbers that the call remembers. -/
def publish (major minor newDev : Nat) (cdev : VmkplxrCharDev)
    (memory : Option (Nat × VmkplxrMinorInfo)) :
    Except Fault (Option (Nat × Nat × Nat) × Chardevs) := do
  let (r, d) ← d.allocDevNamespace major minor memory
  match r with
  | .error _ => return (none, d)
  | .ok (reqMajor, reqMinor) =>
    match d.minorInfoPerMajor reqMajor with
    | none => .error .pointer
    | some a =>
      let info ← follow d.minorInfos (some a)
      let cdev := { cdev with major := reqMajor, minor := reqMinor, unregPending := false }
      return (some (a, reqMajor, reqMinor), (d.setChardev newDev (some cdev)).setMinorInfo a
          (info.setChardev reqMinor (some newDev)))

/-- The section at `out_vmkapi_fail` of `vmkplxr_RegisterChardev`, and `newDev` is freed. -/
def unpublish (a reqMajor reqMinor newDev : Nat) : Except Fault Chardevs := do
  let info ← follow d.minorInfos (some a)
  let d := d.setMinorInfo a (info.setChardev reqMinor none)
  let (_, d) ← d.freeDevNamespace reqMajor reqMinor
  return d.setChardev newDev none

/-- The section of `vmkplxr_UnregisterChardev`, with the `minorInfo` it has read: what it returns, or
    the handle that it is to pass on. -/
def examine (major minor a : Nat) : Except Fault (Except VmkStatus Nat × Chardevs) :=
  if d.majorFree major then .ok (.error .badParam, d)
  else do
    let info ← follow d.minorInfos (some a)
    if info.minorFree minor then return (.error .badParam, d)
    else
      match info.chardevMinors minor with
      | none => .error .pointer
      | some c =>
        let cdev ← follow d.chardevs (some c)
        -- an unregistration is under way already, and `VMK_OK` is returned
        if cdev.unregPending then return (.error .ok, d)
        else
          return (.ok cdev.vmkHandle, d.setChardev c (some { cdev with unregPending := true }))

/-- `VmkplxrCharUnregCleanup` -/
def unregCleanup (c : Nat) : Except Fault Chardevs := do
  let cdev ← follow d.chardevs (some c)
  vmkAssert (cdev.unregPending = true) .assertion
  match d.minorInfoPerMajor cdev.major with
  | none => .error .pointer
  | some a =>
    let info ← follow d.minorInfos (some a)
    let d := d.setMinorInfo a (info.setChardev cdev.minor none)
    let (status, d) ← d.freeDevNamespace cdev.major cdev.minor
    vmkAssert (status = .ok) .assertion
    return d.setChardev c none

end Chardevs

end VmkDrivers.Vmkplexer
