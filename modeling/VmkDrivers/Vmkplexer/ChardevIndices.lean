/-
  VmkDrivers.Vmkplexer.ChardevIndices

  The numbers that a driver passes, on their way into the tables.

  `register_chrdev` and `unregister_chrdev` get an `unsigned int`, a miscdevice
  has an `int`, and neither is compared with anything before it is an index or
  a shift count.  The functions here are those of the tables with the numbers as
  C has them: an index outside its array, a shift count that is not one and a
  device that is NULL are a `Misuse`.  `VMK_ASSERT` is absent.

  A number in range is a number of the tables (`registerChardev_checked`); any
  other is misused as soon as the call comes to it, and so is the dynamic minor
  where it is deregistered: its bit says that it is in use, but there is no
  device at it (`device_numbers_safe`).
-/

import VmkDrivers.Lib.ExceptLoop
import VmkDrivers.Vmkplexer.ChardevNumbers

namespace VmkDrivers.Vmkplexer

open VmkDrivers.Lib

inductive Misuse where
  | minorInfoPerMajor (i : Int)
  | majorsFreeBitset (i : Int)
  | minorsFreeBitset (i : Int)
  | chardevMinors (i : Int)
  | shift (count : Int)
  | nullDevice
  | pointer
deriving DecidableEq, Repr

/-- `VMKPLXR_MAJOR_ARRAYSZ` and `VMKPLXR_MINORS_PER_MAJOR` -/
def majorArraySz : Nat := 256

def minorsPerMajor : Nat := 255

/-- What `vmk_HeapAlloc` and `vmk_CharDevRegister` return in a registration; `dev` is the
    `LinuxCharDev`. -/
structure Granted where
  dev : Bool := true
  newDev : Option (Nat × VmkplxrCharDev)
  vmkDevicePrivate : Bool := true
  minorInfo : Option (Nat × VmkplxrMinorInfo)
  vmkHandle : Option Nat

def Granted.call (g : Granted) (major minor : Nat) : RegisterCall :=
  ⟨major, minor, g.newDev, g.vmkDevicePrivate, g.minorInfo, g.vmkHandle⟩

namespace Checked

def index (size : Nat) (i : Int) (misuse : Int → Misuse) : Except Misuse Nat :=
  if 0 ≤ i ∧ i < size then .ok i.toNat else .error (misuse i)

/-- `1 << count` -/
def bit (count : Int) : Except Misuse (BitVec 32) :=
  if 0 ≤ count ∧ count ≤ 31 then .ok (1#32 <<< count.toNat) else .error (.shift count)

/-- What is stored in a `vmk_uint32`. -/
def uint32 (n : Int) : Int := n % 2 ^ 32

def deref {α : Type} (memory : Nat → Option α) (p : Option Nat) : Except Misuse α :=
  (follow memory p).mapError fun _ => .pointer

/-- `allocatedBit` of a minor -/
def minorBit (minor : Int) : Except Misuse (BitVec 32) :=
  let allocatedBitNum := uint32 (minor.tmod 32)
  bit allocatedBitNum

/-- `allocatedBit` of a major -/
def majorBit (major : Int) : Except Misuse (BitVec 32) :=
  let allocatedBitNum := uint32 (major.tmod 32)
  let allocatedBitNum := uint32 (32 - allocatedBitNum)
  bit (uint32 (allocatedBitNum - 1))

/-- "Find a free major slot, searching from the largest first" -/
def findMajor (d : Chardevs) : Nat :=
  match (List.range bitsets).reverse.find? fun i => d.majorsFreeBitset i ≠ 0#32 with
  | none => dynamicMajor
  | some i => 32 - ffs (d.majorsFreeBitset i) + i * 32

/-- `VmkplxrAllocDevNamespace` behind the search for a major. -/
def allocMinor (d : Chardevs) (majorAllocated minor : Int)
    (memory : Option (Nat × VmkplxrMinorInfo)) :
    Except Misuse (Except VmkStatus (Int × Int) × Chardevs) := do
  let m ← index majorArraySz majorAllocated .minorInfoPerMajor
  match d.getMinorInfo m memory with
  | none => return (.error .noMemory, d)
  | some (a, d) =>
    let info ← deref d.minorInfos (some a)
    let minorAllocated : Int := if minor = dynamicMinor then info.findMinor else minor
    if minor = dynamicMinor ∧ minorAllocated = dynamicMinor then
      return (.error .noMemory, d)
    else
      let allocatedBit ← minorBit minorAllocated
      let i ← index bitsets (minorAllocated.tdiv 32) .minorsFreeBitset
      if info.minorsFreeBitset i &&& allocatedBit = 0#32 then return (.error .busy, d)
      else
        let d := d.setMinorInfo a { info with
          minorsFreeBitset :=
            Function.update info.minorsFreeBitset i (info.minorsFreeBitset i &&& ~~~allocatedBit) }
        let allocatedBit ← majorBit majorAllocated
        let i ← index bitsets (majorAllocated.tdiv 32) .majorsFreeBitset
        return (.ok (majorAllocated, minorAllocated), { d with
          majorsFreeBitset :=
            Function.update d.majorsFreeBitset i (d.majorsFreeBitset i &&& ~~~allocatedBit) })

/-- `VmkplxrAllocDevNamespace` -/
def allocDevNamespace (d : Chardevs) (major minor : Int)
    (memory : Option (Nat × VmkplxrMinorInfo)) :
    Except Misuse (Except VmkStatus (Int × Int) × Chardevs) :=
  if major = dynamicMajor ∧ minor ≠ 0 then .ok (.error .badParam, d)
  else if minor = dynamicMinor ∧ major = dynamicMajor then .ok (.error .badParam, d)
  else
    let majorAllocated : Int := if major = dynamicMajor then findMajor d else major
    if majorAllocated = dynamicMajor then .ok (.error .noMemory, d)
    else allocMinor d majorAllocated minor memory

/-- `VmkplxrMajorHasAllFreeMinors` -/
def majorHasAllFreeMinors (d : Chardevs) (major : Int) : Except Misuse Bool := do
  let m ← index majorArraySz major .minorInfoPerMajor
  if d.minorInfoPerMajor m = none then return true
  else
    let info ← deref d.minorInfos (d.minorInfoPerMajor m)
    return info.allFree

/-- "If that was the last minor, also mark the major free" -/
def lastMinor (d : Chardevs) (major : Int) : Except Misuse Bool :=
  if major = miscMajor then .ok false else majorHasAllFreeMinors d major

/-- `VmkplxrFreeDevNamespace` -/
def freeDevNamespace (d : Chardevs) (major minor : Int) : Except Misuse (VmkStatus × Chardevs) :=
  if major = dynamicMajor ∨ minor = dynamicMinor then .ok (.badParam, d)
  else do
    let m ← index majorArraySz major .minorInfoPerMajor
    match d.minorInfoPerMajor m with
    | none => .error .pointer
    | some a =>
      let info ← deref d.minorInfos (some a)
      let freeBit ← bit (minor.tmod 32)
      let i ← index bitsets (minor.tdiv 32) .minorsFreeBitset
      let d := d.setMinorInfo a { info with
        minorsFreeBitset :=
          Function.update info.minorsFreeBitset i (info.minorsFreeBitset i ||| freeBit) }
      if ← lastMinor d major then
        let freeBit ← bit (32 - major.tmod 32 - 1)
        let i ← index bitsets (major.tdiv 32) .majorsFreeBitset
        return (.ok, { d with
          majorsFreeBitset :=
            Function.update d.majorsFreeBitset i (d.majorsFreeBitset i ||| freeBit)
          minorInfoPerMajor := Function.update d.minorInfoPerMajor m none
          minorInfos := Function.update d.minorInfos a none })
      else return (.ok, d)

/-- `minorInfo->chardevMinors[reqMinor] = newDev` -/
def storeChardev (d : Chardevs) (a : Nat) (reqMinor : Int) (newDev : Option Nat) :
    Except Misuse Chardevs := do
  let info ← deref d.minorInfos (some a)
  let n ← index minorsPerMajor reqMinor .chardevMinors
  return d.setMinorInfo a (info.setChardev n newDev)

/-- `vmkplxr_RegisterChardev` -/
def registerChardev (p : Plexer) (major minor : Int) (g : Granted) :
    Except Misuse (Except VmkStatus (Int × Int) × Plexer) :=
  match g.newDev with
  | none => .ok (.error .noMemory, p)
  | some (c, cdev) =>
    if g.vmkDevicePrivate = false then .ok (.error .noMemory, p)
    else do
      match ← allocDevNamespace p.tables major minor g.minorInfo with
      | (.error _, d) => return (.error .noMemory, { p with tables := d })
      | (.ok (reqMajor, reqMinor), d) =>
        let m ← index majorArraySz reqMajor .minorInfoPerMajor
        match d.minorInfoPerMajor m with
        | none => .error .pointer
        | some a =>
          let cdev := { cdev with
            major := reqMajor.toNat, minor := reqMinor.toNat, unregPending := false }
          let d ← storeChardev (d.setChardev c (some cdev)) a reqMinor (some c)
          match g.vmkHandle with
          | some handle =>
            return (.ok (reqMajor, reqMinor), { p with
              tables := d.setHandle c handle
              registered := Function.update p.registered handle (some c) })
          | none =>
            let d ← storeChardev d a reqMinor none
            let (_, d) ← freeDevNamespace d reqMajor reqMinor
            return (.error .failure, { p with tables := d.setChardev c none })

/-- `vmkplxr_UnregisterChardev` -/
def unregisterChardev (p : Plexer) (major minor : Int) : Except Misuse (VmkStatus × Plexer) := do
  let d := p.tables
  let m ← index majorArraySz major .minorInfoPerMajor
  match d.minorInfoPerMajor m with
  | none => return (.badParam, p)
  | some a =>
    let i ← index bitsets (major.tdiv 32) .majorsFreeBitset
    let allocatedBit ← majorBit major
    if allocatedBit &&& d.majorsFreeBitset i ≠ 0#32 then return (.badParam, p)
    else
      let allocatedBit ← minorBit minor
      let info ← deref d.minorInfos (some a)
      let i ← index bitsets (minor.tdiv 32) .minorsFreeBitset
      if allocatedBit &&& info.minorsFreeBitset i ≠ 0#32 then return (.badParam, p)
      else
        let n ← index minorsPerMajor minor .chardevMinors
        match info.chardevMinors n with
        | none => .error .nullDevice
        | some c =>
          let cdev ← deref d.chardevs (some c)
          if cdev.unregPending then return (.ok, p)
          else
            let d := d.setChardev c (some { cdev with unregPending := true })
            return { p with tables := d }.charDevUnregister cdev.vmkHandle

end Checked

/-! ## The calls of the drivers -/

def enomem : Int := 12

def ebusy : Int := 16

def einval : Int := 22

namespace Plexer

variable (p : Plexer)

/-- `register_chrdev`, where `assignedMajor` is an `int` -/
def registerChrdev (major : BitVec 32) (g : Granted) : Except Misuse (Int × Plexer) :=
  if g.dev = false then .ok (-enomem, p)
  else do
    match ← Checked.registerChardev p major.toInt 0 g with
    | (.error _, p) => return (-ebusy, p)
    | (.ok (assignedMajor, _), p) => return (if major = 0 then assignedMajor else 0, p)

def unregisterChrdev (major : BitVec 32) : Except Misuse (Int × Plexer) := do
  let (status, p) ← Checked.unregisterChardev p major.toInt 0
  return (if status ≠ .ok then -einval else 0, p)

/-- `misc_register`, with the minor of the miscdevice; behind what it returns is the minor that the
    miscdevice has then. -/
def miscRegister (minor : BitVec 32) (g : Granted) :
    Except Misuse ((Int × BitVec 32) × Plexer) :=
  if g.dev = false then .ok ((-enomem, minor), p)
  else do
    match ← Checked.registerChardev p miscMajor minor.toInt g with
    | (.error _, p) => return ((-ebusy, minor), p)
    | (.ok (_, minor), p) => return ((0, BitVec.ofInt 32 minor), p)

def miscDeregister (minor : BitVec 32) : Except Misuse (Int × Plexer) := do
  let (status, p) ← Checked.unregisterChardev p miscMajor minor.toInt
  return (if status ≠ .ok then -einval else 0, p)

end Plexer

inductive DeviceCall where
  | registerChrdev (major : BitVec 32) (g : Granted)
  | unregisterChrdev (major : BitVec 32)
  | miscRegister (minor : BitVec 32) (g : Granted)
  | miscDeregister (minor : BitVec 32)
  | cleanup (c : Nat)

def Granted.Unused (g : Granted) (p : Plexer) : Prop :=
  (∀ x ∈ g.newDev, p.tables.chardevs x.1 = none) ∧
    (∀ x ∈ g.minorInfo, p.tables.minorInfos x.1 = none) ∧
    ∀ handle ∈ g.vmkHandle, p.registered handle = none

instance (g : Granted) (p : Plexer) : Decidable (g.Unused p) := by
  unfold Granted.Unused
  infer_instance

/-- What can be called; the vmkernel cleans up what it is closing. -/
def DeviceCall.Possible (p : Plexer) : DeviceCall → Prop
  | .registerChrdev _ g | .miscRegister _ g => g.Unused p
  | .unregisterChrdev _ | .miscDeregister _ => True
  | .cleanup c => c ∈ p.closing

instance (p : Plexer) (e : DeviceCall) : Decidable (e.Possible p) := by
  unfold DeviceCall.Possible
  split <;> infer_instance

def Plexer.deviceCall (p : Plexer) : DeviceCall → Except Misuse Plexer
  | .registerChrdev major g => (p.registerChrdev major g).map Prod.snd
  | .unregisterChrdev major => (p.unregisterChrdev major).map Prod.snd
  | .miscRegister minor g => (p.miscRegister minor g).map Prod.snd
  | .miscDeregister minor => (p.miscDeregister minor).map Prod.snd
  | .cleanup c => (p.cleanup c).mapError fun _ => .pointer

def DeviceStep (p : Plexer) (e : DeviceCall) (p' : Plexer) : Prop :=
  e.Possible p ∧ p.deviceCall e = .ok p'

def Granted.Fails (g : Granted) : Prop :=
  g.dev = false ∨ g.newDev = none ∨ g.vmkDevicePrivate = false

/-- The number is in range, or does not come to the tables. -/
def DeviceCall.InRange : DeviceCall → Prop
  | .registerChrdev major g => major.toNat < 256 ∨ g.Fails
  | .unregisterChrdev major => major.toNat < 256
  | .miscRegister minor g => (0 ≤ minor.toInt ∧ minor.toInt < 256) ∨ g.Fails
  | .miscDeregister minor => 0 ≤ minor.toInt ∧ minor.toInt < 255
  | .cleanup _ => True

/-! ## Numbers in range -/

namespace Checked

section Numbers

variable {size M m n : Nat} {misuse : Int → Misuse} {α : Type} {memory : Nat → Option α}
  {x : α}

theorem index_nat (h : n < size) : index size n misuse = .ok n := by
  rw [index, if_pos ⟨Int.natCast_nonneg n, Int.ofNat_lt.mpr h⟩, Int.toNat_natCast]

theorem bit_nat (h : n < 32) : bit n = .ok (1#32 <<< n) := by
  rw [bit, if_pos ⟨Int.natCast_nonneg n, by omega⟩, Int.toNat_natCast]

theorem uint32_nat (h : n < 2 ^ 32) : uint32 n = n :=
  Int.emod_eq_of_lt (Int.natCast_nonneg n) (by omega)

theorem tmod_nat (n : Nat) : (n : Int).tmod 32 = ((n % 32 : Nat) : Int) := by
  rw [Int.tmod_eq_emod_of_nonneg (Int.natCast_nonneg n)]
  omega

theorem tdiv_nat (n : Nat) : (n : Int).tdiv 32 = ((n / 32 : Nat) : Int) := by
  rw [Int.tdiv_eq_ediv_of_nonneg (Int.natCast_nonneg n)]
  omega

theorem minorBit_nat (m : Nat) : minorBit m = .ok (1#32 <<< minorBitNum m) := by
  have hlt : m % 32 < 32 := Nat.mod_lt _ (by decide)
  rw [minorBit, tmod_nat, uint32_nat (by omega), bit_nat hlt, minorBitNum]

theorem majorBitNum_lt (M : Nat) : majorBitNum M < 32 := by
  unfold majorBitNum
  omega

theorem majorBit_nat (M : Nat) : majorBit M = .ok (1#32 <<< majorBitNum M) := by
  have hlt : M % 32 < 32 := Nat.mod_lt _ (by decide)
  have hsub : (32 : Int) - ((M % 32 : Nat) : Int) = ((32 - M % 32 : Nat) : Int) := by omega
  have hpred : ((32 - M % 32 : Nat) : Int) - 1 = ((majorBitNum M : Nat) : Int) := by
    unfold majorBitNum
    omega
  have hnum := majorBitNum_lt M
  simp only [majorBit]
  rw [tmod_nat, uint32_nat (by omega), hsub, uint32_nat (by omega), hpred, uint32_nat (by omega),
    bit_nat hnum]

theorem word_nat (h : n < 256) : index bitsets ((n : Int).tdiv 32) misuse = .ok (n / 32) := by
  rw [tdiv_nat]
  exact index_nat (by unfold bitsets; omega)

theorem deref_of_follow {p : Option Nat} (h : follow memory p = .ok x) : deref memory p = .ok x := by
  rw [deref, h]
  rfl

theorem of_follow {a : Nat} (h : follow memory (some a) = .ok x) : memory a = some x := by
  rw [follow] at h
  cases hmem : memory a with
  | none =>
    rw [hmem] at h
    cases h
  | some y =>
    rw [hmem] at h
    exact congrArg some (Except.ok.inj h)

theorem deref_some {a : Nat} (h : memory a = some x) : deref memory (some a) = .ok x :=
  deref_of_follow (follow_some h)

end Numbers

def numbers : Except VmkStatus (Nat × Nat) → Except VmkStatus (Int × Int) :=
  Except.map fun n => (n.1, n.2)

section Refines

variable {d d' : Chardevs} {M m a c : Nat} {info : VmkplxrMinorInfo}
  {memory : Option (Nat × VmkplxrMinorInfo)} {r : Except VmkStatus (Nat × Nat)}

theorem minorFree_iff (info : VmkplxrMinorInfo) (m : Nat) :
    info.minorsFreeBitset (m / 32) &&& 1#32 <<< minorBitNum m = 0#32 ↔
      info.minorFree m = false := by
  rw [VmkplxrMinorInfo.minorFree, decide_eq_false_iff_not, not_not]

theorem minorFree_and (info : VmkplxrMinorInfo) (m : Nat) :
    1#32 <<< minorBitNum m &&& info.minorsFreeBitset (m / 32) ≠ 0#32 ↔
      info.minorFree m = true := by
  rw [BitVec.and_comm, VmkplxrMinorInfo.minorFree, decide_eq_true_iff]

theorem majorFree_and (d : Chardevs) (M : Nat) :
    1#32 <<< majorBitNum M &&& d.majorsFreeBitset (M / 32) ≠ 0#32 ↔ d.majorFree M = true := by
  rw [BitVec.and_comm, Chardevs.majorFree, decide_eq_true_iff]

theorem allocMinor_checked (hM : M < 256) (hm : m < 256)
    (h : d.allocMinor M m memory = .ok (r, d')) :
    allocMinor d M m memory = .ok (numbers r, d') := by
  rw [Chardevs.allocMinor] at h
  have hindex : index majorArraySz M .minorInfoPerMajor = .ok M := index_nat hM
  simp only [allocMinor, hindex, bind, Except.bind]
  cases hget : d.getMinorInfo M memory with
  | none =>
    rw [hget] at h
    cases h
    rfl
  | some x =>
    obtain ⟨a, d₁⟩ := x
    rw [hget] at h
    obtain ⟨info, hinfo, h⟩ := bind_eq_ok.mp h
    simp only [deref_of_follow hinfo]
    -- the minor, as it is requested or found
    generalize hn : (if m = dynamicMinor then info.findMinor else m) = n at h
    have hcast : (if m = dynamicMinor then (info.findMinor : Int) else m) = n := by
      rw [← hn]
      split <;> rfl
    have hlt : n < 256 := by
      rw [← hn]
      split
      · rcases findMinor_spec info with ⟨hfind, -⟩ | ⟨hfind, -⟩
        · rw [hfind]
          decide
        · exact hfind
      · exact hm
    simp only [Int.natCast_inj, hcast]
    dsimp only at h
    split at h
    · next hnone =>
      cases h
      rw [if_pos hnone]
      rfl
    · next hsome =>
      rw [if_neg hsome]
      simp only [minorBit_nat, word_nat hlt, minorFree_iff]
      split at h
      · next hbusy =>
        cases h
        rw [if_pos hbusy]
        rfl
      · next hfree =>
        cases h
        rw [if_neg hfree]
        simp only [majorBit_nat, word_nat hM]
        rfl

theorem of_vmkAssert {q : Prop} [Decidable q] {fault : Fault} {u : Unit}
    (h : vmkAssert q fault = .ok u) : q := by
  by_contra hnot
  rw [vmkAssert.eq_def, if_neg hnot] at h
  cases h

theorem findMajor_checked (h : d.findMajor = .ok M) : findMajor d = M ∧ M < 256 := by
  rw [Chardevs.findMajor] at h
  rw [findMajor]
  cases hfind : (List.range bitsets).reverse.find? fun i => d.majorsFreeBitset i ≠ 0#32 with
  | none =>
    rw [hfind] at h
    cases h
    exact ⟨rfl, by decide⟩
  | some i =>
    rw [hfind] at h
    have hi : i < 8 := List.mem_range.mp (List.mem_reverse.mp (List.mem_of_find?_eq_some hfind))
    -- the word has a bit, so that `ffs` is not 0
    obtain ⟨_, hffs, h⟩ := bind_eq_ok.mp h
    obtain ⟨-, -, h⟩ := bind_eq_ok.mp h
    cases h
    have hpos := of_vmkAssert hffs
    exact ⟨rfl, by omega⟩

theorem allocDevNamespace_checked (hM : M < 256) (hm : m < 256)
    (h : d.allocDevNamespace M m memory = .ok (r, d')) :
    allocDevNamespace d M m memory = .ok (numbers r, d') := by
  rw [Chardevs.allocDevNamespace] at h
  rw [allocDevNamespace]
  have hzero : (m : Int) ≠ 0 ↔ m ≠ 0 := by omega
  simp only [Int.natCast_inj, hzero]
  split at h
  · next hbad =>
    cases h
    rw [if_pos hbad]
    rfl
  · next hgood =>
    rw [if_neg hgood]
    split at h
    · next hbad =>
      cases h
      rw [if_pos hbad]
      rfl
    · next hgood =>
      rw [if_neg hgood]
      obtain ⟨N, hsearch, h⟩ := bind_eq_ok.mp h
      -- the major is the one that is found, or the one asked for
      have hN : (if M = dynamicMajor then (findMajor d : Int) else M) = N ∧ N < 256 := by
        rw [Chardevs.searchMajor] at hsearch
        split at hsearch
        · next hdyn =>
          rw [if_pos hdyn]
          exact (findMajor_checked hsearch).imp_left (congrArg _)
        · next hstatic =>
          cases hsearch
          rw [if_neg hstatic]
          exact ⟨rfl, hM⟩
      simp only [hN.1, Int.natCast_inj]
      split at h
      · next hnone =>
        cases h
        rw [if_pos hnone]
        rfl
      · next hsome =>
        rw [if_neg hsome]
        exact allocMinor_checked hN.2 hm h

theorem lastMinor_checked {last : Bool} (hM : M < 256) (h : d.lastMinor M = .ok last) :
    lastMinor d M = .ok last := by
  rw [Chardevs.lastMinor] at h
  simp only [lastMinor, Int.natCast_inj]
  split at h
  · next hmisc =>
    cases h
    rw [if_pos hmisc]
  · next hmisc =>
    have hindex : index majorArraySz M .minorInfoPerMajor = .ok M := index_nat hM
    rw [if_neg hmisc, majorHasAllFreeMinors, hindex]
    rw [Chardevs.majorHasAllFreeMinors] at h
    simp only [bind, Except.bind] at h ⊢
    split at h
    · next hnone =>
      rw [if_pos hnone]
      cases h
      rfl
    · next hsome =>
      rw [if_neg hsome]
      cases hinfo : follow d.minorInfos (d.minorInfoPerMajor M) with
      | error fault =>
        rw [hinfo] at h
        cases h
      | ok info =>
        rw [hinfo] at h
        rw [deref_of_follow hinfo]
        cases h
        rfl

theorem freeDevNamespace_checked {status : VmkStatus} (hM : M < 256) (hm : m < 256)
    (h : d.freeDevNamespace M m = .ok (status, d')) :
    freeDevNamespace d M m = .ok (status, d') := by
  rw [Chardevs.freeDevNamespace] at h
  simp only [freeDevNamespace, Int.natCast_inj]
  split at h
  · next hbad =>
    cases h
    rw [if_pos hbad]
  · next hgood =>
    rw [if_neg hgood]
    have hindex : index majorArraySz M .minorInfoPerMajor = .ok M := index_nat hM
    simp only [hindex, bind, Except.bind]
    cases ha : d.minorInfoPerMajor M with
    | none =>
      rw [ha] at h
      cases h
    | some a =>
      rw [ha] at h
      obtain ⟨info, hinfo, h⟩ := bind_eq_ok.mp h
      obtain ⟨-, -, h⟩ := bind_eq_ok.mp h
      obtain ⟨last, hlast, h⟩ := bind_eq_ok.mp h
      have hbit : bit ((m : Int).tmod 32) = .ok (1#32 <<< minorBitNum m) := by
        rw [tmod_nat, bit_nat (Nat.mod_lt _ (by decide)), minorBitNum]
      -- the bits of the majors are in the reverse order
      have hbit' : bit (32 - (M : Int).tmod 32 - 1) = .ok (1#32 <<< majorBitNum M) := by
        have hnum : 32 - (M : Int).tmod 32 - 1 = majorBitNum M := by
          have := majorBitNum_lt M
          rw [tmod_nat, majorBitNum]
          omega
        rw [hnum, bit_nat (majorBitNum_lt M)]
      have hfree : ({ info with
          minorsFreeBitset := Function.update info.minorsFreeBitset (m / 32)
            (info.minorsFreeBitset (m / 32) ||| 1#32 <<< minorBitNum m) } : VmkplxrMinorInfo) =
            info.freeMinor m := rfl
      simp only [deref_of_follow hinfo, hbit, word_nat hm, hfree, lastMinor_checked hM hlast]
      -- the major goes with its last minor
      cases last with
      | false =>
        cases h
        rfl
      | true =>
        obtain ⟨-, -, h⟩ := bind_eq_ok.mp h
        cases h
        simp only [hbit', word_nat hM]
        rfl

end Refines

section Calls

variable {start : Nat × VmkplxrMinorInfo} {p p' : Plexer} {d d' : Chardevs} {M m a c : Nat}
  {info : VmkplxrMinorInfo} {g : Granted} {status : VmkStatus}

theorem storeChardev_nat (hinfo : d.minorInfos a = some info) (hm : m < 255) (cdev : Option Nat) :
    storeChardev d a m cdev = .ok (d.setMinorInfo a (info.setChardev m cdev)) := by
  have hindex : index minorsPerMajor m .chardevMinors = .ok m := index_nat hm
  rw [storeChardev, deref_some hinfo]
  simp only [bind, Except.bind, hindex]
  rfl

theorem allocated_range {memory : Option (Nat × VmkplxrMinorInfo)} {M' m' : Nat}
    (h : Tables start d) (hrange : M < 256 ∧ m < 256)
    (hmemory : ∀ a i, memory = some (a, i) → d.minorInfos a = none)
    (halloc : d.allocDevNamespace M m memory = .ok (.ok (M', m'), d')) : M' < 256 ∧ m' < 255 := by
  rcases allocDevNamespace_spec h hrange hmemory with ⟨⟨status, herror⟩, -⟩ |
    ⟨N, b, i, d₁, n, hd, hinst, hbut, -, -, hN, hn, hfree, -⟩
  · rw [halloc] at herror
    cases herror
  · rw [halloc] at hd
    cases hd
    have hne : m' ≠ dynamicMinor := ((hbut.minor hinst m').mp hfree).1
    exact ⟨hN, by unfold dynamicMinor at hne; omega⟩

theorem registerChardev_checked (h : Tables start p.tables) (hcall : (g.call M m).Possible p)
    (hreg : p.registerChardev (g.call M m) = .ok (status, p')) :
    ∃ r, registerChardev p M m g = .ok (r, p') := by
  obtain ⟨hrange, -, hminorInfo, -⟩ := hcall
  rw [Plexer.registerChardev] at hreg
  rw [registerChardev]
  cases hnew : g.newDev with
  | none =>
    simp only [Granted.call, hnew] at hreg
    cases hreg
    exact ⟨_, rfl⟩
  | some x =>
    obtain ⟨c, cdev⟩ := x
    simp only [Granted.call, hnew] at hreg
    dsimp only
    split at hreg
    · next hprivate =>
      cases hreg
      rw [if_pos hprivate]
      exact ⟨_, rfl⟩
    · next hprivate =>
      rw [if_neg hprivate]
      obtain ⟨⟨r, d₂⟩, hpublish, hreg⟩ := bind_eq_ok.mp hreg
      obtain ⟨⟨r', d₁⟩, halloc, hpublish⟩ := bind_eq_ok.mp hpublish
      have hchecked : allocDevNamespace p.tables M m g.minorInfo = .ok (numbers r', d₁) :=
        allocDevNamespace_checked hrange.1 hrange.2 halloc
      simp only [bind, Except.bind, hchecked]
      cases r' with
      | error why =>
        cases hpublish
        cases hreg
        exact ⟨_, rfl⟩
      | ok number =>
        obtain ⟨M', m'⟩ := number
        obtain ⟨hM', hm'⟩ := allocated_range h hrange
          (fun a i heq => hminorInfo (a, i) heq) halloc
        have hindex : index majorArraySz M' .minorInfoPerMajor = .ok M' := index_nat hM'
        simp only [numbers, Except.map, hindex, Int.toNat_natCast]
        dsimp only at hpublish
        cases ha : d₁.minorInfoPerMajor M' with
        | none =>
          rw [ha] at hpublish
          cases hpublish
        | some a =>
          rw [ha] at hpublish
          obtain ⟨info, hinfo, hpublish⟩ := bind_eq_ok.mp hpublish
          cases hpublish
          have hinfo := of_follow hinfo
          have hstore := storeChardev_nat (d := d₁.setChardev c
            (some ⟨M', m', cdev.vmkHandle, false⟩)) hinfo hm' (some c)
          simp only [hstore]
          cases hhandle : g.vmkHandle with
          | some handle =>
            simp only [hhandle] at hreg
            cases hreg
            exact ⟨_, rfl⟩
          | none =>
            simp only [hhandle] at hreg
            obtain ⟨d₃, hunpublish, hreg⟩ := bind_eq_ok.mp hreg
            cases hreg
            obtain ⟨i, hi, hunpublish⟩ := bind_eq_ok.mp hunpublish
            obtain ⟨⟨status, d₄⟩, hfree, hunpublish⟩ := bind_eq_ok.mp hunpublish
            cases hunpublish
            simp only [storeChardev_nat (of_follow hi) hm' none,
              freeDevNamespace_checked hM' (Nat.lt_succ_of_lt hm') hfree]
            exact ⟨_, rfl⟩

theorem unregisterChardev_checked (h : PlexerInv start p) (hM : M < 256) (hm : m < 255) :
    ∃ r p', unregisterChardev p M m = .ok (r, p') ∧ PlexerInv start p' := by
  have hindex : index majorArraySz M .minorInfoPerMajor = .ok M := index_nat hM
  rw [unregisterChardev]
  simp only [hindex, bind, Except.bind]
  cases ha : p.tables.minorInfoPerMajor M with
  | none => exact ⟨_, p, rfl, h⟩
  | some a =>
    have hmajor : M ≠ dynamicMajor := fun heq => by
      rw [heq, h.tables.dynamic] at ha
      cases ha
    have hminor : m ≠ dynamicMinor := Nat.ne_of_lt hm
    have hasserted : p.unregisterChardev M m ≠ .error .argument := by
      rw [Plexer.unregisterChardev]
      simp only [vmkAssert, ne_eq, hmajor, hminor, not_false_eq_true, if_true, ha, bind,
        Except.bind]
      rcases examine_spec h.tables ha hminor with ⟨status, hexamine⟩ |
        ⟨c, cdev, -, -, -, -, hexamine⟩ <;>
      · rw [hexamine]
        exact nofun
    obtain ⟨status, p', hunreg, hinv⟩ := (unregisterChardev_spec h M m).resolve_left hasserted
    obtain ⟨-, -, hunreg⟩ := bind_eq_ok.mp hunreg
    obtain ⟨-, -, hunreg⟩ := bind_eq_ok.mp hunreg
    rw [ha] at hunreg
    obtain ⟨⟨r, d₁⟩, hexamine, hunreg⟩ := bind_eq_ok.mp hunreg
    rw [Chardevs.examine] at hexamine
    simp only [word_nat hM, majorBit_nat, majorFree_and]
    split at hexamine
    · next hfree =>
      rw [if_pos hfree]
      exact ⟨_, p, rfl, h⟩
    · next hfree =>
      rw [if_neg hfree]
      obtain ⟨info, hinfo, hexamine⟩ := bind_eq_ok.mp hexamine
      have hindex' : index minorsPerMajor m .chardevMinors = .ok m := index_nat hm
      simp only [word_nat (Nat.lt_succ_of_lt hm), minorBit_nat, deref_of_follow hinfo,
        minorFree_and, hindex']
      split at hexamine
      · next hfree =>
        rw [if_pos hfree]
        exact ⟨_, p, rfl, h⟩
      · next hfree =>
        rw [if_neg hfree]
        cases hc : info.chardevMinors m with
        | none =>
          rw [hc] at hexamine
          cases hexamine
        | some c =>
          rw [hc] at hexamine
          obtain ⟨cdev, hcdev, hexamine⟩ := bind_eq_ok.mp hexamine
          simp only [deref_of_follow hcdev]
          split at hexamine
          · next hpending =>
            rw [if_pos hpending]
            exact ⟨_, p, rfl, h⟩
          · next hpending =>
            rw [if_neg hpending]
            cases hexamine
            refine ⟨status, p', ?_, hinv⟩
            exact congrArg Except.ok (Except.ok.inj hunreg)

/-! ## Other numbers -/

section Outside

variable {misuse : Int → Misuse} {size : Nat} {major minor i : Int}

theorem index_out (h : i < 0 ∨ (size : Int) ≤ i) : index size i misuse = .error (misuse i) := by
  rw [index, if_neg fun hin => by omega]

theorem minor_out (h : minor < 0 ∨ 256 ≤ minor) :
    (∃ why, minorBit minor = .error why) ∨
      ∃ why, index bitsets (minor.tdiv 32) .minorsFreeBitset = .error why := by
  rcases h with hneg | hbig
  · obtain ⟨n, rfl⟩ : ∃ n : Nat, minor = -(n : Int) := ⟨minor.natAbs, by omega⟩
    by_cases hword : n < 32
    · -- the remainder is negative, and as a `vmk_uint32` far above 31
      have hnum : uint32 ((-(n : Int)).tmod 32) = 2 ^ 32 - n := by
        rw [Int.neg_tmod, tmod_nat, uint32, Nat.mod_eq_of_lt hword]
        omega
      refine .inl ⟨.shift (2 ^ 32 - n), ?_⟩
      rw [minorBit, hnum, bit, if_neg fun hin => by omega]
    · refine .inr ⟨_, index_out (.inl ?_)⟩
      rw [Int.neg_tdiv, tdiv_nat]
      omega
  · obtain ⟨n, rfl⟩ : ∃ n : Nat, minor = n := ⟨minor.toNat, by omega⟩
    refine .inr ⟨_, index_out (.inr ?_)⟩
    rw [tdiv_nat]
    unfold bitsets
    omega

theorem registerChardev_major_out (h : major < 0 ∨ 256 ≤ major) (hnew : g.newDev ≠ none)
    (hprivate : g.vmkDevicePrivate = true) : ∃ why, registerChardev p major 0 g = .error why := by
  have hdyn : major ≠ dynamicMajor := by
    unfold dynamicMajor
    omega
  have hindex : index majorArraySz major .minorInfoPerMajor =
      .error (.minorInfoPerMajor major) := index_out h
  obtain ⟨⟨c, cdev⟩, hc⟩ := Option.ne_none_iff_exists'.mp hnew
  refine ⟨.minorInfoPerMajor major, ?_⟩
  -- the search is not entered, and the major is the first index
  rw [registerChardev, hc]
  simp only [hprivate, allocDevNamespace, hdyn, false_and, and_false, if_false, allocMinor, hindex,
    bind, Except.bind]
  rfl

theorem registerChardev_minor_out (h : Tables start p.tables) (hout : minor < 0 ∨ 256 ≤ minor)
    (hnew : g.newDev ≠ none) (hprivate : g.vmkDevicePrivate = true) :
    ∃ why, registerChardev p miscMajor minor g = .error why := by
  have hdyn : ((miscMajor : Nat) : Int) ≠ dynamicMajor := by decide
  have hminor : minor ≠ dynamicMinor := by
    unfold dynamicMinor
    omega
  have hindex : index majorArraySz miscMajor .minorInfoPerMajor = .ok miscMajor :=
    index_nat (by decide)
  obtain ⟨⟨c, cdev⟩, hc⟩ := Option.ne_none_iff_exists'.mp hnew
  obtain ⟨info, hinfo⟩ := h.installed h.misc
  have hget : p.tables.getMinorInfo miscMajor g.minorInfo = some (start.1, p.tables) := by
    rw [Chardevs.getMinorInfo, h.misc]
  rw [registerChardev, hc]
  simp only [hprivate, allocDevNamespace, hdyn, hminor, false_and, if_false, allocMinor, hindex,
    bind, Except.bind, hget, deref_some hinfo]
  -- the bit is taken before the word
  rcases minor_out hout with ⟨why, hbit⟩ | ⟨why, hword⟩
  · rw [hbit]
    exact ⟨why, rfl⟩
  · cases hbit : minorBit minor with
    | error why => exact ⟨why, rfl⟩
    | ok allocatedBit =>
      rw [hword]
      exact ⟨why, rfl⟩

theorem unregisterChardev_major_out (h : major < 0 ∨ 256 ≤ major) :
    unregisterChardev p major minor = .error (.minorInfoPerMajor major) := by
  have hindex : index majorArraySz major .minorInfoPerMajor =
      .error (.minorInfoPerMajor major) := index_out h
  rw [unregisterChardev]
  simp only [hindex, bind, Except.bind]

theorem unregisterChardev_minor_out (h : Tables start p.tables) (hout : minor < 0 ∨ 255 ≤ minor) :
    ∃ why, unregisterChardev p miscMajor minor = .error why := by
  have hindex : index majorArraySz miscMajor .minorInfoPerMajor = .ok miscMajor :=
    index_nat (by decide)
  have hword : index bitsets (((miscMajor : Nat) : Int).tdiv 32) .majorsFreeBitset = .ok (miscMajor / 32) :=
    word_nat (by decide)
  have hmisc : ¬p.tables.majorFree miscMajor = true := fun hfree =>
    ((h.major miscMajor id).mp hfree).1 rfl
  obtain ⟨info, hinfo⟩ := h.installed h.misc
  rw [unregisterChardev]
  simp only [hindex, h.misc, hword, majorBit_nat, majorFree_and, hmisc, bind, Except.bind,
    deref_some hinfo]
  -- the bit of the dynamic minor is there, its device is not
  by_cases hdyn : minor = dynamicMinor
  · have hfree : ¬info.minorFree dynamicMinor = true := fun hfree =>
      ((h.minor ⟨h.misc, hinfo⟩ dynamicMinor).mp hfree).1 rfl
    have hplace : index minorsPerMajor dynamicMinor .chardevMinors =
        .error (.chardevMinors dynamicMinor) := index_out (.inr (by decide))
    refine ⟨.chardevMinors dynamicMinor, ?_⟩
    rw [hdyn]
    simp only [minorBit_nat, word_nat (show dynamicMinor < 256 by decide), minorFree_and, hfree,
      hplace]
    rfl
  · have hout : minor < 0 ∨ 256 ≤ minor := by
      unfold dynamicMinor at hdyn
      omega
    rcases minor_out hout with ⟨why, hbit⟩ | ⟨why, hword⟩
    · rw [hbit]
      exact ⟨why, rfl⟩
    · cases hbit : minorBit minor with
      | error why => exact ⟨why, rfl⟩
      | ok allocatedBit =>
        simp only [hword]
        exact ⟨why, rfl⟩

end Outside

end Calls

end Checked

/-! ## A call of a driver -/

section DeviceCalls

variable {start : Nat × VmkplxrMinorInfo} {p p' : Plexer} {g : Granted} {n : BitVec 32}
  {e : DeviceCall}

theorem toInt_of_lt (h : n.toNat < 256) : n.toInt = n.toNat := by
  rw [BitVec.toInt_eq_toNat_cond]
  split <;> omega

theorem toInt_out (h : ¬n.toNat < 256) : n.toInt < 0 ∨ 256 ≤ n.toInt := by
  rw [BitVec.toInt_eq_toNat_cond]
  split <;> omega

theorem toNat_of_range {n : Int} {b : Nat} (h : 0 ≤ n ∧ n < b) : n = n.toNat ∧ n.toNat < b := by
  omega

theorem registerChardev_fails (major minor : Int)
    (h : g.newDev = none ∨ g.vmkDevicePrivate = false) :
    Checked.registerChardev p major minor g = .ok (.error .noMemory, p) := by
  rw [Checked.registerChardev]
  cases hnew : g.newDev with
  | none => rfl
  | some x => exact if_pos (h.resolve_left fun hnone => by rw [hnew] at hnone; cases hnone)

theorem registerChardev_range (h : PlexerInv start p) (hunused : g.Unused p) {M m : Nat}
    (hM : M < 256) (hm : m < 256) :
    ∃ r p', Checked.registerChardev p M m g = .ok (r, p') ∧ PlexerInv start p' := by
  have hcall : (g.call M m).Possible p := ⟨⟨hM, hm⟩, hunused⟩
  obtain ⟨status, p', hreg, hinv, -⟩ := registerChardev_spec h hcall
  obtain ⟨r, hr⟩ := Checked.registerChardev_checked h.tables hcall hreg
  exact ⟨r, p', hr, hinv⟩

theorem registerChardev_major (h : PlexerInv start p) (hunused : g.Unused p) (major : BitVec 32) :
    ((major.toNat < 256 ∨ g.newDev = none ∨ g.vmkDevicePrivate = false) ∧
        ∃ r p', Checked.registerChardev p major.toInt 0 g = .ok (r, p') ∧ PlexerInv start p') ∨
      (¬(major.toNat < 256 ∨ g.newDev = none ∨ g.vmkDevicePrivate = false) ∧
        ∃ why, Checked.registerChardev p major.toInt 0 g = .error why) := by
  by_cases hfails : g.newDev = none ∨ g.vmkDevicePrivate = false
  · exact .inl ⟨.inr hfails, _, p, registerChardev_fails major.toInt 0 hfails, h⟩
  by_cases hmajor : major.toNat < 256
  · refine .inl ⟨.inl hmajor, ?_⟩
    rw [toInt_of_lt hmajor]
    exact registerChardev_range h hunused hmajor (show 0 < 256 by decide)
  · refine .inr ⟨fun hin => hin.elim hmajor hfails, ?_⟩
    rw [not_or] at hfails
    exact Checked.registerChardev_major_out (toInt_out hmajor) hfails.1
      (Bool.not_eq_false _ ▸ hfails.2)

theorem registerChardev_minor (h : PlexerInv start p) (hunused : g.Unused p) (minor : Int) :
    (((0 ≤ minor ∧ minor < 256) ∨ g.newDev = none ∨ g.vmkDevicePrivate = false) ∧
        ∃ r p', Checked.registerChardev p miscMajor minor g = .ok (r, p') ∧ PlexerInv start p') ∨
      (¬((0 ≤ minor ∧ minor < 256) ∨ g.newDev = none ∨ g.vmkDevicePrivate = false) ∧
        ∃ why, Checked.registerChardev p miscMajor minor g = .error why) := by
  by_cases hfails : g.newDev = none ∨ g.vmkDevicePrivate = false
  · exact .inl ⟨.inr hfails, _, p, registerChardev_fails miscMajor minor hfails, h⟩
  by_cases hminor : 0 ≤ minor ∧ minor < 256
  · refine .inl ⟨.inl hminor, ?_⟩
    obtain ⟨hcast, hlt⟩ := toNat_of_range hminor
    rw [hcast]
    exact registerChardev_range h hunused (by decide) hlt
  · refine .inr ⟨fun hin => hin.elim hminor hfails, ?_⟩
    rw [not_or] at hfails
    exact Checked.registerChardev_minor_out h.tables (by omega) hfails.1
      (Bool.not_eq_false _ ▸ hfails.2)

theorem deviceCall_spec (h : PlexerInv start p) (hposs : e.Possible p) :
    (e.InRange ∧ ∃ p', p.deviceCall e = .ok p' ∧ PlexerInv start p') ∨
      (¬e.InRange ∧ ∃ why, p.deviceCall e = .error why) := by
  cases e with
  | registerChrdev major g =>
    by_cases hdev : g.dev = false
    · refine .inl ⟨.inr (.inl hdev), p, ?_, h⟩
      rw [Plexer.deviceCall, Plexer.registerChrdev, if_pos hdev]
      rfl
    rw [Plexer.deviceCall, Plexer.registerChrdev, if_neg hdev]
    rcases registerChardev_major h hposs major with ⟨hin, r, p', hr, hinv⟩ | ⟨hout, why, hwhy⟩
    · refine .inl ⟨hin.imp_right .inr, p', ?_, hinv⟩
      rw [hr]
      cases r <;> rfl
    · refine .inr ⟨fun hin => hout (hin.imp_right fun hf => hf.resolve_left hdev), why, ?_⟩
      rw [hwhy]
      rfl
  -- minor 0 is always in range
  | unregisterChrdev major =>
    rw [Plexer.deviceCall, Plexer.unregisterChrdev]
    by_cases hmajor : major.toNat < 256
    · obtain ⟨r, p', hr, hinv⟩ :=
        Checked.unregisterChardev_checked h hmajor (show 0 < 255 by decide)
      refine .inl ⟨hmajor, p', ?_, hinv⟩
      rw [toInt_of_lt hmajor, show (0 : Int) = ((0 : Nat) : Int) from rfl, hr]
      rfl
    · refine .inr ⟨hmajor, .minorInfoPerMajor major.toInt, ?_⟩
      rw [Checked.unregisterChardev_major_out (toInt_out hmajor)]
      rfl
  | miscRegister minor g =>
    by_cases hdev : g.dev = false
    · refine .inl ⟨.inr (.inl hdev), p, ?_, h⟩
      rw [Plexer.deviceCall, Plexer.miscRegister, if_pos hdev]
      rfl
    rw [Plexer.deviceCall, Plexer.miscRegister, if_neg hdev]
    rcases registerChardev_minor h hposs minor.toInt with
      ⟨hin, r, p', hr, hinv⟩ | ⟨hout, why, hwhy⟩
    · refine .inl ⟨hin.imp_right .inr, p', ?_, hinv⟩
      rw [hr]
      cases r <;> rfl
    · refine .inr ⟨fun hin => hout (hin.imp_right fun hf => hf.resolve_left hdev), why, ?_⟩
      rw [hwhy]
      rfl
  | miscDeregister minor =>
    rw [Plexer.deviceCall, Plexer.miscDeregister]
    by_cases hminor : 0 ≤ minor.toInt ∧ minor.toInt < 255
    · obtain ⟨hcast, hlt⟩ := toNat_of_range hminor
      obtain ⟨r, p', hr, hinv⟩ :=
        Checked.unregisterChardev_checked h (show miscMajor < 256 by decide) hlt
      refine .inl ⟨hminor, p', ?_, hinv⟩
      rw [hcast, hr]
      rfl
    · have hout : minor.toInt < 0 ∨ 255 ≤ minor.toInt := by omega
      obtain ⟨why, hwhy⟩ := Checked.unregisterChardev_minor_out h.tables hout
      refine .inr ⟨hminor, why, ?_⟩
      rw [hwhy]
      rfl
  -- a cleanup has no number of the driver
  | cleanup c =>
    obtain ⟨p', hcleanup, hinv⟩ := cleanup_spec h hposs
    refine .inl ⟨trivial, p', ?_, hinv⟩
    rw [Plexer.deviceCall, hcleanup]
    rfl

theorem deviceStep_inv (h : PlexerInv start p) (hstep : DeviceStep p e p') :
    PlexerInv start p' := by
  rcases deviceCall_spec h hstep.1 with ⟨-, p'', hok, hinv⟩ | ⟨-, why, hwhy⟩
  · exact Except.ok.inj (hok.symm.trans hstep.2) ▸ hinv
  · rw [hstep.2] at hwhy
    cases hwhy

/-- **Device numbers**: behind any calls that went well, a call is safe exactly where its number is in
    range. -/
theorem device_numbers_safe {es : List DeviceCall} (hrun : Run DeviceStep (.init start) es p)
    {e : DeviceCall} (hposs : e.Possible p) :
    (∃ p', p.deviceCall e = .ok p') ↔ e.InRange := by
  have hinv : PlexerInv start p :=
    hrun.invariant (I := PlexerInv start) (fun _ _ _ h hstep => deviceStep_inv h hstep) (.init start)
  rcases deviceCall_spec hinv hposs with ⟨hin, p', hok, -⟩ | ⟨hout, why, hwhy⟩
  · exact ⟨fun _ => hin, fun _ => ⟨p', hok⟩⟩
  · refine ⟨fun ⟨p', hok⟩ => ?_, fun hin => absurd hin hout⟩
    rw [hok] at hwhy
    cases hwhy

end DeviceCalls

def Granted.all (newDev minorInfo vmkHandle : Nat) : Granted where
  newDev := some (newDev, ⟨0, 0, 0, false⟩)
  minorInfo := some (minorInfo, zeroInfo)
  vmkHandle := some vmkHandle

/-- A miscdevice with a dynamic minor is registered, and deregistered by the minor it got. -/
theorem device_numbers_safe_misc :
    ∃ p, Run DeviceStep (.init (0, zeroInfo)) [.miscRegister 255#32 (.all 1 1 1)] p ∧
      ((∃ p', p.deviceCall (.miscDeregister 0#32) = .ok p') ↔
        (DeviceCall.miscDeregister 0#32).InRange) := by
  have hexec : ∃ p, (Plexer.init (0, zeroInfo)).deviceCall (.miscRegister 255#32 (.all 1 1 1)) =
      .ok p := ⟨_, rfl⟩
  obtain ⟨p, hp⟩ := hexec
  have hposs : (DeviceCall.miscRegister 255#32 (.all 1 1 1)).Possible (.init (0, zeroInfo)) := by
    decide
  have hstep : DeviceStep (.init (0, zeroInfo)) (.miscRegister 255#32 (.all 1 1 1)) p := ⟨hposs, hp⟩
  have hrun : Run DeviceStep (.init (0, zeroInfo)) [.miscRegister 255#32 (.all 1 1 1)] p :=
    .single hstep
  exact ⟨p, hrun, device_numbers_safe hrun trivial⟩

/-- In the first tables: a minor that still is the dynamic one, a negative one, and a major of four
    digits. -/
theorem device_numbers_unsafe :
    (Plexer.init (0, zeroInfo)).deviceCall (.miscDeregister 255#32) =
        .error (.chardevMinors 255) ∧
      (Plexer.init (0, zeroInfo)).deviceCall (.miscDeregister (-1)) =
        .error (.shift 4294967295) ∧
      (Plexer.init (0, zeroInfo)).deviceCall (.unregisterChrdev 1000#32) =
        .error (.minorInfoPerMajor 1000) := by
  refine ⟨rfl, rfl, rfl⟩

end VmkDrivers.Vmkplexer
