/-
  VmkDrivers.Vmkplexer.Entropy

  The random driver of the vmkplexer, and the random bytes that are got through it
  (`vmkplexer_entropy.c`).

  There is one driver at most.  `vmkplxr_RegisterRandomDriver` offers its functions to
  the vmkernel one by one, and keeps those that are accepted; it reports success
  whatever becomes of them.  While no driver serves `VMK_ENTROPY_SOFTWARE_ONLY`,
  `vmkplxr_GetSwEntropy` does.

  `vmkplxr_GetRandomBytes` calls `getSwRandomBytes` of the driver, or
  `getHwrngRandomBytes` if there is one, without looking whether the vmkernel has
  accepted either.  Without a driver it does not write `*bytesReturned`
  (`random_bytes_iff`).

  The `VMK_ASSERT`s, which are empty in a release, are left out, and so is what adds
  entropy.
-/

import VmkDrivers.Lib.Transition
import VmkDrivers.Vmkplexer.Chardevs

namespace VmkDrivers.Vmkplexer

open VmkDrivers.Lib

/-! ## The functions of a driver -/

/-- `vmk_ModuleID`, of a module.  `VMK_INVALID_MODULE_ID` is none. -/
inductive ModuleId where
  | vmkplexer
  | loaded (n : Nat)
deriving DecidableEq, Repr

/-- `vmk_EntropySource` -/
inductive EntropySource where
  | hardwareInterrupt
  | hardwareRng
  | keyboard
  | mouse
  | otherHid
  | storage
deriving DecidableEq, Repr

/-- `vmk_EntropyType` -/
inductive EntropyType where
  | hardware
  | hardwareNonBlocking
  | software
  | softwareOnly
deriving DecidableEq, Repr

/-- The `vmkplxr_AddEntropyFunction`s of a driver. -/
inductive AddSlot where
  | addInterruptEntropy
  | addHwrngEntropy
  | addKeyboardEntropy
  | addMouseEntropy
  | addStorageEntropy
deriving DecidableEq, Repr

/-- The `vmkplxr_GetEntropyFunction`s of a driver. -/
inductive GetSlot where
  | getHwRandomBytes
  | getHwrngRandomBytes
  | getHwRandomBytesNonblocking
  | getSwRandomBytes
  | getSwOnlyRandomBytes
deriving DecidableEq, Repr

def AddSlot.source : AddSlot → EntropySource
  | .addInterruptEntropy => .hardwareInterrupt
  | .addHwrngEntropy => .hardwareRng
  | .addKeyboardEntropy => .keyboard
  | .addMouseEntropy => .mouse
  | .addStorageEntropy => .storage

def GetSlot.type : GetSlot → EntropyType
  | .getHwRandomBytes => .hardware
  -- registered for the source `VMK_ENTROPY_HARDWARE_RNG`, which is the number of this type
  | .getHwrngRandomBytes => .hardwareNonBlocking
  | .getHwRandomBytesNonblocking => .hardwareNonBlocking
  | .getSwRandomBytes => .software
  | .getSwOnlyRandomBytes => .softwareOnly

/-- `VmkplxrRandomDriver` of a module; functions are addresses, and `none` is NULL. -/
structure RandomDriver where
  modID : ModuleId
  add : AddSlot → Option Nat
  get : GetSlot → Option Nat

def RandomDriver.Complete (driver : RandomDriver) : Prop :=
  driver.add .addInterruptEntropy ≠ none ∧ driver.add .addKeyboardEntropy ≠ none ∧
    driver.add .addMouseEntropy ≠ none ∧ driver.add .addStorageEntropy ≠ none ∧
    driver.get .getHwRandomBytes ≠ none ∧ driver.get .getHwRandomBytesNonblocking ≠ none ∧
    driver.get .getSwRandomBytes ≠ none

instance (driver : RandomDriver) : Decidable driver.Complete := by
  unfold RandomDriver.Complete
  infer_instance

/-! ## The state -/

inductive GetFunction where
  | swEntropy
  | driver (f : Nat)
deriving DecidableEq, Repr

structure AddEntry where
  modID : ModuleId
  function : Nat
  source : EntropySource
deriving DecidableEq, Repr

structure GetEntry where
  modID : ModuleId
  function : GetFunction
  type : EntropyType
deriving DecidableEq, Repr

/-- What is static in `vmkplexer_entropy.c`, and what is registered with the vmkernel. -/
structure EntropyState where
  /-- `randomDriver.modID`; `none` is `VMK_INVALID_MODULE_ID`. -/
  modID : Option ModuleId := none
  /-- `randomDriver` -/
  add : AddSlot → Option Nat := fun _ => none
  get : GetSlot → Option Nat := fun _ => none
  swRandomInUse : Bool := false
  /-- `seed` of `vmkplxr_GetSwEntropy` -/
  seed : UInt32 := 0
  addFunctions : List AddEntry := []
  getFunctions : List GetEntry := []
  /-- The last registration for `VMK_ENTROPY_SOFTWARE_ONLY` was refused. -/
  swOnlyRefused : Bool := false

structure EntropyAnswers where
  add : AddSlot → Bool := fun _ => true
  get : GetSlot → Bool := fun _ => true
  /-- To that of `vmkplxr_GetSwEntropy`. -/
  swEntropy : Bool := true

namespace EntropyState

variable (s : EntropyState)

/-- `vmk_RegisterAddEntropyFunction` -/
def vmkRegisterAdd (accepted : Bool) (e : AddEntry) : EntropyState :=
  if accepted then { s with addFunctions := s.addFunctions ++ [e] } else s

/-- `vmk_RegisterGetEntropyFunction` -/
def vmkRegisterGet (accepted : Bool) (e : GetEntry) : EntropyState :=
  let s := if e.type = .softwareOnly then { s with swOnlyRefused := !accepted } else s
  if accepted then { s with getFunctions := s.getFunctions ++ [e] } else s

/-- `vmk_UnregisterAddEntropyFunction` "removes for all sources of entropy". -/
def vmkUnregisterAdd (modID : ModuleId) (f : Nat) : EntropyState × Bool :=
  ({ s with addFunctions := s.addFunctions.filter fun e => ¬(e.modID = modID ∧ e.function = f) },
    s.addFunctions.any fun e => e.modID = modID ∧ e.function = f)

/-- `vmk_UnregisterGetEntropyFunction` "removes for all types of entropy". -/
def vmkUnregisterGet (modID : ModuleId) (f : GetFunction) : EntropyState × Bool :=
  ({ s with getFunctions := s.getFunctions.filter fun e => ¬(e.modID = modID ∧ e.function = f) },
    s.getFunctions.any fun e => e.modID = modID ∧ e.function = f)

/-- `RegisterVmkplxrSWRandom`: the flag is set whatever the answer is. -/
def registerVmkplxrSWRandom (accepted : Bool) : EntropyState :=
  { s.vmkRegisterGet accepted ⟨.vmkplexer, .swEntropy, .softwareOnly⟩ with swRandomInUse := true }

def unregisterVmkplxrSWRandom : EntropyState :=
  { (s.vmkUnregisterGet .vmkplexer .swEntropy).1 with swRandomInUse := false }

/-- `vmkplxr_EntropyInit` -/
def init (accepted : Bool) : EntropyState := ({} : EntropyState).registerVmkplxrSWRandom accepted

/-! ## Registration -/

def registerAdd (driver : RandomDriver) (a : EntropyAnswers) (s : EntropyState) (slot : AddSlot) :
    EntropyState :=
  match driver.add slot with
  | none => s
  | some f =>
    let s := s.vmkRegisterAdd (a.add slot) ⟨driver.modID, f, slot.source⟩
    if a.add slot then { s with add := Function.update s.add slot (some f) } else s

def registerGet (driver : RandomDriver) (a : EntropyAnswers) (s : EntropyState) (slot : GetSlot) :
    EntropyState :=
  match driver.get slot with
  | none => s
  | some f =>
    let s := s.vmkRegisterGet (a.get slot) ⟨driver.modID, .driver f, slot.type⟩
    if a.get slot then { s with get := Function.update s.get slot (some f) } else s

/-- `getSwOnlyRandomBytes` takes the place of `vmkplxr_GetSwEntropy`, which comes back if it is
    refused. -/
def registerSwOnly (driver : RandomDriver) (a : EntropyAnswers) (s : EntropyState) : EntropyState :=
  if driver.get .getSwOnlyRandomBytes = none then s
  else
    let s := registerGet driver a s.unregisterVmkplxrSWRandom .getSwOnlyRandomBytes
    if a.get .getSwOnlyRandomBytes then s else s.registerVmkplxrSWRandom a.swEntropy

/-- `vmkplxr_RegisterRandomDriver` -/
def registerRandomDriver (driver : RandomDriver) (a : EntropyAnswers) : EntropyState × VmkStatus :=
  if s.modID ≠ none then (s, .busy)
  else if ¬driver.Complete then (s, .badParam)
  else
    let s := { s with modID := some driver.modID }
    let s := [.addInterruptEntropy, .addKeyboardEntropy, .addMouseEntropy, .addStorageEntropy,
      .addHwrngEntropy].foldl (registerAdd driver a) s
    let s := [.getHwRandomBytes, .getHwRandomBytesNonblocking, .getSwRandomBytes].foldl
      (registerGet driver a) s
    let s := registerSwOnly driver a s
    (registerGet driver a s .getHwrngRandomBytes, .ok)

/-- A function that was kept is taken back; the status becomes `VMK_BUSY` if that fails. -/
def unregisterAdd (modID : ModuleId) (r : EntropyState × VmkStatus) (slot : AddSlot) :
    EntropyState × VmkStatus :=
  match r.1.add slot with
  | none => r
  | some f =>
    let (s, done) := r.1.vmkUnregisterAdd modID f
    (s, if done then r.2 else .busy)

def unregisterGet (modID : ModuleId) (r : EntropyState × VmkStatus) (slot : GetSlot) :
    EntropyState × VmkStatus :=
  match r.1.get slot with
  | none => r
  | some f =>
    let (s, done) := r.1.vmkUnregisterGet modID (.driver f)
    (s, if done then r.2 else .busy)

/-- `TeardownEntropyRegistration` -/
def teardown (swAccepted : Bool) : EntropyState × VmkStatus :=
  match s.modID with
  | none => (s, .badParam)
  | some modID =>
    let r := [.addInterruptEntropy, .addHwrngEntropy, .addKeyboardEntropy, .addMouseEntropy,
      .addStorageEntropy].foldl (unregisterAdd modID) (s, .ok)
    let r := [.getHwRandomBytes, .getHwRandomBytesNonblocking, .getSwRandomBytes,
      .getHwrngRandomBytes, .getSwOnlyRandomBytes].foldl (unregisterGet modID) r
    let s' := if s.get .getSwOnlyRandomBytes = none then r.1
      else r.1.registerVmkplxrSWRandom swAccepted
    ({ s' with modID := none }, r.2)

/-- `vmkplxr_UnregisterRandomDriver` -/
def unregisterRandomDriver (driver : RandomDriver) (swAccepted : Bool) : EntropyState × VmkStatus :=
  if some driver.modID ≠ s.modID then (s, .badParam)
  else
    let (s, status) := s.teardown swAccepted
    ({ s with modID := none, add := fun _ => none, get := fun _ => none }, status)

end EntropyState

/-! ## Random bytes -/

/-- What a call for random bytes does: `none` where `buf` is not written. -/
structure Delivery where
  status : VmkStatus
  buf : Nat → Option UInt8
  bytesReturned : Int

inductive EntropyFault where
  | nullFunction
deriving DecidableEq, Repr

/-- What the functions of drivers do, given their address, `nbytes` and `*bytesReturned`. -/
abbrev DriverGet := Nat → Nat → Int → Delivery

/-- What the vmkernel gives: `vmk_Rand` and `vmk_GetRandSeed`. -/
structure VmkRandom where
  rand : UInt32 → UInt32
  randSeed : UInt32

/-- The first `n` bytes of `rand` are copied to `buf + pos`. -/
def copyRand (buf : Nat → Option UInt8) (pos n : Nat) (rand : UInt32) : Nat → Option UInt8 :=
  fun i => if pos ≤ i ∧ i < pos + n then some (rand >>> (8 * (i - pos)).toUInt32).toUInt8
    else buf i

/-- The loop of `vmkplxr_GetSwEntropy`, and the rest. -/
def fillRand (vmkRand : UInt32 → UInt32) :
    Nat → UInt32 → Nat → (Nat → Option UInt8) → (Nat → Option UInt8) × UInt32
  | nbytes + 4, seed, pos, buf =>
    fillRand vmkRand nbytes (vmkRand seed) (pos + 4) (copyRand buf pos 4 (vmkRand seed))
  | nbytes, seed, pos, buf =>
    if 0 < nbytes then (copyRand buf pos nbytes (vmkRand seed), vmkRand seed) else (buf, seed)

namespace EntropyState

/-- `vmkplxr_GetSwEntropy`.  `*bytesReturned` is what it was. -/
def getSwEntropy (k : VmkRandom) (s : EntropyState) (nbytes : Nat) (bytesReturned : Int) :
    Delivery × EntropyState :=
  let seed := if s.seed = 0 then k.randSeed else s.seed
  let (buf, seed) := fillRand k.rand nbytes seed 0 fun _ => none
  (⟨.ok, buf, bytesReturned⟩, { s with seed })

/-- `vmkplxr_GetRandomBytes` -/
def getRandomBytes (behave : DriverGet) (k : VmkRandom) (s : EntropyState) (nbytes : Nat)
    (bytesReturned : Int) : Except EntropyFault (Delivery × EntropyState) :=
  if s.modID ≠ none then
    let getDriverEntropy := if s.get .getHwrngRandomBytes ≠ none then s.get .getHwrngRandomBytes
      else s.get .getSwRandomBytes
    match getDriverEntropy with
    | none => .error .nullFunction
    | some f => .ok (behave f nbytes bytesReturned, s)
  else .ok (s.getSwEntropy k nbytes bytesReturned)

end EntropyState

/-! ## What is promised -/

/-- Exactly the first `*bytesReturned` bytes are written, and these are no more than asked for. -/
structure Delivery.Right (d : Delivery) (nbytes : Nat) : Prop where
  written : ∀ i : Nat, (d.buf i).isSome ↔ (i : Int) < d.bytesReturned
  returned_le : d.bytesReturned ≤ nbytes

def DriversRight (behave : DriverGet) : Prop :=
  ∀ f nbytes returned, (behave f nbytes returned).status = .ok →
    (behave f nbytes returned).Right nbytes

namespace EntropyState

/-- What is registered for `VMK_ENTROPY_SOFTWARE_ONLY`. -/
def swOnly (s : EntropyState) : List GetEntry := s.getFunctions.filter (·.type = .softwareOnly)

/-- One function serves `VMK_ENTROPY_SOFTWARE_ONLY`, unless the vmkernel has refused it. -/
def SwOnlyServed (s : EntropyState) : Prop :=
  s.swOnly.length = 1 ∨ s.swOnlyRefused = true ∧ s.swOnly = []

/-- A call of `vmkplxr_GetRandomBytes` delivers what it reports. -/
def Delivers (behave : DriverGet) (k : VmkRandom) (s : EntropyState) (nbytes : Nat)
    (bytesReturned : Int) : Prop :=
  ∃ d t, s.getRandomBytes behave k nbytes bytesReturned = .ok (d, t) ∧
    (d.status = .ok → d.Right nbytes ∧ (s.modID = none → d.bytesReturned = nbytes))

end EntropyState

inductive EntropyCall where
  | register (driver : RandomDriver) (a : EntropyAnswers)
  | unregister (driver : RandomDriver) (swAccepted : Bool)
  | getRandomBytes (k : VmkRandom) (nbytes : Nat) (bytesReturned : Int)

namespace EntropyState

def exec (behave : DriverGet) (s : EntropyState) : EntropyCall → EntropyState
  | .register driver a => (s.registerRandomDriver driver a).1
  | .unregister driver swAccepted => (s.unregisterRandomDriver driver swAccepted).1
  | .getRandomBytes k nbytes bytesReturned =>
    match s.getRandomBytes behave k nbytes bytesReturned with
    | .ok (_, t) => t
    | .error _ => s

end EntropyState

def EntropyStep (behave : DriverGet) (s : EntropyState) (call : EntropyCall) (t : EntropyState) :
    Prop :=
  t = s.exec behave call

/-- A driver that is taken has a function accepted which `vmkplxr_GetRandomBytes` then calls. -/
def FunctionAccepted (s : EntropyState) : EntropyCall → Prop
  | .register driver a => s.modID = none → driver.Complete →
      a.get .getSwRandomBytes = true ∨
        driver.get .getHwrngRandomBytes ≠ none ∧ a.get .getHwrngRandomBytes = true
  | _ => True

/-- Exactly one function is registered, and a call delivers unless it is left to
    `vmkplxr_GetSwEntropy` with another `*bytesReturned` than `nbytes`. -/
def EntropyRight (behave : DriverGet) (s : EntropyState) : Prop :=
  s.SwOnlyServed ∧ ∀ k nbytes bytesReturned, s.Delivers behave k nbytes bytesReturned ↔
    (s.modID = none → bytesReturned = nbytes)

/-! ## What is written -/

theorem isSome_copyRand (buf : Nat → Option UInt8) (pos n : Nat) (rand : UInt32) (i : Nat) :
    (copyRand buf pos n rand i).isSome ↔ (pos ≤ i ∧ i < pos + n) ∨ (buf i).isSome := by
  unfold copyRand
  split
  · next hin => exact iff_of_true rfl (.inl hin)
  · next hout => exact ⟨.inr, fun h => h.resolve_left hout⟩

theorem isSome_fillRand (vmkRand : UInt32 → UInt32) (nbytes : Nat) (seed : UInt32) (pos : Nat)
    (buf : Nat → Option UInt8) (i : Nat) :
    ((fillRand vmkRand nbytes seed pos buf).1 i).isSome ↔
      (pos ≤ i ∧ i < pos + nbytes) ∨ (buf i).isSome := by
  -- the loop of four bytes, with what it has written so far
  fun_induction fillRand vmkRand nbytes seed pos buf with
  | case1 seed pos buf nbytes ih =>
    rw [ih, isSome_copyRand, ← or_assoc]
    apply or_congr_left
    omega
  | case2 nbytes seed pos buf _ hpos => exact isSome_copyRand ..
  | case3 nbytes seed pos buf _ hpos =>
    refine ⟨.inr, fun h => h.resolve_left ?_⟩
    omega

namespace EntropyState

variable {behave : DriverGet} {k : VmkRandom} {s t : EntropyState} {nbytes : Nat}
  {returned : Int} {driver : RandomDriver} {a : EntropyAnswers} {e : GetEntry} (m : ModuleId)
  (ok : Bool)

theorem getSwEntropy_buf (k : VmkRandom) (s : EntropyState) (nbytes : Nat) (returned : Int)
    (i : Nat) : ((s.getSwEntropy k nbytes returned).1.buf i).isSome ↔ i < nbytes := by
  refine (isSome_fillRand k.rand nbytes _ 0 _ i).trans ?_
  simp

theorem delivers_swEntropy (hnone : s.modID = none) :
    s.Delivers behave k nbytes returned ↔ returned = nbytes := by
  have hcall : s.getRandomBytes behave k nbytes returned =
      .ok (s.getSwEntropy k nbytes returned) := by
    rw [getRandomBytes, if_neg (not_not.mpr hnone)]
  constructor
  -- what is returned decides: the bytes are there in any case
  · rintro ⟨d, t, hok, hright⟩
    obtain rfl := congrArg Prod.fst (Except.ok.inj (hcall.symm.trans hok))
    exact (hright rfl).2 hnone
  · rintro rfl
    refine ⟨_, _, hcall, fun _ => ⟨⟨fun i => ?_, Int.le_refl _⟩, fun _ => rfl⟩⟩
    exact (getSwEntropy_buf k s nbytes _ i).trans Int.ofNat_lt.symm

theorem delivers_driver (hdriver : DriversRight behave) (hsome : s.modID ≠ none)
    (hget : s.get .getHwrngRandomBytes ≠ none ∨ s.get .getSwRandomBytes ≠ none) :
    s.Delivers behave k nbytes returned := by
  -- the hardware generator comes first
  have hfunction : (if s.get .getHwrngRandomBytes ≠ none then s.get .getHwrngRandomBytes
      else s.get .getSwRandomBytes) ≠ none := by
    split
    · next hhwrng => exact hhwrng
    · next hhwrng => exact hget.resolve_left hhwrng
  obtain ⟨f, hf⟩ := Option.ne_none_iff_exists'.mp hfunction
  refine ⟨behave f nbytes returned, s, ?_, fun hok => ⟨hdriver f _ _ hok, ?_⟩⟩
  · rw [getRandomBytes, if_pos hsome]
    simp only [hf]
  · exact fun hnone => absurd hnone hsome

theorem not_delivers_null (hsome : s.modID ≠ none) (hhwrng : s.get .getHwrngRandomBytes = none)
    (hsw : s.get .getSwRandomBytes = none) : ¬s.Delivers behave k nbytes returned := by
  rintro ⟨d, t, hok, -⟩
  rw [getRandomBytes, if_pos hsome] at hok
  simp only [hhwrng, hsw] at hok
  cases hok

/-! ## What is registered -/

@[simp] theorem vmkRegisterGet_modID (e : GetEntry) : (s.vmkRegisterGet ok e).modID = s.modID := by
  unfold vmkRegisterGet
  split <;> split <;> rfl

@[simp] theorem vmkRegisterGet_get (e : GetEntry) : (s.vmkRegisterGet ok e).get = s.get := by
  unfold vmkRegisterGet
  split <;> split <;> rfl

theorem vmkRegisterGet_swOnly_of_ne (h : e.type ≠ .softwareOnly) :
    (s.vmkRegisterGet ok e).swOnly = s.swOnly ∧
      (s.vmkRegisterGet ok e).swOnlyRefused = s.swOnlyRefused := by
  unfold vmkRegisterGet swOnly
  rw [if_neg h]
  split
  · simp [List.filter_append, h]
  · exact ⟨rfl, rfl⟩

theorem vmkRegisterGet_swOnly (h : e.type = .softwareOnly) :
    (s.vmkRegisterGet ok e).swOnly = (if ok then s.swOnly ++ [e] else s.swOnly) ∧
      (s.vmkRegisterGet ok e).swOnlyRefused = !ok := by
  unfold vmkRegisterGet swOnly
  rw [if_pos h]
  cases ok with
  | false => exact ⟨rfl, rfl⟩
  | true => simp [List.filter_append, h]

theorem vmkUnregisterGet_swOnly (f : GetFunction) :
    (s.vmkUnregisterGet m f).1.swOnly =
      s.swOnly.filter fun e => ¬(e.modID = m ∧ e.function = f) := by
  unfold vmkUnregisterGet swOnly
  rw [List.filter_filter, List.filter_filter]
  exact List.filter_congr fun e _ => Bool.and_comm _ _

/-- What a step of the registration leaves of the functions that are looked at here. -/
structure SameGet (s t : EntropyState) : Prop where
  modID : t.modID = s.modID
  get : t.get = s.get
  getFunctions : t.getFunctions = s.getFunctions
  swOnlyRefused : t.swOnlyRefused = s.swOnlyRefused

theorem registerAdd_same (driver : RandomDriver) (a : EntropyAnswers) (slots : List AddSlot)
    (s : EntropyState) : SameGet s (slots.foldl (registerAdd driver a) s) := by
  induction slots generalizing s with
  | nil => exact ⟨rfl, rfl, rfl, rfl⟩
  | cons slot slots ih =>
    obtain ⟨hmodID, hget, hfunctions, hrefused⟩ := ih (registerAdd driver a s slot)
    -- one function to add entropy, accepted or not
    have hone : SameGet s (registerAdd driver a s slot) := by
      unfold registerAdd vmkRegisterAdd
      split
      · exact ⟨rfl, rfl, rfl, rfl⟩
      · cases a.add slot <;> exact ⟨rfl, rfl, rfl, rfl⟩
    exact ⟨hmodID.trans hone.modID, hget.trans hone.get, hfunctions.trans hone.getFunctions,
      hrefused.trans hone.swOnlyRefused⟩

def kept (driver : RandomDriver) (a : EntropyAnswers) (slot : GetSlot) : Option Nat :=
  if a.get slot then driver.get slot else none

@[simp] theorem registerGet_modID (driver : RandomDriver) (a : EntropyAnswers) (s : EntropyState)
    (slot : GetSlot) : (registerGet driver a s slot).modID = s.modID := by
  unfold registerGet
  split
  · rfl
  · split
    · exact vmkRegisterGet_modID ..
    · exact vmkRegisterGet_modID ..

theorem registerGet_get (driver : RandomDriver) (a : EntropyAnswers) (s : EntropyState)
    (slot : GetSlot) (hempty : s.get slot = none) :
    (registerGet driver a s slot).get = Function.update s.get slot (kept driver a slot) := by
  have hsame : Function.update s.get slot none = s.get := by
    rw [← hempty, Function.update_eq_self]
  unfold registerGet kept
  cases hget : driver.get slot with
  | none => simp [hsame]
  | some f =>
    cases ha : a.get slot with
    | false => simp [hsame]
    | true => simp

theorem registerGet_swOnly (driver : RandomDriver) (a : EntropyAnswers) (s : EntropyState)
    (slot : GetSlot) (hne : slot ≠ .getSwOnlyRandomBytes) :
    (registerGet driver a s slot).swOnly = s.swOnly ∧
      (registerGet driver a s slot).swOnlyRefused = s.swOnlyRefused := by
  -- the list of software-only functions is for one slot
  have htype : slot.type ≠ .softwareOnly := by
    cases slot with
    | getSwOnlyRandomBytes => exact absurd rfl hne
    | _ => decide
  unfold registerGet
  split
  · exact ⟨rfl, rfl⟩
  · next f _ =>
    have hentry := vmkRegisterGet_swOnly_of_ne (s := s) (a.get slot)
      (e := ⟨driver.modID, .driver f, slot.type⟩) htype
    split
    · exact hentry
    · exact hentry

theorem registerGet_swOnly_self (driver : RandomDriver) (a : EntropyAnswers) (s : EntropyState)
    {f : Nat} (hget : driver.get .getSwOnlyRandomBytes = some f) :
    (registerGet driver a s .getSwOnlyRandomBytes).swOnly =
      if a.get .getSwOnlyRandomBytes then s.swOnly ++ [⟨driver.modID, .driver f, .softwareOnly⟩]
      else s.swOnly := by
  have hentry := vmkRegisterGet_swOnly (s := s) (a.get .getSwOnlyRandomBytes)
    (e := ⟨driver.modID, .driver f, GetSlot.getSwOnlyRandomBytes.type⟩) rfl
  unfold registerGet
  rw [hget]
  cases ha : a.get .getSwOnlyRandomBytes with
  | true =>
    rw [ha] at hentry
    exact hentry.1
  | false =>
    rw [ha] at hentry
    exact hentry.1

/-! ## The invariant -/

/-- What stands for `VMK_ENTROPY_SOFTWARE_ONLY` where no driver does. -/
def swEntry : GetEntry := ⟨.vmkplexer, .swEntropy, .softwareOnly⟩

/-- It is `vmkplxr_GetSwEntropy`, unless that was refused. -/
def SwFallback (s : EntropyState) : Prop :=
  s.swOnly = [swEntry] ∨ s.swOnlyRefused = true ∧ s.swOnly = []

structure Inv (s : EntropyState) : Prop where
  served : (∃ m f, s.modID = some m ∧ s.get .getSwOnlyRandomBytes = some f ∧
      s.swOnly = [⟨m, .driver f, .softwareOnly⟩]) ∨
    s.get .getSwOnlyRandomBytes = none ∧ s.SwFallback
  empty : s.modID = none → s.get = fun _ => none
  callable : s.modID ≠ none →
    s.get .getHwrngRandomBytes ≠ none ∨ s.get .getSwRandomBytes ≠ none

theorem Inv.right (h : s.Inv) (hdriver : DriversRight behave) : EntropyRight behave s := by
  refine ⟨?_, fun k nbytes returned => ?_⟩
  · rcases h.served with ⟨m, f, -, -, hswOnly⟩ | ⟨-, hswOnly | ⟨hrefused, hswOnly⟩⟩
    · exact .inl (congrArg List.length hswOnly)
    · exact .inl (congrArg List.length hswOnly)
    · exact .inr ⟨hrefused, hswOnly⟩
  · by_cases hnone : s.modID = none
    · rw [delivers_swEntropy hnone]
      exact ⟨fun h _ => h, fun h => h hnone⟩
    · exact iff_of_true (delivers_driver hdriver hnone (h.callable hnone)) fun h => absurd h hnone

theorem fallback_register (hempty : s.swOnly = []) (ok : Bool) :
    (s.registerVmkplxrSWRandom ok).SwFallback := by
  obtain ⟨hswOnly, hrefused⟩ := vmkRegisterGet_swOnly (s := s) ok (e := swEntry) rfl
  rw [hempty] at hswOnly
  cases ok with
  | true => exact .inl hswOnly
  | false => exact .inr ⟨hrefused, hswOnly⟩

theorem init_inv (accepted : Bool) : (init accepted).Inv where
  served := .inr ⟨by simp [init, registerVmkplxrSWRandom], fallback_register rfl accepted⟩
  empty := by simp [init, registerVmkplxrSWRandom]
  callable := by simp [init, registerVmkplxrSWRandom]

theorem registerSwOnly_spec (driver : RandomDriver) (a : EntropyAnswers)
    (hempty : s.get .getSwOnlyRandomBytes = none) (hfallback : s.SwFallback) :
    (registerSwOnly driver a s).modID = s.modID ∧
    (registerSwOnly driver a s).get =
      Function.update s.get .getSwOnlyRandomBytes (kept driver a .getSwOnlyRandomBytes) ∧
    ((∃ f, kept driver a .getSwOnlyRandomBytes = some f ∧
        (registerSwOnly driver a s).swOnly = [⟨driver.modID, .driver f, .softwareOnly⟩]) ∨
      kept driver a .getSwOnlyRandomBytes = none ∧ (registerSwOnly driver a s).SwFallback) := by
  have hsame : Function.update s.get .getSwOnlyRandomBytes none = s.get := by
    rw [← hempty, Function.update_eq_self]
  -- `vmkplxr_GetSwEntropy` goes first
  have hgone : s.unregisterVmkplxrSWRandom.swOnly = [] := by
    have hfilter : s.unregisterVmkplxrSWRandom.swOnly = _ :=
      vmkUnregisterGet_swOnly (s := s) .vmkplexer .swEntropy
    rw [hfilter]
    rcases hfallback with hswOnly | ⟨-, hswOnly⟩
    · rw [hswOnly]
      rfl
    · rw [hswOnly]
      rfl
  unfold registerSwOnly
  cases hget : driver.get .getSwOnlyRandomBytes with
  | none =>
    have hkept : kept driver a .getSwOnlyRandomBytes = none := by
      rw [kept, hget]
      exact ite_self _
    rw [if_pos rfl, hkept, hsame]
    exact ⟨rfl, rfl, .inr ⟨rfl, hfallback⟩⟩
  | some f =>
    rw [if_neg (Option.some_ne_none f)]
    have hget' := registerGet_get driver a s.unregisterVmkplxrSWRandom _ hempty
    have hswOnly := registerGet_swOnly_self driver a s.unregisterVmkplxrSWRandom hget
    rw [hgone] at hswOnly
    cases ha : a.get .getSwOnlyRandomBytes with
    | true =>
      have hkept : kept driver a .getSwOnlyRandomBytes = some f := by
        rw [kept, ha, if_pos rfl, hget]
      rw [ha, if_pos rfl] at hswOnly
      exact ⟨registerGet_modID .., hget', .inl ⟨f, hkept, hswOnly⟩⟩
    | false =>
      have hkept : kept driver a .getSwOnlyRandomBytes = none := by
        rw [kept, ha, if_neg Bool.false_ne_true]
      rw [ha, if_neg Bool.false_ne_true] at hswOnly
      refine ⟨?_, ?_, .inr ⟨hkept, fallback_register hswOnly _⟩⟩
      · exact (vmkRegisterGet_modID ..).trans (registerGet_modID ..)
      · exact (vmkRegisterGet_get ..).trans hget'

/-! ## The calls -/

theorem register_spec (h : s.Inv) (hnone : s.modID = none) (hcomplete : driver.Complete) :
    ∃ t, s.registerRandomDriver driver a = (t, .ok) ∧ t.modID = some driver.modID ∧
      t.get = kept driver a ∧
      ((∃ f, t.get .getSwOnlyRandomBytes = some f ∧
          t.swOnly = [⟨driver.modID, .driver f, .softwareOnly⟩]) ∨
        t.get .getSwOnlyRandomBytes = none ∧ t.SwFallback) := by
  have hget : s.get = fun _ => none := h.empty hnone
  have hfallback : s.SwFallback := by
    rcases h.served with ⟨m, f, hsome, -, -⟩ | ⟨-, hfallback⟩
    · rw [hnone] at hsome
      cases hsome
    · exact hfallback
  rw [registerRandomDriver, if_neg (not_not.mpr hnone), if_neg (not_not.mpr hcomplete)]
  refine ⟨_, rfl, ?_⟩
  -- the functions that add entropy
  have hadd := registerAdd_same driver a [.addInterruptEntropy, .addKeyboardEntropy,
    .addMouseEntropy, .addStorageEntropy, .addHwrngEntropy] { s with modID := some driver.modID }
  generalize List.foldl (registerAdd driver a) { s with modID := some driver.modID } _ = s₁
    at hadd ⊢
  obtain ⟨hmodID₁, hget₁, hfunctions₁, hrefused₁⟩ := hadd
  rw [hget] at hget₁
  have hfallback₁ : s₁.SwFallback := by
    unfold SwFallback swOnly at hfallback ⊢
    rw [hfunctions₁, hrefused₁]
    exact hfallback
  -- the three that every driver has
  simp only [List.foldl_cons, List.foldl_nil]
  have hget₂ := registerGet_get driver a s₁ .getHwRandomBytes (by rw [hget₁])
  have hmodID₂ := registerGet_modID driver a s₁ .getHwRandomBytes
  have hswOnly₂ := registerGet_swOnly driver a s₁ .getHwRandomBytes nofun
  generalize registerGet driver a s₁ .getHwRandomBytes = s₂ at hget₂ hmodID₂ hswOnly₂ ⊢
  have hget₃ := registerGet_get driver a s₂ .getHwRandomBytesNonblocking
    (by simp [hget₂, hget₁])
  have hmodID₃ := registerGet_modID driver a s₂ .getHwRandomBytesNonblocking
  have hswOnly₃ := registerGet_swOnly driver a s₂ .getHwRandomBytesNonblocking nofun
  generalize registerGet driver a s₂ .getHwRandomBytesNonblocking = s₃ at hget₃ hmodID₃ hswOnly₃ ⊢
  have hget₄ := registerGet_get driver a s₃ .getSwRandomBytes
    (by simp [hget₃, hget₂, hget₁])
  have hmodID₄ := registerGet_modID driver a s₃ .getSwRandomBytes
  have hswOnly₄ := registerGet_swOnly driver a s₃ .getSwRandomBytes nofun
  generalize registerGet driver a s₃ .getSwRandomBytes = s₄ at hget₄ hmodID₄ hswOnly₄ ⊢
  have hfallback₄ : s₄.SwFallback := by
    unfold SwFallback
    rw [hswOnly₄.1, hswOnly₄.2, hswOnly₃.1, hswOnly₃.2, hswOnly₂.1, hswOnly₂.2]
    exact hfallback₁
  obtain ⟨hmodID₅, hget₅, hserved₅⟩ := registerSwOnly_spec driver a (s := s₄)
    (by simp [hget₄, hget₃, hget₂, hget₁]) hfallback₄
  generalize registerSwOnly driver a s₄ = s₅ at hmodID₅ hget₅ hserved₅ ⊢
  -- and the one of the hardware
  have hget₆ := registerGet_get driver a s₅ .getHwrngRandomBytes
    (by simp [hget₅, hget₄, hget₃, hget₂, hget₁])
  have hmodID₆ := registerGet_modID driver a s₅ .getHwrngRandomBytes
  have hswOnly₆ := registerGet_swOnly driver a s₅ .getHwrngRandomBytes nofun
  generalize registerGet driver a s₅ .getHwrngRandomBytes = t at hget₆ hmodID₆ hswOnly₆ ⊢
  have hgets : t.get = kept driver a := by
    funext slot
    rw [hget₆, hget₅, hget₄, hget₃, hget₂, hget₁]
    cases slot <;> rfl
  refine ⟨?_, hgets, ?_⟩
  · rw [hmodID₆, hmodID₅, hmodID₄, hmodID₃, hmodID₂, hmodID₁]
  · rw [hgets, hswOnly₆.1]
    unfold SwFallback at hserved₅ ⊢
    rw [hswOnly₆.1, hswOnly₆.2]
    exact hserved₅

theorem unregisterGet_foldl (slots : List GetSlot) (r : EntropyState × VmkStatus) :
    (slots.foldl (unregisterGet m) r).1.get = r.1.get ∧
    (slots.foldl (unregisterGet m) r).1.swOnlyRefused = r.1.swOnlyRefused ∧
    (slots.foldl (unregisterGet m) r).1.swOnly = r.1.swOnly.filter fun e =>
      ∀ slot ∈ slots, ∀ f, r.1.get slot = some f → ¬(e.modID = m ∧ e.function = .driver f) := by
  -- no slot is cleared: each is looked at as it was before the loop
  induction slots generalizing r with
  | nil => simp
  | cons slot slots ih =>
    obtain ⟨hget, hrefused, hswOnly⟩ := ih (unregisterGet m r slot)
    rw [List.foldl_cons]
    cases hslot : r.1.get slot with
    | none =>
      have hsame : unregisterGet m r slot = r := by
        rw [unregisterGet, hslot]
      rw [hsame] at hget hrefused hswOnly ⊢
      refine ⟨hget, hrefused, hswOnly.trans (List.filter_congr fun e _ => ?_)⟩
      simp [hslot]
    | some f =>
      have hone : unregisterGet m r slot = ((r.1.vmkUnregisterGet m (.driver f)).1,
          if (r.1.vmkUnregisterGet m (.driver f)).2 then r.2 else .busy) := by
        rw [unregisterGet, hslot]
      rw [hone] at hget hrefused hswOnly ⊢
      refine ⟨hget, hrefused, hswOnly.trans ?_⟩
      -- the two filters are one, by both conditions
      rw [vmkUnregisterGet_swOnly, List.filter_filter]
      refine List.filter_congr fun e _ => ?_
      have hgets : (r.1.vmkUnregisterGet m (.driver f)).1.get = r.1.get := rfl
      simp only [hgets, List.forall_mem_cons, hslot, Option.some.injEq, forall_eq',
        ← Bool.decide_and]
      exact decide_eq_decide.mpr and_comm

theorem unregisterAdd_foldl (slots : List AddSlot) (r : EntropyState × VmkStatus) :
    SameGet r.1 (slots.foldl (unregisterAdd m) r).1 := by
  induction slots generalizing r with
  | nil => exact ⟨rfl, rfl, rfl, rfl⟩
  | cons slot slots ih =>
    obtain ⟨hmodID, hget, hfunctions, hrefused⟩ := ih (unregisterAdd m r slot)
    have hone : SameGet r.1 (unregisterAdd m r slot).1 := by
      unfold unregisterAdd
      split
      · exact ⟨rfl, rfl, rfl, rfl⟩
      · exact ⟨rfl, rfl, rfl, rfl⟩
    exact ⟨hmodID.trans hone.modID, hget.trans hone.get, hfunctions.trans hone.getFunctions,
      hrefused.trans hone.swOnlyRefused⟩

theorem unregister_inv (h : s.Inv) (driver : RandomDriver) (swAccepted : Bool) :
    (s.unregisterRandomDriver driver swAccepted).1.Inv := by
  rw [unregisterRandomDriver]
  by_cases hother : some driver.modID ≠ s.modID
  · rw [if_pos hother]
    exact h
  rw [if_neg hother, not_not] at *
  obtain ⟨hmodID, hget, hfunctions, hrefused⟩ := unregisterAdd_foldl driver.modID
    [.addInterruptEntropy, .addHwrngEntropy, .addKeyboardEntropy, .addMouseEntropy,
      .addStorageEntropy] (s, .ok)
  have hserved := h.served
  rw [teardown, ← hother]
  dsimp only
  generalize List.foldl (unregisterAdd driver.modID) (s, .ok) _ = r at *
  obtain ⟨-, hrefused', hswOnly⟩ := unregisterGet_foldl driver.modID [.getHwRandomBytes,
    .getHwRandomBytesNonblocking, .getSwRandomBytes, .getHwrngRandomBytes, .getSwOnlyRandomBytes] r
  generalize List.foldl (unregisterGet driver.modID) r _ = r' at *
  have hbefore : r.1.swOnly = s.swOnly := by
    unfold swOnly
    rw [hfunctions]
  rw [hbefore] at hswOnly
  refine ⟨.inr ⟨rfl, ?_⟩, fun _ => rfl, fun hsome => absurd rfl hsome⟩
  rcases hserved with ⟨m, f, hm, hf, hentry⟩ | ⟨hf, hfallback⟩
  · -- the function of the driver is taken back
    obtain rfl : driver.modID = m := Option.some.inj (hother.trans hm)
    have hgone : r'.1.swOnly = [] := by
      rw [hswOnly, hentry]
      simp [hget, hf]
    rw [if_neg (by rw [hf]; exact Option.some_ne_none f)]
    exact fallback_register hgone swAccepted
  · -- that of the vmkplexer stays
    have hkept : r'.1.swOnly = s.swOnly := by
      rw [hswOnly]
      rcases hfallback with hentry | ⟨-, hentry⟩
      · rw [hentry]
        simp [swEntry]
      · rw [hentry]
        rfl
    rw [if_pos hf]
    have hafter : r'.1.SwFallback := by
      unfold SwFallback
      rw [hkept, hrefused', hrefused]
      exact hfallback
    exact hafter

theorem register_step (h : s.Inv) (driver : RandomDriver) (a : EntropyAnswers) :
    (FunctionAccepted s (.register driver a) → (s.registerRandomDriver driver a).1.Inv) ∧
      (EntropyRight behave (s.registerRandomDriver driver a).1 →
        FunctionAccepted s (.register driver a)) := by
  -- a second driver is refused, and so is one that lacks a function it must have
  by_cases hnone : s.modID = none
  swap
  · rw [registerRandomDriver, if_pos hnone]
    exact ⟨fun _ => h, fun _ hnone' => absurd hnone' hnone⟩
  by_cases hcomplete : driver.Complete
  swap
  · rw [registerRandomDriver, if_neg (not_not.mpr hnone), if_pos hcomplete]
    exact ⟨fun _ => h, fun _ _ hcomplete' => absurd hcomplete' hcomplete⟩
  obtain ⟨t, hregister, hmodID, hget, hserved⟩ := register_spec (a := a) h hnone hcomplete
  have hsome : t.modID ≠ none := by
    rw [hmodID]
    exact Option.some_ne_none _
  -- of the two functions that `getRandomBytes` calls, which are there
  have hsw : t.get .getSwRandomBytes ≠ none ↔ a.get .getSwRandomBytes = true := by
    obtain ⟨-, -, -, -, -, -, hdriver⟩ := hcomplete
    rw [hget, kept]
    cases a.get .getSwRandomBytes <;> simp [hdriver]
  have hhwrng : t.get .getHwrngRandomBytes ≠ none ↔
      driver.get .getHwrngRandomBytes ≠ none ∧ a.get .getHwrngRandomBytes = true := by
    rw [hget, kept]
    cases a.get .getHwrngRandomBytes <;> simp
  have hguard : FunctionAccepted s (.register driver a) ↔
      t.get .getHwrngRandomBytes ≠ none ∨ t.get .getSwRandomBytes ≠ none := by
    rw [hsw, hhwrng, or_comm]
    exact ⟨fun h => h hnone hcomplete, fun h _ _ => h⟩
  rw [hregister, hguard]
  constructor
  · intro hcallable
    refine ⟨?_, fun hnone' => absurd hnone' hsome, fun _ => hcallable⟩
    exact hserved.imp_left fun ⟨f, hf, hentry⟩ => ⟨driver.modID, f, hmodID, hf, hentry⟩
  · rintro ⟨-, hright⟩
    by_contra hnull
    rw [not_or, not_not, not_not] at hnull
    -- otherwise the next request calls a null pointer
    have hdelivers := (hright ⟨id, 0⟩ 0 0).mpr fun hnone' => absurd hnone' hsome
    exact not_delivers_null hsome hnull.1 hnull.2 hdelivers

theorem getRandomBytes_inv (h : s.Inv) (k : VmkRandom) (nbytes : Nat) (returned : Int) :
    (s.exec behave (.getRandomBytes k nbytes returned)).Inv := by
  -- nothing but the seed changes
  have hsame : ∃ seed, s.exec behave (.getRandomBytes k nbytes returned) = { s with seed } := by
    rw [exec]
    split
    · next d t hok =>
      rw [getRandomBytes] at hok
      by_cases hsome : s.modID ≠ none
      · rw [if_pos hsome] at hok
        generalize (if s.get .getHwrngRandomBytes ≠ none then s.get .getHwrngRandomBytes
          else s.get .getSwRandomBytes) = function at hok
        cases function with
        | none => cases hok
        | some f => exact ⟨s.seed, (congrArg Prod.snd (Except.ok.inj hok)).symm⟩
      · rw [if_neg hsome] at hok
        exact ⟨_, (congrArg Prod.snd (Except.ok.inj hok)).symm⟩
    · exact ⟨s.seed, rfl⟩
  obtain ⟨seed, hseed⟩ := hsame
  rw [hseed]
  exact ⟨h.served, h.empty, h.callable⟩

end EntropyState

open EntropyState

theorem EntropyStep.unique {behave : DriverGet} (s : EntropyState) (call : EntropyCall)
    (t t' : EntropyState) (h : EntropyStep behave s call t) (h' : EntropyStep behave s call t') :
    t = t' :=
  h.trans h'.symm

/-- **Random bytes**: after all calls, one function serves `VMK_ENTROPY_SOFTWARE_ONLY` unless it was
    refused, and `vmkplxr_GetRandomBytes` delivers what it reports exactly if `*bytesReturned` held
    `nbytes` where no driver is there, if and only if of each driver that was taken a function was
    accepted which is then called. -/
theorem random_bytes_iff {behave : DriverGet} (hdriver : DriversRight behave) (accepted : Bool)
    {calls : List EntropyCall} {s : EntropyState}
    (hrun : Run (EntropyStep behave) (.init accepted) calls s) :
    Always (EntropyStep behave) (EntropyRight behave) (.init accepted) calls ↔
      Run (Guarded (EntropyStep behave) FunctionAccepted) (.init accepted) calls s := by
  refine always_iff_guarded EntropyStep.unique (I := EntropyState.Inv)
    (fun s h => h.right hdriver) (fun s call t h hstep => ?_) hrun (init_inv accepted)
  obtain rfl := hstep
  cases call with
  | register driver a => exact register_step h driver a
  | unregister driver swAccepted =>
    exact ⟨fun _ => unregister_inv h driver swAccepted, fun _ => trivial⟩
  | getRandomBytes k nbytes returned =>
    exact ⟨fun _ => getRandomBytes_inv h k nbytes returned, fun _ => trivial⟩

/-- A driver with all functions, and the answers that refuse its `getSwRandomBytes`. -/
def randomDriver : RandomDriver where
  modID := .loaded 7
  add _ := some 1
  get slot := if slot = .getHwrngRandomBytes then none else some 2

def refuseSw : EntropyAnswers where
  get slot := slot ≠ .getSwRandomBytes

def writeAll : DriverGet := fun _ nbytes _ =>
  ⟨.ok, fun i => if i < nbytes then some 1 else none, nbytes⟩

theorem driversRight_writeAll : DriversRight writeAll := by
  intro f nbytes returned _
  refine ⟨fun i => ?_, Int.le_refl _⟩
  simp [writeAll]

/-- A driver comes, is asked for ten bytes, and goes. -/
theorem random_bytes_session : Always (EntropyStep writeAll) (EntropyRight writeAll) (.init true)
    [.register randomDriver {}, .getRandomBytes ⟨id, 1⟩ 10 0, .unregister randomDriver true] :=
  (random_bytes_iff driversRight_writeAll true (.cons rfl (.cons rfl (.cons rfl (.nil _))))).mpr
    (.cons ⟨fun _ _ => .inl rfl, rfl⟩ (.cons ⟨trivial, rfl⟩ (.cons ⟨trivial, rfl⟩ (.nil _))))

/-- Four bytes are written and none is reported where no driver is there; and a null pointer is
    called where `getSwRandomBytes` was refused. -/
theorem random_bytes_lost :
    (∃ d t, (EntropyState.init true).getRandomBytes writeAll ⟨id, 1⟩ 4 0 = .ok (d, t) ∧
      d.status = .ok ∧ d.bytesReturned = 0 ∧ (∀ i : Nat, (d.buf i).isSome ↔ i < 4) ∧
      ¬(EntropyState.init true).Delivers writeAll ⟨id, 1⟩ 4 0) ∧
    ∃ s, Run (EntropyStep writeAll) (.init true) [.register randomDriver refuseSw] s ∧
      s.getRandomBytes writeAll ⟨id, 1⟩ 4 4 = .error .nullFunction := by
  refine ⟨⟨_, _, rfl, rfl, rfl, fun i => ?_, ?_⟩, _, .single rfl, rfl⟩
  · exact getSwEntropy_buf ⟨id, 1⟩ (.init true) 4 0 i
  · rw [delivers_swEntropy rfl]
    decide

end VmkDrivers.Vmkplexer
