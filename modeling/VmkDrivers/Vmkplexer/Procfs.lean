/-
  VmkDrivers.Vmkplexer.Procfs

  The proc tree: the nodes of the vmkplexer (`vmkplexer_procfs.c`), and those
  that vmklinux allocates with them (`linux_proc.c`).

  Pointers are addresses, with `none` for NULL; `entries` and `pdes` are the
  memory behind them.  A `childList` holds the entries that are linked there, the
  first one first.  A walk through a list that meets memory which is not
  allocated fails with a `Fault`.

  `VMK_ASSERT(*entryPath != '/')` is left out: where it is empty, such a path is
  looked up as any other.
-/

import VmkDrivers.Vmkplexer.Chardevs

namespace VmkDrivers.Vmkplexer

/-- `VMKPLXR_PROCFS_MAX_NAME` -/
def procfsMaxName : Nat := 64

structure ProcfsEntry where
  name : List Char
  moduleID : Nat
  childList : List Nat := []
  isDir : Bool
  privateData : Option Nat := none
deriving DecidableEq, Repr

structure ProcDirEntry where
  vmkplxrProcEntry : Nat
deriving DecidableEq, Repr

structure Procfs where
  entries : Nat → Option ProcfsEntry
  pdes : Nat → Option ProcDirEntry
  /-- The entries that are registered with the vmkernel by `vmk_ProcRegister`. -/
  registered : List Nat := []

/-- A call of `vmklnx_create_proc_entry` or `vmklnx_proc_mkdir`, with the memory that `vmk_HeapAlloc`
    returns and whether `vmk_ProcEntryCreate` succeeds; `parent` is a `proc_dir_entry`. -/
structure CreateCall where
  moduleId : Nat
  path : List Char
  isDir : Bool
  parent : Option Nat := none
  pde : Option Nat
  entry : Option Nat
  created : Bool := true
deriving DecidableEq, Repr

inductive ProcfsStatus where
  | badParam
  | exist
  | notFound
  | noPermission
  | busy
  | failure
deriving DecidableEq, Repr

/-- `procRoot`, behind which the other predefined nodes have the next addresses. -/
def procRoot : Nat := 0

def procBus : Nat := 4

/-! ## Paths -/

/-- `VmkplxrProcfsCopyPath`: "the copied path is normalized with multiple consecutive / reduced to
    one". -/
def copyPath (slash : Bool) : List Char → List Char
  | [] => []
  | c :: path => if slash ∧ c = '/' then copyPath true path else c :: copyPath (c = '/') path

def pathBuffer (path : List Char) : List Char := (copyPath false path).take (procfsMaxName - 1)

/-- The names that the loop of `VmkplxrProcfsFindEntry` takes from a path: what is between the
    slashes, and nothing behind a slash at the end. -/
def pathNames : List Char → List (List Char)
  | [] => []
  | c :: path =>
    if c = '/' then [] :: pathNames path
    else
      match pathNames path with
      | [] => [[c]]
      | name :: names => (c :: name) :: names

def parentPath (path : List Char) : Option (List Char) :=
  if '/' ∈ path then some (path.reverse.dropWhile (· ≠ '/')).tail.reverse else none

def baseName (path : List Char) : List Char := (path.reverse.takeWhile (· ≠ '/')).reverse

namespace Procfs

/-! ## Lookups -/

/-- `VmkplxrProcfsFindChildEntry` -/
def findChildEntry (d : Procfs) (name : List Char) : List Nat → Except Fault (Option Nat)
  | [] => .ok none
  | c :: cs => do
    let child ← follow d.entries (some c)
    if child.name = name then return some c else findChildEntry d name cs

/-- The loop of `VmkplxrProcfsFindEntry`; `entry` is what it has found last. -/
def walk (d : Procfs) (rootDirEntry : Nat) (entry : Option Nat) :
    List (List Char) → Except Fault (Option Nat)
  | [] => .ok entry
  | name :: names => do
    let dir ← follow d.entries (some rootDirEntry)
    if dir.isDir = false then return entry
    else
      match ← d.findChildEntry name dir.childList with
      | none => return none
      | some c => walk d c (some c) names

variable (d : Procfs)

/-- `vmkplxr_ProcfsFindEntry` -/
def findEntry (rootDirEntry : Nat) (path : List Char) : Except Fault (Option Nat) :=
  if path = [] then .ok (some rootDirEntry)
  else if procfsMaxName ≤ path.length then .ok none
  else d.walk rootDirEntry none (pathNames (pathBuffer path))

/-- `VmkplxrProcfsFindParentEntry` -/
def findParentEntry (rootDirEntry : Nat) (path : List Char) : Except Fault (Option Nat) :=
  match parentPath (pathBuffer path) with
  | none => .ok (some rootDirEntry)
  | some path => d.walk rootDirEntry none (pathNames path)

/-! ## Attaching and detaching -/

/-- `VmkplxrProcfsAddEntryToParent` -/
def addEntryToParent (parent entry : Nat) : Except Fault Procfs := do
  let e ← follow d.entries (some parent)
  return { d with
    entries := Function.update d.entries parent (some { e with childList := entry :: e.childList }) }

/-- `VmkplxrProcfsRemoveEntryFromParent` -/
def removeEntryFromParent (entry : Nat) : Procfs :=
  { d with
    entries := fun a => (d.entries a).map fun e => { e with childList := e.childList.erase entry } }

/-- `vmkplxr_ProcfsAttachEntry`; `created` is whether `vmk_ProcEntryCreate` succeeds. -/
def attachEntry (rootDirEntry : Nat) (path : List Char) (newEntry : Nat) (created : Bool) :
    Except Fault (Option ProcfsStatus × Procfs) :=
  if procfsMaxName ≤ path.length then .ok (some .badParam, d)
  else do
    match ← d.findEntry rootDirEntry path with
    | some _ => return (some .exist, d)
    | none =>
      match ← d.findParentEntry rootDirEntry path with
      | none => return (some .failure, d)
      | some parentEntry =>
        -- the entry is linked before the vmkernel creates its node
        let d ← d.addEntryToParent parentEntry newEntry
        if created = false then return (some .failure, d)
        else return (none, { d with registered := newEntry :: d.registered })

/-- `vmkplxr_ProcfsDetachEntry` -/
def detachEntry (ownerID rootDirEntry : Nat) (path : List Char) :
    Except Fault (Except ProcfsStatus Nat × Procfs) := do
  match ← d.findEntry rootDirEntry path with
  | none => return (.error .notFound, d)
  | some entry =>
    let e ← follow d.entries (some entry)
    if e.moduleID ≠ ownerID then return (.error .noPermission, d)
    -- "Don't want to detach a node with children."
    else if e.isDir ∧ e.childList ≠ [] then return (.error .busy, d)
    else
      return (.ok entry,
        { d.removeEntryFromParent entry with registered := d.registered.erase entry })

/-! ## The calls of vmklinux -/

/-- `vmklnx_create_proc_entry` -/
def createProcEntry (call : CreateCall) : Except Fault (Option Nat × Procfs) :=
  if procfsMaxName ≤ call.path.length then .ok (none, d)
  else
    match call.pde, call.entry with
    | some pde, some entry => do
      -- a `parent` that is NULL is `proc_root`
      let parent ← follow d.pdes (some (call.parent.getD procRoot))
      let newEntry : ProcfsEntry :=
        { name := (baseName call.path).take (procfsMaxName - 1)
          moduleID := call.moduleId
          isDir := call.isDir
          privateData := some pde }
      let d : Procfs := { d with
        entries := Function.update d.entries entry (some newEntry)
        pdes := Function.update d.pdes pde (some ⟨entry⟩) }
      match ← d.attachEntry parent.vmkplxrProcEntry call.path entry call.created with
      | (none, d) => return (some pde, d)
      | (some _, d) =>
        return (none, { d with
          entries := Function.update d.entries entry none
          pdes := Function.update d.pdes pde none })
    | _, _ => .ok (none, d)

/-- `vmklnx_remove_proc_entry`; true if the entry was removed. -/
def removeProcEntry (moduleId : Nat) (path : List Char) (parent : Option Nat) :
    Except Fault (Bool × Procfs) :=
  if procfsMaxName ≤ path.length then .ok (false, d)
  else do
    let parent ← follow d.pdes (some (parent.getD procRoot))
    match ← d.detachEntry moduleId parent.vmkplxrProcEntry path with
    | (.error _, d) => return (false, d)
    | (.ok entry, d) =>
      let e ← follow d.entries (some entry)
      let pde ← follow d.pdes e.privateData
      vmkAssert (pde.vmkplxrProcEntry = entry) .assertion
      return (true, { d with
        entries := Function.update d.entries entry none
        pdes := fun p => if some p = e.privateData then none else d.pdes p })

end Procfs

inductive ProcfsCall where
  | create (call : CreateCall)
  | remove (moduleId : Nat) (path : List Char) (parent : Option Nat)
deriving DecidableEq, Repr

namespace Procfs

/-- `VMK_VMKERNEL_MODULE_ID`, which the predefined nodes have for their owner, and which is not that
    of a module. -/
def vmkernelModuleID : Nat := 0

/-- The `proc_dir_entry` of a directory. -/
def LiveDir (d : Procfs) (parent : Option Nat) : Prop :=
  ∃ pde ∈ d.pdes (parent.getD procRoot), ∃ e ∈ d.entries pde.vmkplxrProcEntry, e.isDir = true

instance (d : Procfs) (parent : Option Nat) : Decidable (d.LiveDir parent) := by
  unfold LiveDir
  infer_instance

/-- A module calls, with a directory that there is; what is allocated was not in use. -/
def Possible (d : Procfs) : ProcfsCall → Prop
  | .create call => call.moduleId ≠ vmkernelModuleID ∧ d.LiveDir call.parent ∧
      (∀ p ∈ call.pde, d.pdes p = none) ∧ ∀ n ∈ call.entry, d.entries n = none
  | .remove moduleId _ parent => moduleId ≠ vmkernelModuleID ∧ d.LiveDir parent

instance (d : Procfs) (e : ProcfsCall) : Decidable (d.Possible e) := by
  unfold Possible
  split <;> infer_instance

def call (d : Procfs) : ProcfsCall → Except Fault (Bool × Procfs)
  | .create call => (d.createProcEntry call).map fun (pde, d) => (pde.isSome, d)
  | .remove moduleId path parent => d.removeProcEntry moduleId path parent

/-- `vmkplxr_ProcfsInit` and `LinuxProc_Init` -/
def init : Procfs where
  entries := fun n =>
    if n = procRoot then some ⟨"proc".toList, vmkernelModuleID, [4, 3, 2, 1], true, none⟩
    else
      ([(1, "driver"), (2, "net"), (3, "scsi"), (4, "bus")].lookup n).map fun name =>
        ⟨name.toList, vmkernelModuleID, [], true, none⟩
  pdes := fun p => if p ≤ procBus then some ⟨p⟩ else none

end Procfs

def procfsNext? (s : Except Fault Procfs) (e : ProcfsCall) : Option (Except Fault Procfs) :=
  match s with
  | .error _ => none
  | .ok d => if d.Possible e then some ((d.call e).map Prod.snd) else none

def ProcfsStep (s : Except Fault Procfs) (e : ProcfsCall) (t : Except Fault Procfs) : Prop :=
  procfsNext? s e = some t

end VmkDrivers.Vmkplexer
