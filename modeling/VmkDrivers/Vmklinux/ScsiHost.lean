/-
  VmkDrivers.Vmklinux.ScsiHost

  The life of a SCSI host, from `scsi_host_alloc` to its release
  (`linux_scsi_lld_if.c`, with `device_add` and `device_del` of `core.c`).

  `scsi_add_host` takes a second reference of the host behind `device_add`, and one
  of the parent.  A driver calls `scsi_remove_host` and `scsi_host_put` whatever
  became of `scsi_add_host`, and these put both references of the host, and its
  release puts the parent.  So nothing is wrong if `device_add` has been passed, and
  else something always is.  One thing remains then: the error handler of a host is
  only stopped if the adapter of the host is still set when the host is released.

  Parameters of the adapter, the names, and what a transport sets up for itself are
  not part of the model, nor are devices and targets of the host.
-/

import VmkDrivers.Lib.ExceptLoop
import VmkDrivers.Lib.Transition
import VmkDrivers.Vmklinux.Scsi

namespace VmkDrivers.Vmklinux

open VmkDrivers.Lib

/-! ## The host and what belongs to it -/

inductive HostResource where
  /-- `vmk_ScsiAllocateAdapter` -/
  | vmkAdapter
  | freelist
  /-- `scsi_proc_hostdir_add` -/
  | procHostdir
  /-- The `struct vmklnx_ScsiAdapterInt`. -/
  | scsiAdapter
  | shostData
  /-- `sh->work_q` -/
  | workQueue
  /-- `vmk_ScsiRegisterAdapter` -/
  | registration
  /-- The array of TLS objects. -/
  | tls
  | vectorInfo
  /-- The entry of `linuxSCSIAdapterList`. -/
  | adapterEntry
  /-- `scsi_proc_host_add` -/
  | procHost
deriving DecidableEq, Repr

/-- Of `struct vmklnx_ScsiAdapter`, which of its pointers are set. -/
structure ScsiAdapter where
  tls : Bool := false
  vectorInfo : Bool := false
deriving DecidableEq, Repr

/-- `struct Scsi_Host`, with `shost_gendev`. -/
structure ScsiHost where
  /-- The count of `shost_gendev`. -/
  refs : Int := 1
  shostState : ShostState := .created
  parent : Option Nat := none
  /-- `knode_parent` is in the list of its parent. -/
  knodeParent : Bool := false
  adapter : Option ScsiAdapter := none
  shostData : Bool := false
  workQ : Bool := false
  ehandler : Bool := false
deriving DecidableEq, Repr

structure HostWorld where
  /-- The memory of the host, if it is allocated. -/
  host : Option ScsiHost := none
  /-- How often the memory was allocated, and freed. -/
  allocs : Nat := 0
  frees : Nat := 0
  /-- The counts of the other devices. -/
  devRefs : Nat → Int
  held : HostResource → Bool := fun _ => false
  /-- `scsi_error_handler` runs. -/
  errorHandler : Bool := false
  /-- `adapter_destroy_work` is queued. -/
  destroyWork : Bool := false

inductive HostFault where
  /-- The host is touched, and not allocated. -/
  | freedHost
  /-- `klist_del` of a node that is in no list. -/
  | nullKlist
  | notHeld (r : HostResource)
deriving DecidableEq, Repr

namespace HostWorld

variable (w : HostWorld)

def getHost : Except HostFault ScsiHost :=
  match w.host with
  | some sh => .ok sh
  | none => .error .freedHost

def setHost (sh : ScsiHost) : HostWorld := { w with host := some sh }

def modifyHost (f : ScsiHost → ScsiHost) : Except HostFault HostWorld := do
  let sh ← w.getHost
  return w.setHost (f sh)

def hold (r : HostResource) : HostWorld := { w with held := Function.update w.held r true }

def release (r : HostResource) : Except HostFault HostWorld :=
  if w.held r then .ok { w with held := Function.update w.held r false }
  else .error (.notHeld r)

def releaseIf (b : Bool) (r : HostResource) : Except HostFault HostWorld :=
  if b then w.release r else .ok w

def holdIf (b : Bool) (r : HostResource) : HostWorld :=
  { w with held := if b then Function.update w.held r true else w.held }

def addDevRef (d : Nat) (n : Int) : HostWorld :=
  { w with devRefs := Function.update w.devRefs d (w.devRefs d + n) }

def addParentRef : Option Nat → Int → HostWorld
  | some d, n => w.addDevRef d n
  | none, _ => w

end HostWorld

/-! ## References -/

/-- `vmklnx_scsi_free_host_resources` -/
def freeHostResources (w : HostWorld) : Except HostFault HostWorld := do
  let sh ← w.getHost
  let w ← w.release .freelist
  let w ← w.release .procHostdir
  let w ← (w.addParentRef sh.parent (-1)).release .vmkAdapter
  return { w with host := none, frees := w.frees + 1 }

def scsiHostDevRelease (w : HostWorld) : Except HostFault HostWorld := do
  let sh ← w.getHost
  if sh.adapter.isSome then return { w with destroyWork := true }
  else freeHostResources w

/-- `get_device(&sh->shost_gendev)` -/
def getHostDevice (w : HostWorld) : Except HostFault HostWorld :=
  w.modifyHost fun sh => { sh with refs := sh.refs + 1 }

/-- `put_device(&sh->shost_gendev)` -/
def putHostDevice (w : HostWorld) : Except HostFault HostWorld := do
  let sh ← w.getHost
  let w := w.setHost { sh with refs := sh.refs - 1 }
  if sh.refs - 1 = 0 then scsiHostDevRelease w else return w

/-- `destroy_adapter_tls`, and the release of the adapter. -/
def destroyAdapter (w : HostWorld) (adapter : ScsiAdapter) : Except HostFault HostWorld := do
  let w ← w.releaseIf adapter.vectorInfo .vectorInfo
  let w ← w.releaseIf adapter.tls .tls
  w.release .scsiAdapter

/-- `vmklnx_scsi_unregister_host`, the work that was queued. -/
def unregisterHost (w : HostWorld) : Except HostFault HostWorld := do
  let w := { w with destroyWork := false }
  let sh ← w.getHost
  match sh.adapter with
  | none => freeHostResources w
  | some adapter =>
    let w ← w.release .registration
    let w ← w.release .adapterEntry
    -- `kthread_stop`
    let w := { w with errorHandler := w.errorHandler && !sh.ehandler }
    let w ← w.releaseIf sh.workQ .workQueue
    let w ← w.releaseIf sh.shostData .shostData
    let w ← w.release .procHost
    let w ← destroyAdapter w adapter
    freeHostResources w

/-! ## The driver core -/

/-- `device_add`; it fails if `bus_add_device` does. -/
def deviceAdd (w : HostWorld) (busAdd : Bool) : Except HostFault (HostWorld × Bool) := do
  let w ← getHostDevice w
  let sh ← w.getHost
  let w := w.addParentRef sh.parent 1
  if busAdd then
    -- `klist_add_tail` takes a reference of the child
    let w := w.setHost { sh with knodeParent := sh.parent.isSome }
    let w ← if sh.parent.isSome then getHostDevice w else pure w
    let w ← putHostDevice w
    return (w, true)
  else
    let w := w.addParentRef sh.parent (-1)
    let w ← putHostDevice w
    return (w, false)

def deviceDel (w : HostWorld) : Except HostFault HostWorld := do
  let sh ← w.getHost
  if sh.parent.isNone then return w
  else if sh.knodeParent = false then throw .nullKlist
  else
    let w ← putHostDevice (w.setHost { sh with knodeParent := false })
    -- `bus_remove_device` and `devres_release_all`
    let _ ← w.getHost
    return w.addParentRef sh.parent (-1)

/-! ## The calls of the driver -/

/-- `struct scsi_host_template` and `struct Scsi_Host`, as far as they are checked. -/
structure HostTemplate where
  name : Bool := true
  queuecommand : Bool := true
  sgTablesize : Nat := 1
  canQueue : Nat := 1
  enableEh : Bool := false
deriving DecidableEq, Repr

/-- What `vmk_ScsiRegisterAdapter` returns. -/
inductive RegisterStatus where
  | ok
  | exists
  | failed
deriving DecidableEq, Repr

structure HostRun where
  hostt : HostTemplate := {}
  /-- `vmklnx_kzmalloc`, `vmk_ScsiAllocateAdapter`, `scsi_setup_command_freelist` and
      `kthread_run` in `scsi_host_alloc`. -/
  allocHost : Bool := true
  allocVmkAdapter : Bool := true
  setupFreelist : Bool := true
  runErrorHandler : Bool := true
  /-- The parent that the driver has set. -/
  parent : Option Nat := none
  /-- The device that the driver gives to `scsi_add_host`. -/
  pDev : Option Nat := some 0
  busAdd : Bool := true
  allocAdapter : Bool := true
  hostSize : Nat := 0
  allocShostData : Bool := true
  createWorkqueue : Bool := true
  register : RegisterStatus := .ok
  /-- The same with another name. -/
  registerAgain : RegisterStatus := .ok
  /-- The set-up of the transport, if it has one. -/
  transportSetup : Bool := true
  /-- The allocations in `vmklnx_setup_adapter_tls`. -/
  allocTls : Bool := true
  allocVectorInfo : Bool := true
  /-- `SCSILinuxTLSWorldletCreate` for each object, and `vmk_ScsiRegisterCompObjects`. -/
  createWorldlets : Bool := true
  allocCompObjectInfo : Bool := true
  registerCompObjects : Bool := true
deriving DecidableEq, Repr

namespace HostRun

variable (c : HostRun)

def scsiHostAlloc (w : HostWorld) : Except HostFault HostWorld := do
  if c.allocHost = false then return w
  let w := { w with host := some {}, allocs := w.allocs + 1 }
  if c.allocVmkAdapter = false then return { w with host := none, frees := w.frees + 1 }
  let w := w.hold .vmkAdapter
  if c.setupFreelist = false then
    let w ← w.release .vmkAdapter
    return { w with host := none, frees := w.frees + 1 }
  let w := w.hold .freelist
  if c.hostt.enableEh ∧ c.runErrorHandler = false then
    let w ← w.release .freelist
    let w ← w.release .vmkAdapter
    return { w with host := none, frees := w.frees + 1 }
  let w ← w.modifyHost fun sh => { sh with ehandler := c.hostt.enableEh }
  return { w with errorHandler := c.hostt.enableEh }.hold .procHostdir

/-- `vmklnx_setup_adapter_tls`, with whether it succeeds. -/
def setupAdapterTls (w : HostWorld) : Except HostFault (HostWorld × Bool) := do
  if c.allocTls = false then return (w, true)
  let w := w.hold .tls
  if c.allocVectorInfo = false then
    -- `status` is still 0
    let w ← w.release .tls
    return (w, true)
  let w := w.hold .vectorInfo
  if c.createWorldlets ∧ c.allocCompObjectInfo ∧ c.registerCompObjects then
    let w ← w.modifyHost fun sh => { sh with adapter := some { tls := true, vectorInfo := true } }
    return (w, true)
  let w ← w.release .tls
  let w ← w.release .vectorInfo
  return (w, false)

/-- `release_vmklnx` of `scsi_add_host` -/
def releaseVmklnx (w : HostWorld) : Except HostFault HostWorld := do
  let w ← w.release .scsiAdapter
  w.modifyHost fun sh => { sh with adapter := none }

def releaseTransport (w : HostWorld) : Except HostFault HostWorld := do
  let sh ← w.getHost
  let w ← w.releaseIf sh.shostData .shostData
  releaseVmklnx w

def releaseWq (w : HostWorld) : Except HostFault HostWorld := do
  let sh ← w.getHost
  let w ← w.releaseIf sh.workQ .workQueue
  releaseTransport w

def releasePrealloccmds (w : HostWorld) : Except HostFault HostWorld := do
  let w ← w.release .registration
  releaseWq w

/-- `scsi_add_host`, from the registration of the adapter on. -/
def registerAdapter (w : HostWorld) : Except HostFault HostWorld := do
  if c.register = .ok ∨ c.register = .exists ∧ c.registerAgain = .ok then
    let w := w.hold .registration
    if c.transportSetup = false then releasePrealloccmds w
    else
      let (w, done) ← c.setupAdapterTls w
      if done then
        let w := (w.hold .adapterEntry).hold .procHost
        w.modifyHost fun sh => { sh with shostState := .running }
      else releasePrealloccmds w
  else releaseWq w

/-- `scsi_add_host`, behind `device_add`. -/
def addAdapter (w : HostWorld) : Except HostFault HostWorld := do
  let w ← getHostDevice w
  let sh ← w.getHost
  let w := w.addParentRef sh.parent 1
  if c.allocAdapter = false then return w
  let w ← (w.hold .scsiAdapter).modifyHost fun sh => { sh with adapter := some {} }
  if 0 < c.hostSize ∧ c.allocShostData = false then releaseVmklnx w
  else
    let w := w.holdIf (0 < c.hostSize) .shostData
    let w ← w.modifyHost fun sh => { sh with shostData := 0 < c.hostSize }
    if c.createWorkqueue = false then releaseTransport w
    else
      let w ← (w.hold .workQueue).modifyHost fun sh => { sh with workQ := true }
      c.registerAdapter w

def scsiAddHost (w : HostWorld) : Except HostFault HostWorld := do
  let sh ← w.getHost
  if c.hostt.name = false ∨ c.hostt.queuecommand = false ∨ c.hostt.sgTablesize = 0 ∨
      c.hostt.canQueue = 0 then return w
  match c.pDev with
  | none => return w
  | some pDev =>
    let w := w.setHost { sh with parent := some (sh.parent.getD pDev) }
    let (w, added) ← deviceAdd w c.busAdd
    if added then c.addAdapter w else return w

end HostRun

/-- `scsi_remove_host` of a host without targets. -/
def scsiRemoveHost (w : HostWorld) : Except HostFault HostWorld := do
  let sh ← w.getHost
  if sh.shostState = .del then return w
  else
    let w ← deviceDel (w.setHost { sh with shostState := .del })
    putHostDevice w

def scsiHostPut (w : HostWorld) : Except HostFault HostWorld := putHostDevice w

/-! ## Runs -/

inductive HostPhase where
  | alloc
  | addHost
  | removeHost
  | hostPut
  | done
deriving DecidableEq, Repr

structure HostStage where
  world : HostWorld
  phase : HostPhase := .alloc

inductive HostCall where
  /-- The next call of the driver. -/
  | call
  /-- The work that was queued. -/
  | work
  /-- The error handler looks at the host. -/
  | errorHandler
deriving DecidableEq, Repr

namespace HostRun

variable (c : HostRun)

def call (s : HostStage) : Option (Except HostFault HostStage) :=
  match s.phase with
  | .alloc => some do
      let w ← c.scsiHostAlloc s.world
      return { world := w, phase := if w.host.isSome then .addHost else .done }
  | .addHost => some do
      let w ← s.world.modifyHost fun sh => { sh with parent := c.parent }
      let w ← c.scsiAddHost w
      return { world := w, phase := .removeHost }
  | .removeHost => some do
      let w ← scsiRemoveHost s.world
      return { world := w, phase := .hostPut }
  | .hostPut => some do
      let w ← scsiHostPut s.world
      return { world := w, phase := .done }
  | .done => none

def next? (r : Except HostFault HostStage) (e : HostCall) : Option (Except HostFault HostStage) :=
  match r, e with
  | .error _, _ => none
  | .ok s, .call => c.call s
  | .ok s, .work =>
    if s.world.destroyWork then some do
      let w ← unregisterHost s.world
      return { s with world := w }
    else none
  | .ok s, .errorHandler =>
    if s.world.errorHandler then some do
      let _ ← s.world.getHost
      return s
    else none

def Step (r : Except HostFault HostStage) (e : HostCall) (t : Except HostFault HostStage) : Prop :=
  c.next? r e = some t

end HostRun

def HostStage.start (devRefs : Nat → Int) : HostStage where
  world := { devRefs := devRefs }

/-! ## What is promised -/

/-- The host is freed as often as it was allocated, and everything is as it was. -/
structure HostReleased (devRefs : Nat → Int) (w : HostWorld) : Prop where
  freed : w.host = none ∧ w.frees = w.allocs ∧ w.allocs ≤ 1
  devRefs : w.devRefs = devRefs
  held : ∀ r, w.held r = false

/-- Nothing has gone wrong, and when all is over the host is released. -/
def HostSafe (devRefs : Nat → Int) : Except HostFault HostStage → Prop
  | .error _ => False
  | .ok s => s.phase = .done → s.world.destroyWork = false → HostReleased devRefs s.world

namespace HostRun

variable (c : HostRun)

/-- `scsi_host_alloc` gets what it asks for. -/
def Allocates : Prop :=
  c.allocHost = true ∧ c.allocVmkAdapter = true ∧ c.setupFreelist = true ∧
    (c.hostt.enableEh = true → c.runErrorHandler = true)

/-- The checks of `scsi_add_host` are passed, and `device_add` does not fail. -/
def AddsDevice : Prop :=
  (c.hostt.name = true ∧ c.hostt.queuecommand = true ∧ c.hostt.sgTablesize ≠ 0 ∧
    c.hostt.canQueue ≠ 0) ∧ c.pDev.isSome = true ∧ c.busAdd = true

/-- No part of `vmklnx_setup_adapter_tls` fails behind the allocation of the vector infos. -/
def SetsUpTls : Prop :=
  c.allocTls = false ∨ c.allocVectorInfo = false ∨
    c.createWorldlets = true ∧ c.allocCompObjectInfo = true ∧ c.registerCompObjects = true

/-- Nothing fails behind `device_add`. -/
def AddsAdapter : Prop :=
  c.allocAdapter = true ∧ (0 < c.hostSize → c.allocShostData = true) ∧ c.createWorkqueue = true ∧
    (c.register = .ok ∨ c.register = .exists ∧ c.registerAgain = .ok) ∧ c.transportSetup = true ∧
      c.SetsUpTls

/-- If there is a host, `device_add` is passed, and if something fails later there is no error
    handler. -/
def Clean : Prop :=
  c.Allocates → c.AddsDevice ∧ (c.AddsAdapter ∨ c.hostt.enableEh = false)

end HostRun

/-! ## Resources -/

def Holds (held : HostResource → Bool) (rs : List HostResource) : Prop :=
  rs.Nodup ∧ ∀ r, held r = true ↔ r ∈ rs

namespace ScsiHost

def base : List HostResource := [.freelist, .procHostdir, .vmkAdapter]

def owned (sh : ScsiHost) : List HostResource :=
  match sh.adapter with
  | none => base
  | some adapter =>
    .registration :: .adapterEntry :: ((if sh.workQ then [.workQueue] else []) ++
      ((if sh.shostData then [.shostData] else []) ++ (.procHost ::
        ((if adapter.vectorInfo then [.vectorInfo] else []) ++
          ((if adapter.tls then [.tls] else []) ++ .scsiAdapter :: base)))))

end ScsiHost

open HostRun HostWorld ScsiHost

section Resources

variable {w : HostWorld} {sh : ScsiHost} {r : HostResource} {rs : List HostResource}
  {held : HostResource → Bool} {v : HostWorld} {r' : HostResource} {c : HostRun} {s : HostStage}
  (b : Bool)

@[simp] theorem getHost_setHost (w : HostWorld) (sh : ScsiHost) :
    (w.setHost sh).getHost = .ok sh := rfl

@[simp] theorem modifyHost_setHost (w : HostWorld) (sh : ScsiHost) (f : ScsiHost → ScsiHost) :
    (w.setHost sh).modifyHost f = .ok (w.setHost (f sh)) := rfl

@[simp] theorem setHost_setHost (w : HostWorld) (sh sh' : ScsiHost) :
    (w.setHost sh).setHost sh' = w.setHost sh' := rfl

theorem Holds.nil_eq (h : Holds held []) : held = fun _ => false := by
  funext r
  rw [← Bool.not_eq_true, h.2]
  exact List.not_mem_nil

theorem Holds.hold (h : Holds w.held rs) (hnew : r ∉ rs) : Holds (w.hold r).held (r :: rs) := by
  refine ⟨List.nodup_cons.mpr ⟨hnew, h.1⟩, ?_⟩
  intro r'
  show Function.update w.held r true r' = true ↔ _
  by_cases he : r' = r
  · rw [he, Function.update_self]
    simp
  · rw [Function.update_of_ne he, h.2]
    simp [he]

theorem release_first (h : Holds w.held (r :: rs)) :
    ∃ held, w.release r = .ok { w with held := held } ∧ Holds held rs := by
  have hheld : w.held r = true := (h.2 r).mpr (List.mem_cons_self)
  obtain ⟨hnot, hnodup⟩ := List.nodup_cons.mp h.1
  refine ⟨_, if_pos hheld, hnodup, ?_⟩
  intro r'
  by_cases he : r' = r
  · rw [he, Function.update_self]
    exact iff_of_false nofun hnot
  · rw [Function.update_of_ne he, h.2]
    simp [he]

theorem releaseIf_first {b : Bool} (h : Holds w.held ((if b then [r] else []) ++ rs)) :
    ∃ held, w.releaseIf b r = .ok { w with held := held } ∧ Holds held rs := by
  cases b with
  | false => exact ⟨w.held, rfl, h⟩
  | true => exact release_first h

def Takes (w v : HostWorld) : Prop := v = { w with held := v.held }

theorem Takes.refl (w : HostWorld) : Takes w w := rfl

theorem Takes.hold (h : Takes w v) (r : HostResource) : Takes w (v.hold r) := by
  have heq : v = { w with held := v.held } := h
  rw [Takes, HostWorld.hold, heq]

theorem Takes.holdIf (h : Takes w v) (b : Bool) (r : HostResource) : Takes w (v.holdIf b r) := by
  have heq : v = { w with held := v.held } := h
  rw [Takes, HostWorld.holdIf, heq]

theorem Takes.setHost (h : Takes w v) (sh : ScsiHost) :
    v.setHost sh = { w with host := some sh, held := v.held } := by
  have heq : v = { w with held := v.held } := h
  rw [heq]
  rfl

theorem hold_comm (w : HostWorld) (hne : r ≠ r') : (w.hold r).hold r' = (w.hold r').hold r := by
  have hheld := Function.update_comm hne true true w.held
  show { w with held := Function.update (Function.update w.held r true) r' true } = _
  rw [hheld]
  rfl

theorem held_hold_of_ne (h : w.held r' = false) (hne : r' ≠ r) : (w.hold r).held r' = false :=
  (Function.update_of_ne hne _ _).trans h

theorem held_holdIf_of_ne (h : w.held r' = false) (hne : r' ≠ r) :
    (w.holdIf b r).held r' = false := by
  cases b with
  | false => exact h
  | true => exact held_hold_of_ne h hne

theorem release_hold (h : w.held r = false) :
    ((w.hold r).setHost sh).release r = .ok (w.setHost sh) := by
  have hheld : ((w.hold r).setHost sh).held r = true := Function.update_self _ _ _
  rw [release, if_pos hheld]
  have hback : Function.update ((w.hold r).setHost sh).held r false = w.held := by
    show Function.update (Function.update w.held r true) r false = w.held
    rw [Function.update_idem, ← h, Function.update_eq_self]
  rw [hback]
  rfl

theorem releaseIf_holdIf (h : w.held r = false) :
    ((w.holdIf b r).setHost sh).releaseIf b r = .ok (w.setHost sh) := by
  cases b with
  | false => rfl
  | true => exact release_hold h

theorem Holds.holdIf (h : Holds w.held rs) (hnew : r ∉ rs) :
    Holds (w.holdIf b r).held ((if b then [r] else []) ++ rs) := by
  cases b with
  | false => exact h
  | true => exact h.hold hnew

theorem Holds.perm {rs' : List HostResource} (h : Holds held rs) (hperm : rs.Perm rs') :
    Holds held rs' :=
  ⟨hperm.nodup_iff.mp h.1, fun r => (h.2 r).trans hperm.mem_iff⟩

theorem Holds.not_held (h : Holds held rs) (hnot : r ∉ rs) : held r = false := by
  rw [← Bool.not_eq_true, h.2]
  exact hnot

/-! ## The release of a host -/

theorem freeHostResources_spec (hhost : w.host = some sh) (hheld : Holds w.held base) :
    freeHostResources w = .ok { w.addParentRef sh.parent (-1) with
      host := none
      frees := w.frees + 1
      held := fun _ => false } := by
  have hget : w.getHost = .ok sh := by rw [getHost, hhost]
  obtain ⟨held₁, hfreelist, hheld₁⟩ := release_first hheld
  let w₁ : HostWorld := { w with held := held₁ }
  obtain ⟨held₂, hprocHostdir, hheld₂⟩ := release_first (w := w₁) hheld₁
  let w₂ : HostWorld := { w with held := held₂ }.addParentRef sh.parent (-1)
  have hw₂ : w₂ = { w.addParentRef sh.parent (-1) with held := held₂ } := by
    cases hparent : sh.parent with
    | none => simp only [w₂, hparent, addParentRef]
    | some d => simp only [w₂, hparent, addParentRef, addDevRef]
  have hheld₂' : Holds w₂.held [.vmkAdapter] := by
    rw [hw₂]
    exact hheld₂
  obtain ⟨held₃, hvmkAdapter, hheld₃⟩ := release_first hheld₂'
  rw [hheld₃.nil_eq] at hvmkAdapter
  rw [freeHostResources, hget, ok_bind, hfreelist, ok_bind, hprocHostdir, ok_bind]
  show (w₂.release .vmkAdapter >>= _) = _
  rw [hvmkAdapter, hw₂, ok_bind]
  cases sh.parent <;> rfl

theorem unregisterHost_spec {adapter : ScsiAdapter} (hhost : w.host = some sh)
    (hheld : Holds w.held sh.owned) (hadapter : sh.adapter = some adapter) :
    unregisterHost w = .ok { w.addParentRef sh.parent (-1) with
      host := none
      frees := w.frees + 1
      held := fun _ => false
      errorHandler := w.errorHandler && !sh.ehandler
      destroyWork := false } := by
  rw [owned, hadapter] at hheld
  have hget : w.getHost = .ok sh := by rw [getHost, hhost]
  let w₀ : HostWorld := { w with destroyWork := false }
  obtain ⟨held₁, hregistration, hheld₁⟩ := release_first (w := w₀) hheld
  let w₁ : HostWorld := { w₀ with held := held₁ }
  obtain ⟨held₂, hadapterEntry, hheld₂⟩ := release_first (w := w₁) hheld₁
  let w₂ : HostWorld := { w₁ with
    held := held₂
    errorHandler := w.errorHandler && !sh.ehandler }
  obtain ⟨held₃, hworkQueue, hheld₃⟩ := releaseIf_first (w := w₂) hheld₂
  let w₃ : HostWorld := { w₂ with held := held₃ }
  obtain ⟨held₄, hshostData, hheld₄⟩ := releaseIf_first (w := w₃) hheld₃
  let w₄ : HostWorld := { w₃ with held := held₄ }
  obtain ⟨held₅, hprocHost, hheld₅⟩ := release_first (w := w₄) hheld₄
  let w₅ : HostWorld := { w₄ with held := held₅ }
  obtain ⟨held₆, hvectorInfo, hheld₆⟩ := releaseIf_first (w := w₅) hheld₅
  let w₆ : HostWorld := { w₅ with held := held₆ }
  obtain ⟨held₇, htls, hheld₇⟩ := releaseIf_first (w := w₆) hheld₆
  let w₇ : HostWorld := { w₆ with held := held₇ }
  obtain ⟨held₈, hscsiAdapter, hheld₈⟩ := release_first (w := w₇) hheld₇
  let w₈ : HostWorld := { w₇ with held := held₈ }
  have hfree := freeHostResources_spec (w := w₈) hhost hheld₈
  have hdestroy : destroyAdapter w₅ adapter = .ok w₈ := by
    rw [destroyAdapter, hvectorInfo, ok_bind]
    show (w₆.releaseIf _ _ >>= _) = _
    rw [htls, ok_bind]
    exact hscsiAdapter
  have hget₀ : w₀.getHost = .ok sh := hget
  rw [unregisterHost]
  show (w₀.getHost >>= _) = _
  rw [hget₀, ok_bind, hadapter]
  show (w₀.release _ >>= _) = _
  rw [hregistration, ok_bind]
  show (w₁.release _ >>= _) = _
  rw [hadapterEntry, ok_bind]
  show (w₂.releaseIf _ _ >>= _) = _
  rw [hworkQueue, ok_bind]
  show (w₃.releaseIf _ _ >>= _) = _
  rw [hshostData, ok_bind]
  show (w₄.release _ >>= _) = _
  rw [hprocHost, ok_bind]
  show (destroyAdapter w₅ adapter >>= _) = _
  rw [hdestroy, ok_bind, hfree]
  cases sh.parent <;> rfl

/-! ## The labels of `scsi_add_host` -/

theorem releaseVmklnx_spec (hadapter : w.held .scsiAdapter = false) :
    releaseVmklnx ((w.hold .scsiAdapter).setHost sh) =
      .ok (w.setHost { sh with adapter := none }) := by
  rw [releaseVmklnx, release_hold hadapter, ok_bind, modifyHost_setHost]

theorem releaseTransport_spec (hadapter : w.held .scsiAdapter = false)
    (hshostData : w.held .shostData = false) :
    releaseTransport (((w.hold .scsiAdapter).holdIf sh.shostData .shostData).setHost sh) =
      .ok (w.setHost { sh with adapter := none }) := by
  have hfree := held_hold_of_ne (r := .scsiAdapter) hshostData nofun
  rw [releaseTransport, getHost_setHost, ok_bind, releaseIf_holdIf _ hfree, ok_bind]
  exact releaseVmklnx_spec hadapter

theorem releaseWq_spec (hadapter : w.held .scsiAdapter = false)
    (hshostData : w.held .shostData = false) (hworkQueue : w.held .workQueue = false) :
    releaseWq ((((w.hold .scsiAdapter).holdIf sh.shostData .shostData).holdIf sh.workQ
      .workQueue).setHost sh) = .ok (w.setHost { sh with adapter := none }) := by
  have hfree := held_holdIf_of_ne (r := .shostData) sh.shostData
    (held_hold_of_ne (r := .scsiAdapter) hworkQueue nofun) nofun
  rw [releaseWq, getHost_setHost, ok_bind, releaseIf_holdIf _ hfree, ok_bind]
  exact releaseTransport_spec hadapter hshostData

/-! ## Behind `device_add` -/

theorem setupAdapterTls_done (hdone : c.SetsUpTls) (hadapter : sh.adapter = some {})
    (htls : w.held .tls = false) :
    ∃ t : Bool, c.setupAdapterTls (w.setHost sh) =
      .ok (((w.holdIf t .tls).holdIf t .vectorInfo).setHost
        { sh with adapter := some { tls := t, vectorInfo := t } }, true) := by
  have hsame : { sh with adapter := some {} } = sh := by rw [← hadapter]
  rw [setupAdapterTls]
  by_cases hallocTls : c.allocTls = false
  · refine ⟨false, ?_⟩
    rw [if_pos hallocTls]
    show _ = Except.ok (w.setHost { sh with adapter := some {} }, true)
    rw [hsame]
    rfl
  · rw [if_neg hallocTls]
    by_cases hallocVectorInfo : c.allocVectorInfo = false
    · refine ⟨false, ?_⟩
      rw [if_pos hallocVectorInfo]
      show (((w.hold .tls).setHost sh).release .tls >>= _) =
        Except.ok (w.setHost { sh with adapter := some {} }, true)
      rw [release_hold htls, hsame]
      rfl
    · refine ⟨true, ?_⟩
      have hrest := (hdone.resolve_left hallocTls).resolve_left hallocVectorInfo
      rw [if_neg hallocVectorInfo, if_pos hrest]
      rfl

theorem setupAdapterTls_failed (hfailed : ¬c.SetsUpTls) (htls : w.held .tls = false)
    (hvectorInfo : w.held .vectorInfo = false) :
    c.setupAdapterTls (w.setHost sh) = .ok (w.setHost sh, false) := by
  simp only [HostRun.SetsUpTls, not_or] at hfailed
  obtain ⟨hallocTls, hallocVectorInfo, hrest⟩ := hfailed
  rw [setupAdapterTls, if_neg hallocTls, if_neg hallocVectorInfo, if_neg hrest]
  -- the array goes first, and had come first
  have hswap : (w.hold .tls).hold .vectorInfo = (w.hold .vectorInfo).hold .tls := hold_comm w nofun
  have hfree := held_hold_of_ne (r := .vectorInfo) htls nofun
  show ((((w.hold .tls).hold .vectorInfo).setHost sh).release .tls >>= _) = _
  rw [hswap, release_hold hfree, ok_bind, release_hold hvectorInfo]
  rfl

/-- What has become of a host behind `device_add`: all that is held belongs to it. -/
structure AdapterAdded (c : HostRun) (w : HostWorld) (sh sh' : ScsiHost)
    (held : HostResource → Bool) : Prop where
  held : Holds held sh'.owned
  adapter : sh'.adapter.isSome = true ↔ c.AddsAdapter
  refs : sh'.refs = sh.refs
  parent : sh'.parent = sh.parent
  knodeParent : sh'.knodeParent = sh.knodeParent
  ehandler : sh'.ehandler = sh.ehandler
  state : sh'.shostState = sh.shostState ∨ sh'.shostState = .running

theorem AdapterAdded.failed (hheld : Holds w.held base) (hfailed : ¬c.AddsAdapter)
    (shostData workQ : Bool) :
    AdapterAdded c w sh { sh with adapter := none, shostData := shostData, workQ := workQ }
      w.held where
  held := hheld
  adapter := iff_of_false nofun hfailed
  refs := rfl
  parent := rfl
  knodeParent := rfl
  ehandler := rfl
  state := .inl rfl

theorem Holds.rest (t : Bool) (h : Holds w.held (.registration :: rs))
    (hnew : ∀ r ∈ [.tls, .vectorInfo, .adapterEntry, .procHost], r ∉ rs) :
    Holds ((((w.holdIf t .tls).holdIf t .vectorInfo).hold .adapterEntry).hold .procHost).held
      (.procHost :: .adapterEntry :: ((if t then [.vectorInfo] else []) ++
        ((if t then [.tls] else []) ++ .registration :: rs))) := by
  simp only [List.forall_mem_cons] at hnew
  obtain ⟨htls, hvectorInfo, hadapterEntry, hprocHost, -⟩ := hnew
  have h₁ := h.holdIf (r := .tls) t (by simp [htls])
  have h₂ := h₁.holdIf (r := .vectorInfo) t (by cases t <;> simp [hvectorInfo])
  have h₃ := h₂.hold (r := .adapterEntry) (by cases t <;> simp [hadapterEntry])
  exact h₃.hold (by cases t <;> simp [hprocHost])

theorem owned_perm (sh : ScsiHost) (t : Bool) (hadapter : sh.adapter = some ⟨t, t⟩) :
    (.procHost :: .adapterEntry :: ((if t then [.vectorInfo] else []) ++
      ((if t then [.tls] else []) ++ .registration ::
        ((if sh.workQ then [.workQueue] else []) ++
          ((if sh.shostData then [.shostData] else []) ++ .scsiAdapter :: base))))).Perm
      sh.owned := by
  rw [owned, hadapter]
  cases sh.workQ <;> cases sh.shostData <;> cases t <;> decide

theorem registerAdapter_spec (hheld : Holds w.held base) (hadapter : sh.adapter = some {})
    (hbefore : c.allocAdapter = true ∧ (0 < c.hostSize → c.allocShostData = true) ∧
      c.createWorkqueue = true) :
    ∃ sh' held, c.registerAdapter ((((w.hold .scsiAdapter).holdIf sh.shostData .shostData).holdIf
        sh.workQ .workQueue).setHost sh) = .ok { w with host := some sh', held := held } ∧
      AdapterAdded c w sh sh' held := by
  have hscsiAdapter : w.held .scsiAdapter = false := hheld.not_held (by decide)
  have hshostData : w.held .shostData = false := hheld.not_held (by decide)
  have hworkQueue : w.held .workQueue = false := hheld.not_held (by decide)
  -- the path that gives back what was taken before the registration
  have hwq : releaseWq ((((w.hold .scsiAdapter).holdIf sh.shostData .shostData).holdIf
      sh.workQ .workQueue).setHost sh) = .ok (w.setHost { sh with adapter := none }) :=
    releaseWq_spec hscsiAdapter hshostData hworkQueue
  -- what is held when the adapter is registered
  let rs : List HostResource := (if sh.workQ then [.workQueue] else []) ++
    ((if sh.shostData then [.shostData] else []) ++ .scsiAdapter :: base)
  have hrs : .registration ∉ rs ∧ ∀ r ∈ [.tls, .vectorInfo, .adapterEntry, .procHost], r ∉ rs := by
    simp only [rs]
    cases sh.workQ <;> cases sh.shostData <;> decide
  have hholds₁ := hheld.hold (r := .scsiAdapter) (by decide)
  have hholds₂ := hholds₁.holdIf (r := .shostData) sh.shostData (by decide)
  have hholds : Holds _ rs := hholds₂.holdIf (r := .workQueue) sh.workQ (by
    cases sh.shostData <;> decide)
  have htakes := (((Takes.refl w).hold .scsiAdapter).holdIf sh.shostData .shostData).holdIf
    sh.workQ .workQueue
  generalize ((w.hold .scsiAdapter).holdIf sh.shostData .shostData).holdIf sh.workQ .workQueue = v
    at hwq hholds htakes ⊢
  have hregistration : v.held .registration = false := hholds.not_held hrs.1
  have hholds₃ : Holds (v.hold .registration).held (.registration :: rs) := hholds.hold hrs.1
  have htls : (v.hold .registration).held .tls = false :=
    held_hold_of_ne (hholds.not_held (hrs.2 _ (by decide))) nofun
  have hvectorInfo : (v.hold .registration).held .vectorInfo = false :=
    held_hold_of_ne (hholds.not_held (hrs.2 _ (by decide))) nofun
  have hback : releasePrealloccmds ((v.hold .registration).setHost sh) =
      .ok (w.setHost { sh with adapter := none }) := by
    rw [releasePrealloccmds, release_hold hregistration, ok_bind]
    exact hwq
  rw [registerAdapter]
  by_cases hregister : c.register = .ok ∨ c.register = .exists ∧ c.registerAgain = .ok
  · rw [if_pos hregister]
    have hcomm : (v.setHost sh).hold .registration = (v.hold .registration).setHost sh := rfl
    rw [hcomm]
    by_cases htransport : c.transportSetup = false
    · have hfailed : ¬c.AddsAdapter := by
        rintro ⟨-, -, -, -, hdone, -⟩
        rw [htransport] at hdone
        cases hdone
      rw [if_pos htransport]
      exact ⟨_, _, hback, .failed hheld hfailed _ _⟩
    · rw [if_neg htransport]
      by_cases htlsDone : c.SetsUpTls
      · obtain ⟨t, hsetup⟩ := setupAdapterTls_done htlsDone hadapter htls
        let sh' : ScsiHost := { sh with adapter := some ⟨t, t⟩, shostState := .running }
        have hrest := hholds₃.rest t hrs.2
        have hsame := (((((htakes.hold .registration).holdIf t .tls).holdIf t .vectorInfo).hold
          .adapterEntry).hold .procHost).setHost sh'
        rw [hsetup, ok_bind]
        refine ⟨sh', _, congrArg Except.ok hsame, ?_, ?_, rfl, rfl, rfl, rfl, .inr rfl⟩
        · exact hrest.perm (owned_perm sh' t rfl)
        · refine iff_of_true rfl ⟨hbefore.1, hbefore.2.1, hbefore.2.2, hregister, ?_, htlsDone⟩
          rw [← Bool.not_eq_false]
          exact htransport
      · have hfailed : ¬c.AddsAdapter := fun h => htlsDone h.2.2.2.2.2
        rw [setupAdapterTls_failed htlsDone htls hvectorInfo, ok_bind]
        exact ⟨_, _, hback, .failed hheld hfailed _ _⟩
  · have hfailed : ¬c.AddsAdapter := fun h => hregister h.2.2.2.1
    rw [if_neg hregister]
    exact ⟨_, _, hwq, .failed hheld hfailed _ _⟩

@[simp] theorem addParentRef_setHost (w : HostWorld) (sh : ScsiHost) (d : Option Nat) (n : Int) :
    (w.setHost sh).addParentRef d n = (w.addParentRef d n).setHost sh := by
  cases d <;> rfl

@[simp] theorem addParentRef_held (w : HostWorld) (d : Option Nat) (n : Int) :
    (w.addParentRef d n).held = w.held := by
  cases d <;> rfl

theorem addAdapter_spec (hheld : Holds w.held base) (hadapter : sh.adapter = none) :
    ∃ sh' held, c.addAdapter (w.setHost sh) =
        .ok { w.addParentRef sh.parent 1 with host := some sh', held := held } ∧
      AdapterAdded c (w.addParentRef sh.parent 1) { sh with refs := sh.refs + 1 } sh' held := by
  let w₁ : HostWorld := w.addParentRef sh.parent 1
  let sh₁ : ScsiHost := { sh with refs := sh.refs + 1 }
  have hheld₁ : Holds w₁.held base := by
    rw [addParentRef_held]
    exact hheld
  have hscsiAdapter : w₁.held .scsiAdapter = false := hheld₁.not_held (by decide)
  have hshostData : w₁.held .shostData = false := hheld₁.not_held (by decide)
  have hget : getHostDevice (w.setHost sh) = .ok (w.setHost sh₁) := rfl
  rw [addAdapter, hget, ok_bind, getHost_setHost, ok_bind]
  dsimp only
  rw [addParentRef_setHost]
  -- each allocation that fails gives back those made before it, the last first
  by_cases hallocAdapter : c.allocAdapter = false
  · have hfailed : ¬c.AddsAdapter := by
      rintro ⟨hdone, -⟩
      rw [hallocAdapter] at hdone
      cases hdone
    have hbase : Holds w₁.held sh₁.owned := by
      rw [owned, hadapter]
      exact hheld₁
    have hnone : ¬sh₁.adapter.isSome = true := by
      rw [hadapter]
      exact nofun
    rw [if_pos hallocAdapter]
    exact ⟨sh₁, w₁.held, rfl, hbase, iff_of_false hnone hfailed, rfl, rfl, rfl, rfl, .inl rfl⟩
  · let sh₂ : ScsiHost := { sh₁ with adapter := some {} }
    have hmodify : (((w₁.setHost sh₁).hold .scsiAdapter).modifyHost fun sh =>
        { sh with adapter := some {} }) = .ok ((w₁.hold .scsiAdapter).setHost sh₂) := rfl
    rw [if_neg hallocAdapter, hmodify, ok_bind]
    by_cases hshostDataFails : 0 < c.hostSize ∧ c.allocShostData = false
    · have hfailed : ¬c.AddsAdapter := by
        rintro ⟨-, hdone, -⟩
        have hdone := hdone hshostDataFails.1
        rw [hshostDataFails.2] at hdone
        cases hdone
      rw [if_pos hshostDataFails]
      exact ⟨_, _, releaseVmklnx_spec hscsiAdapter, .failed hheld₁ hfailed _ _⟩
    · have hallocShostData : 0 < c.hostSize → c.allocShostData = true := by
        intro hpos
        rw [← Bool.not_eq_false]
        exact fun hfails => hshostDataFails ⟨hpos, hfails⟩
      let sh₃ : ScsiHost := { sh₂ with shostData := 0 < c.hostSize }
      have hmodify₃ : ((((w₁.hold .scsiAdapter).setHost sh₂).holdIf (0 < c.hostSize)
          .shostData).modifyHost fun sh => { sh with shostData := 0 < c.hostSize }) =
          .ok (((w₁.hold .scsiAdapter).holdIf sh₃.shostData .shostData).setHost sh₃) := rfl
      rw [if_neg hshostDataFails, hmodify₃, ok_bind]
      by_cases hcreateWorkqueue : c.createWorkqueue = false
      · have hfailed : ¬c.AddsAdapter := by
          rintro ⟨-, -, hdone, -⟩
          rw [hcreateWorkqueue] at hdone
          cases hdone
        rw [if_pos hcreateWorkqueue]
        exact ⟨_, _, releaseTransport_spec hscsiAdapter hshostData, .failed hheld₁ hfailed _ _⟩
      · have hbefore : c.allocAdapter = true ∧ (0 < c.hostSize → c.allocShostData = true) ∧
            c.createWorkqueue = true := by
          rw [← Bool.not_eq_false, ← Bool.not_eq_false c.createWorkqueue]
          exact ⟨hallocAdapter, hallocShostData, hcreateWorkqueue⟩
        let sh₄ : ScsiHost := { sh₃ with workQ := true }
        have hadapter₄ : sh₄.adapter = some {} := rfl
        obtain ⟨sh', held, hregister, hadded⟩ := registerAdapter_spec hheld₁ hadapter₄ hbefore
        rw [if_neg hcreateWorkqueue]
        exact ⟨sh', held, hregister, hadded.held, hadded.adapter, hadded.refs, hadded.parent,
          hadded.knodeParent, hadded.ehandler, hadded.state⟩

/-! ## The device of a host -/

theorem eq_setHost (h : w.host = some sh) : w = w.setHost sh := by
  rw [setHost, ← h]

theorem addParentRef_add (w : HostWorld) (d : Option Nat) (m n : Int) :
    (w.addParentRef d m).addParentRef d n = w.addParentRef d (m + n) := by
  cases d with
  | none => rfl
  | some d =>
    have hsum : Function.update (Function.update w.devRefs d (w.devRefs d + m)) d
        (Function.update w.devRefs d (w.devRefs d + m) d + n) =
        Function.update w.devRefs d (w.devRefs d + (m + n)) := by
      rw [Function.update_idem, Function.update_self, Int.add_assoc]
    exact congrArg (fun devRefs => { w with devRefs := devRefs }) hsum

theorem addParentRef_zero (w : HostWorld) (d : Option Nat) : w.addParentRef d 0 = w := by
  cases d with
  | none => rfl
  | some d =>
    have hsame : Function.update w.devRefs d (w.devRefs d + 0) = w.devRefs := by
      rw [Int.add_zero, Function.update_eq_self]
    exact congrArg (fun devRefs => { w with devRefs := devRefs }) hsame

theorem putHostDevice_keeps (w : HostWorld) {n : Int} (hrefs : sh.refs = n) (hn : 1 < n) :
    putHostDevice (w.setHost sh) = .ok (w.setHost { sh with refs := sh.refs - 1 }) := by
  rw [putHostDevice, getHost_setHost, ok_bind]
  exact if_neg (by omega)

theorem deviceAdd_done (w : HostWorld) (hrefs : sh.refs = 1) (hparent : sh.parent.isSome = true) :
    deviceAdd (w.setHost sh) true = .ok ((w.addParentRef sh.parent 1).setHost
      { sh with refs := 2, knodeParent := true }, true) := by
  let sh₁ : ScsiHost := { sh with refs := 2 }
  let sh₂ : ScsiHost := { sh with refs := 3, knodeParent := true }
  let w₁ : HostWorld := w.addParentRef sh.parent 1
  have hget : getHostDevice (w.setHost sh) = .ok (w.setHost sh₁) := by
    rw [getHostDevice, modifyHost_setHost, hrefs]
    rfl
  have hgetAgain : getHostDevice (w₁.setHost { sh₁ with knodeParent := sh.parent.isSome }) =
      .ok (w₁.setHost sh₂) := by
    rw [hparent]
    rfl
  have hrefs₂ : sh₂.refs = 3 := rfl
  have hput := putHostDevice_keeps w₁ hrefs₂ (by omega)
  rw [deviceAdd, hget, ok_bind, getHost_setHost, ok_bind]
  dsimp only
  rw [addParentRef_setHost, if_pos rfl, setHost_setHost, if_pos hparent, hgetAgain, ok_bind, hput]
  rfl

theorem deviceAdd_failed (w : HostWorld) (hrefs : sh.refs = 1) :
    deviceAdd (w.setHost sh) false = .ok (w.setHost sh, false) := by
  let sh₁ : ScsiHost := { sh with refs := 2 }
  have hget : getHostDevice (w.setHost sh) = .ok (w.setHost sh₁) := by
    rw [getHostDevice, modifyHost_setHost, hrefs]
    rfl
  have hrefs₁ : sh₁.refs = 2 := rfl
  have hput := putHostDevice_keeps w hrefs₁ (by omega)
  have hsame : { sh₁ with refs := sh₁.refs - 1 } = sh := by
    show { sh with refs := 1 } = sh
    rw [← hrefs]
  rw [deviceAdd, hget, ok_bind, getHost_setHost, ok_bind]
  dsimp only
  rw [addParentRef_setHost, addParentRef_setHost, addParentRef_add, if_neg Bool.false_ne_true]
  show (putHostDevice ((w.addParentRef sh.parent 0).setHost sh₁) >>= _) = _
  rw [addParentRef_zero, hput, hsame]
  rfl

theorem deviceDel_spec (w : HostWorld) (hrefs : sh.refs = 3) (hparent : sh.parent.isSome = true)
    (hknode : sh.knodeParent = true) :
    deviceDel (w.setHost sh) = .ok ((w.addParentRef sh.parent (-1)).setHost
      { sh with refs := 2, knodeParent := false }) := by
  let sh₁ : ScsiHost := { sh with refs := 3, knodeParent := false }
  have hsh₁ : { sh with knodeParent := false } = sh₁ := by
    show { sh with refs := sh.refs, knodeParent := false } = sh₁
    rw [hrefs]
  have hrefs₁ : sh₁.refs = 3 := rfl
  have hput := putHostDevice_keeps w hrefs₁ (by omega)
  have hnone : ¬sh.parent.isNone = true := by
    rw [Option.isNone_iff_eq_none, ← Option.not_isSome_iff_eq_none, hparent]
    exact nofun
  have hlisted : ¬sh.knodeParent = false := by
    rw [hknode]
    exact nofun
  rw [deviceDel, getHost_setHost, ok_bind, if_neg hnone, if_neg hlisted, setHost_setHost, hsh₁,
    hput, ok_bind, getHost_setHost, ok_bind, addParentRef_setHost]
  rfl

/-! ## The calls of the driver -/

/-- The host is allocated, and owns what is held; it has `n` references of its parent. -/
structure HostPresent (c : HostRun) (devRefs : Nat → Int) (w : HostWorld) (sh : ScsiHost)
    (n : Int) : Prop where
  host : w.host = some sh
  count : w.allocs = 1 ∧ w.frees = 0
  held : Holds w.held sh.owned
  devRefs : (w.addParentRef sh.parent (-n)).devRefs = devRefs
  errorHandler : w.errorHandler = c.hostt.enableEh ∧ sh.ehandler = c.hostt.enableEh
  allocates : c.Allocates

/-- The host as `scsi_host_alloc` leaves it, with the parent that the driver has set. -/
def HostRun.allocated (c : HostRun) (parent : Option Nat) : ScsiHost where
  parent := parent
  ehandler := c.hostt.enableEh

variable {c : HostRun} {devRefs : Nat → Int}

theorem HostPresent.released (h : HostPresent c devRefs w sh 1) (errorHandler destroyWork : Bool) :
    HostReleased devRefs { w.addParentRef sh.parent (-1) with
      host := none
      frees := w.frees + 1
      held := fun _ => false
      errorHandler := errorHandler
      destroyWork := destroyWork } := by
  obtain ⟨hallocs, hfrees⟩ := h.count
  have hallocs' : (w.addParentRef sh.parent (-1)).allocs = 1 := by
    rw [← hallocs]
    cases sh.parent <;> rfl
  refine ⟨⟨rfl, ?_, ?_⟩, h.devRefs, fun _ => rfl⟩
  · show w.frees + 1 = (w.addParentRef sh.parent (-1)).allocs
    omega
  · exact Nat.le_of_eq hallocs'

theorem scsiHostAlloc_spec (c : HostRun) (devRefs : Nat → Int) :
    ∃ w, c.scsiHostAlloc { devRefs := devRefs } = .ok w ∧ w.destroyWork = false ∧
      (HostPresent c devRefs w (c.allocated none) 0 ∨
        (¬c.Allocates ∧ HostReleased devRefs w ∧ w.errorHandler = false)) := by
  let w₀ : HostWorld := { devRefs := devRefs, allocs := 1 }
  have hnone : Holds w₀.held [] := ⟨List.nodup_nil, fun r => iff_of_false nofun List.not_mem_nil⟩
  have hfreed : HostReleased devRefs { w₀ with host := none, frees := w₀.frees + 1 } :=
    ⟨⟨rfl, rfl, Nat.le_refl 1⟩, rfl, fun _ => rfl⟩
  have hvmkAdapter : ((w₀.hold .vmkAdapter).setHost {}).release .vmkAdapter = .ok (w₀.setHost {}) :=
    release_hold rfl
  rw [scsiHostAlloc]
  -- one case for each step of the allocation: what fails gives back all that went before
  by_cases hallocHost : c.allocHost = false
  · rw [if_pos hallocHost]
    refine ⟨_, rfl, rfl, .inr ⟨?_, ⟨⟨rfl, rfl, Nat.zero_le 1⟩, rfl, fun _ => rfl⟩, rfl⟩⟩
    rintro ⟨hdone, -⟩
    rw [hallocHost] at hdone
    cases hdone
  rw [if_neg hallocHost]
  by_cases hallocVmkAdapter : c.allocVmkAdapter = false
  · rw [if_pos hallocVmkAdapter]
    refine ⟨_, rfl, rfl, .inr ⟨?_, hfreed, rfl⟩⟩
    rintro ⟨-, hdone, -⟩
    rw [hallocVmkAdapter] at hdone
    cases hdone
  rw [if_neg hallocVmkAdapter]
  by_cases hsetupFreelist : c.setupFreelist = false
  · rw [if_pos hsetupFreelist]
    show ∃ w, (((w₀.hold .vmkAdapter).setHost {}).release .vmkAdapter >>= _) = _ ∧ _
    rw [hvmkAdapter]
    refine ⟨_, rfl, rfl, .inr ⟨?_, hfreed, rfl⟩⟩
    rintro ⟨-, -, hdone, -⟩
    rw [hsetupFreelist] at hdone
    cases hdone
  rw [if_neg hsetupFreelist]
  have hfreelist : (((w₀.hold .vmkAdapter).hold .freelist).setHost {}).release .freelist =
      .ok ((w₀.hold .vmkAdapter).setHost {}) := release_hold rfl
  by_cases hrunErrorHandler : c.hostt.enableEh = true ∧ c.runErrorHandler = false
  · rw [if_pos hrunErrorHandler]
    show ∃ w, ((((w₀.hold .vmkAdapter).hold .freelist).setHost {}).release .freelist >>= _) = _ ∧ _
    rw [hfreelist, ok_bind, hvmkAdapter]
    refine ⟨_, rfl, rfl, .inr ⟨?_, hfreed, rfl⟩⟩
    rintro ⟨-, -, -, hdone⟩
    have hdone := hdone hrunErrorHandler.1
    rw [hrunErrorHandler.2] at hdone
    cases hdone
  · have hdone : c.Allocates := by
      refine ⟨?_, ?_, ?_, ?_⟩
      · rw [← Bool.not_eq_false]
        exact hallocHost
      · rw [← Bool.not_eq_false]
        exact hallocVmkAdapter
      · rw [← Bool.not_eq_false]
        exact hsetupFreelist
      · intro henable
        rw [← Bool.not_eq_false]
        exact fun hfails => hrunErrorHandler ⟨henable, hfails⟩
    have hheld₁ := hnone.hold (r := .vmkAdapter) (by decide)
    have hheld₂ := hheld₁.hold (r := .freelist) (by decide)
    have hheld₃ := hheld₂.hold (r := .procHostdir) (by decide)
    rw [if_neg hrunErrorHandler]
    refine ⟨_, rfl, rfl, .inl ⟨rfl, ⟨rfl, rfl⟩, ?_, rfl, ⟨rfl, rfl⟩, hdone⟩⟩
    have hperm : List.Perm [.procHostdir, .freelist, .vmkAdapter] base := by decide
    exact hheld₃.perm hperm

theorem scsiAddHost_refused (w : HostWorld) (parent : Option Nat) (hrefused : ¬c.AddsDevice) :
    ∃ parent', c.scsiAddHost (w.setHost (c.allocated parent)) =
        .ok (w.setHost (c.allocated parent')) ∧
      (parent' = parent ∨ parent'.isSome = true) := by
  rw [HostRun.scsiAddHost, getHost_setHost, ok_bind]
  by_cases hchecks : c.hostt.name = false ∨ c.hostt.queuecommand = false ∨
      c.hostt.sgTablesize = 0 ∨ c.hostt.canQueue = 0
  · rw [if_pos hchecks]
    exact ⟨parent, rfl, .inl rfl⟩
  rw [if_neg hchecks]
  cases hpDev : c.pDev with
  | none => exact ⟨parent, rfl, .inl rfl⟩
  | some pDev =>
    have hbusAdd : c.busAdd = false := by
      by_contra hbusAdd
      apply hrefused
      simp only [not_or, Bool.not_eq_false] at hchecks hbusAdd
      exact ⟨hchecks, by rw [hpDev]; rfl, hbusAdd⟩
    refine ⟨some (parent.getD pDev), ?_, .inr rfl⟩
    show (deviceAdd (w.setHost (c.allocated (some (parent.getD pDev)))) c.busAdd >>= _) = _
    rw [hbusAdd, deviceAdd_failed w rfl]
    rfl

theorem scsiAddHost_added {parent : Option Nat} (hadds : c.AddsDevice)
    (hpresent : HostPresent c devRefs w (c.allocated parent) 0) :
    ∃ w' sh', c.scsiAddHost w = .ok w' ∧ w'.destroyWork = w.destroyWork ∧
      HostPresent c devRefs w' sh' 2 ∧ sh'.refs = 3 ∧ sh'.parent.isSome = true ∧
      sh'.knodeParent = true ∧ (sh'.adapter.isSome = true ↔ c.AddsAdapter) ∧
      sh'.shostState ≠ .del := by
  obtain ⟨⟨hname, hqueuecommand, hsgTablesize, hcanQueue⟩, hpDev, hbusAdd⟩ := hadds
  obtain ⟨pDev, hpDev⟩ := Option.isSome_iff_exists.mp hpDev
  have hchecks : ¬(c.hostt.name = false ∨ c.hostt.queuecommand = false ∨
      c.hostt.sgTablesize = 0 ∨ c.hostt.canQueue = 0) := by
    simp [hname, hqueuecommand, hsgTablesize, hcanQueue]
  let parent' : Option Nat := some (parent.getD pDev)
  let sh₁ : ScsiHost := { c.allocated parent' with refs := 2, knodeParent := true }
  have hdeviceAdd : deviceAdd (w.setHost (c.allocated parent')) c.busAdd =
      .ok ((w.addParentRef parent' 1).setHost sh₁, true) := by
    rw [hbusAdd]
    exact deviceAdd_done w rfl rfl
  have hheld : Holds (w.addParentRef parent' 1).held base := by
    rw [addParentRef_held]
    exact hpresent.held
  have hnone : sh₁.adapter = none := rfl
  obtain ⟨sh', held, haddAdapter, hadded⟩ := addAdapter_spec (c := c) hheld hnone
  have hdevRefs : w.devRefs = devRefs := by
    have hbefore := hpresent.devRefs
    rw [Int.neg_zero, addParentRef_zero] at hbefore
    exact hbefore
  let w₂ : HostWorld := (w.addParentRef parent' 1).addParentRef parent' 1
  have hback : (w₂.addParentRef parent' (-2)).devRefs = devRefs := by
    rw [addParentRef_add, addParentRef_add, ← hdevRefs]
    exact congrArg HostWorld.devRefs (addParentRef_zero w parent')
  have hcall : c.scsiAddHost w = .ok { w₂ with host := some sh', held := held } := by
    rw [eq_setHost hpresent.host, HostRun.scsiAddHost, getHost_setHost, ok_bind, if_neg hchecks,
      hpDev]
    show (deviceAdd (w.setHost (c.allocated parent')) c.busAdd >>= _) = _
    rw [hdeviceAdd]
    exact haddAdapter
  have herror : w.errorHandler = c.hostt.enableEh ∧ sh'.ehandler = c.hostt.enableEh :=
    ⟨hpresent.errorHandler.1, hadded.ehandler⟩
  refine ⟨_, sh', hcall, rfl,
    ⟨rfl, hpresent.count, hadded.held, ?_, herror, hpresent.allocates⟩, hadded.refs, ?_,
    hadded.knodeParent, hadded.adapter, ?_⟩
  · rw [hadded.parent]
    exact hback
  · rw [hadded.parent]
    rfl
  · rcases hadded.state with hstate | hstate
    · rw [hstate]
      exact nofun
    · rw [hstate]
      exact nofun

theorem scsiRemoveHost_spec (hpresent : HostPresent c devRefs w sh 2) (hrefs : sh.refs = 3)
    (hparent : sh.parent.isSome = true) (hknode : sh.knodeParent = true)
    (hstate : sh.shostState ≠ .del) :
    ∃ w' sh', scsiRemoveHost w = .ok w' ∧ w'.destroyWork = w.destroyWork ∧
      HostPresent c devRefs w' sh' 1 ∧ sh'.refs = 1 ∧ sh'.adapter = sh.adapter := by
  let sh₁ : ScsiHost := { sh with refs := 2, shostState := .del, knodeParent := false }
  let sh₂ : ScsiHost := { sh₁ with refs := 1 }
  let w₁ : HostWorld := w.addParentRef sh.parent (-1)
  have hdeviceDel : deviceDel (w.setHost { sh with shostState := .del }) =
      .ok (w₁.setHost sh₁) := deviceDel_spec w hrefs hparent hknode
  have hput : putHostDevice (w₁.setHost sh₁) = .ok (w₁.setHost sh₂) :=
    putHostDevice_keeps w₁ (n := 2) rfl (by omega)
  have hcall : scsiRemoveHost w = .ok (w₁.setHost sh₂) := by
    rw [eq_setHost hpresent.host, scsiRemoveHost, getHost_setHost, ok_bind, if_neg hstate,
      setHost_setHost, hdeviceDel, ok_bind, hput]
  obtain ⟨d, hd⟩ := Option.isSome_iff_exists.mp hparent
  refine ⟨_, sh₂, hcall, ?_, ⟨rfl, ?_, ?_, ?_, ?_, hpresent.allocates⟩, rfl, rfl⟩
  · simp only [w₁, hd]
    rfl
  · simp only [w₁, hd]
    exact hpresent.count
  · show Holds w₁.held sh.owned
    rw [addParentRef_held]
    exact hpresent.held
  · rw [addParentRef_setHost]
    show (w₁.addParentRef sh.parent (-1)).devRefs = devRefs
    rw [addParentRef_add]
    exact hpresent.devRefs
  · simp only [w₁, hd]
    exact hpresent.errorHandler

theorem scsiHostPut_spec (hpresent : HostPresent c devRefs w sh 1) (hrefs : sh.refs = 1) :
    (sh.adapter.isSome = true ∧ ∃ sh', sh'.adapter = sh.adapter ∧
      scsiHostPut w = .ok { w with host := some sh', destroyWork := true } ∧
        HostPresent c devRefs { w with host := some sh', destroyWork := true } sh' 1) ∨
    (sh.adapter = none ∧ ∃ w', scsiHostPut w = .ok w' ∧ HostReleased devRefs w' ∧
      w'.errorHandler = c.hostt.enableEh ∧ w'.destroyWork = w.destroyWork) := by
  let sh₁ : ScsiHost := { sh with refs := 0 }
  have hrelease : scsiHostPut w = scsiHostDevRelease (w.setHost sh₁) := by
    rw [scsiHostPut, eq_setHost hpresent.host, putHostDevice, getHost_setHost, ok_bind, hrefs]
    rfl
  cases hadapter : sh.adapter with
  | some adapter =>
    have hput : scsiHostPut w = .ok { w with host := some sh₁, destroyWork := true } := by
      rw [hrelease, scsiHostDevRelease, getHost_setHost, ok_bind]
      show (if sh.adapter.isSome = true then _ else _) = _
      rw [hadapter]
      rfl
    have hdevRefs := hpresent.devRefs
    refine .inl ⟨rfl, sh₁, hadapter, hput, rfl, hpresent.count, hpresent.held, ?_,
      hpresent.errorHandler, hpresent.allocates⟩
    show (addParentRef _ sh.parent (-1)).devRefs = devRefs
    cases hparent : sh.parent with
    | none =>
      rw [hparent] at hdevRefs
      exact hdevRefs
    | some d =>
      rw [hparent] at hdevRefs
      exact hdevRefs
  | none =>
    have hheld : Holds (w.setHost sh₁).held base := by
      have howned := hpresent.held
      rw [owned, hadapter] at howned
      exact howned
    have hput : scsiHostPut w = freeHostResources (w.setHost sh₁) := by
      rw [hrelease, scsiHostDevRelease, getHost_setHost, ok_bind]
      show (if sh.adapter.isSome = true then _ else _) = _
      rw [hadapter]
      rfl
    rw [freeHostResources_spec (w := w.setHost sh₁) rfl hheld, addParentRef_setHost] at hput
    have hframe : (w.addParentRef sh.parent (-1)).errorHandler = w.errorHandler ∧
        (w.addParentRef sh.parent (-1)).destroyWork = w.destroyWork := by
      cases sh.parent <;> exact ⟨rfl, rfl⟩
    refine .inr ⟨rfl, _, hput, hpresent.released _ _, ?_, hframe.2⟩
    exact hframe.1.trans hpresent.errorHandler.1

theorem unregisterHost_released (hpresent : HostPresent c devRefs w sh 1)
    (hadapter : sh.adapter.isSome = true) :
    ∃ w', unregisterHost w = .ok w' ∧ HostReleased devRefs w' ∧ w'.errorHandler = false ∧
      w'.destroyWork = false := by
  obtain ⟨adapter, hadapter⟩ := Option.isSome_iff_exists.mp hadapter
  have hcall := unregisterHost_spec hpresent.host hpresent.held hadapter
  refine ⟨_, hcall, hpresent.released _ _, ?_, rfl⟩
  show (w.errorHandler && !sh.ehandler) = false
  rw [hpresent.errorHandler.1, hpresent.errorHandler.2]
  exact Bool.and_not_self _

/-! ## Every run -/

/-- What holds between the calls if no host is allocated, or its device is added. -/
def HostInv (c : HostRun) (devRefs : Nat → Int) (s : HostStage) : Prop :=
  match s.phase with
  | .alloc => s.world = { devRefs := devRefs }
  | .addHost => HostPresent c devRefs s.world (c.allocated none) 0 ∧ s.world.destroyWork = false
  | .removeHost => ∃ sh, HostPresent c devRefs s.world sh 2 ∧ sh.refs = 3 ∧
      sh.parent.isSome = true ∧ sh.knodeParent = true ∧
      (sh.adapter.isSome = true ↔ c.AddsAdapter) ∧ sh.shostState ≠ .del ∧
      s.world.destroyWork = false
  | .hostPut => ∃ sh, HostPresent c devRefs s.world sh 1 ∧ sh.refs = 1 ∧
      (sh.adapter.isSome = true ↔ c.AddsAdapter) ∧ s.world.destroyWork = false
  | .done => s.world.destroyWork = true ∧
        (∃ sh, HostPresent c devRefs s.world sh 1 ∧ sh.adapter.isSome = true) ∨
      s.world.destroyWork = false ∧ HostReleased devRefs s.world ∧
        (s.world.errorHandler = true → c.Allocates ∧ ¬c.AddsAdapter ∧ c.hostt.enableEh = true)

theorem HostPresent.getHost {n : Int} (h : HostPresent c devRefs w sh n) : w.getHost = .ok sh := by
  rw [HostWorld.getHost, h.host]

theorem HostPresent.setParent (h : HostPresent c devRefs w (c.allocated none) 0)
    (parent : Option Nat) :
    HostPresent c devRefs (w.setHost (c.allocated parent)) (c.allocated parent) 0 := by
  have hdevRefs : w.devRefs = devRefs := h.devRefs
  refine ⟨rfl, h.count, h.held, ?_, h.errorHandler, h.allocates⟩
  rw [Int.neg_zero, addParentRef_zero]
  exact hdevRefs

theorem call_inv (hadds : c.Allocates → c.AddsDevice) (hinv : HostInv c devRefs s)
    {r : Except HostFault HostStage} (hcall : c.call s = some r) :
    ∃ t, r = .ok t ∧ HostInv c devRefs t := by
  obtain ⟨w, phase⟩ := s
  cases phase with
  | alloc =>
    obtain rfl : w = { devRefs := devRefs } := hinv
    obtain ⟨w', halloc, hwork, hw'⟩ := scsiHostAlloc_spec c devRefs
    simp only [HostRun.call, Option.some.injEq] at hcall
    rw [halloc, ok_bind] at hcall
    refine ⟨_, hcall.symm, ?_⟩
    rcases hw' with hpresent | ⟨-, hreleased, hnone⟩
    · have hphase : w'.host.isSome = true := by
        rw [hpresent.host]
        rfl
      rw [if_pos hphase]
      exact ⟨hpresent, hwork⟩
    · have hphase : ¬w'.host.isSome = true := by
        rw [hreleased.freed.1]
        exact nofun
      rw [if_neg hphase]
      refine .inr ⟨hwork, hreleased, ?_⟩
      intro hrunning
      have hnone : w'.errorHandler = false := hnone
      rw [hnone] at hrunning
      cases hrunning
  | addHost =>
    obtain ⟨hpresent, hwork⟩ := hinv
    have hmodify : (w.modifyHost fun sh => { sh with parent := c.parent }) =
        .ok (w.setHost (c.allocated c.parent)) := by
      rw [modifyHost, hpresent.getHost]
      rfl
    obtain ⟨w', sh', hadd, hsame, hpresent', hrefs, hparent, hknode, hadapter, hstate⟩ :=
      scsiAddHost_added (hadds hpresent.allocates) (hpresent.setParent c.parent)
    simp only [HostRun.call, Option.some.injEq] at hcall
    rw [hmodify, ok_bind, hadd, ok_bind] at hcall
    exact ⟨_, hcall.symm, sh', hpresent', hrefs, hparent, hknode, hadapter, hstate,
      hsame.trans hwork⟩
  | removeHost =>
    obtain ⟨sh, hpresent, hrefs, hparent, hknode, hadapter, hstate, hwork⟩ := hinv
    obtain ⟨w', sh', hremove, hsame, hpresent', hrefs', hadapter'⟩ :=
      scsiRemoveHost_spec hpresent hrefs hparent hknode hstate
    simp only [HostRun.call, Option.some.injEq] at hcall
    rw [hremove, ok_bind] at hcall
    refine ⟨_, hcall.symm, sh', hpresent', hrefs', ?_, hsame.trans hwork⟩
    rw [hadapter']
    exact hadapter
  | hostPut =>
    obtain ⟨sh, hpresent, hrefs, hadapter, hwork⟩ := hinv
    simp only [HostRun.call, Option.some.injEq] at hcall
    rcases scsiHostPut_spec hpresent hrefs with ⟨hsome, sh', hsame, hput, hpresent'⟩ |
      ⟨hnone, w', hput, hreleased, herror, hsame⟩
    · rw [hput, ok_bind] at hcall
      refine ⟨_, hcall.symm, .inl ⟨rfl, sh', hpresent', ?_⟩⟩
      rw [hsame]
      exact hsome
    · rw [hput, ok_bind] at hcall
      refine ⟨_, hcall.symm, .inr ⟨hsame.trans hwork, hreleased, ?_⟩⟩
      intro hrunning
      have hfailed : ¬c.AddsAdapter := by
        rw [← hadapter, hnone]
        exact nofun
      have hrunning : w'.errorHandler = true := hrunning
      rw [herror] at hrunning
      exact ⟨hpresent.allocates, hfailed, hrunning⟩
  | done => cases hcall

theorem step_inv (hclean : c.Clean) (hinv : HostInv c devRefs s) {e : HostCall}
    {r : Except HostFault HostStage} (hstep : c.Step (.ok s) e r) :
    ∃ t, r = .ok t ∧ HostInv c devRefs t := by
  cases e with
  | call => exact call_inv (fun hallocates => (hclean hallocates).1) hinv hstep
  | work =>
    obtain ⟨w, phase⟩ := s
    simp only [HostRun.Step, HostRun.next?, Option.ite_none_right_eq_some,
      Option.some.injEq] at hstep
    obtain ⟨hqueued, hstep⟩ := hstep
    -- the work is only queued when all calls have been made
    have hnot : ∀ {P : Prop}, w.destroyWork = false → P := by
      intro P hwork
      rw [hqueued] at hwork
      cases hwork
    cases phase with
    | alloc =>
      obtain rfl : w = { devRefs := devRefs } := hinv
      cases hqueued
    | addHost => exact hnot hinv.2
    | removeHost =>
      obtain ⟨sh, -, -, -, -, -, -, hwork⟩ := hinv
      exact hnot hwork
    | hostPut =>
      obtain ⟨sh, -, -, -, hwork⟩ := hinv
      exact hnot hwork
    | done =>
      rcases hinv with ⟨-, sh, hpresent, hadapter⟩ | ⟨hwork, -⟩
      · obtain ⟨w', hcall, hreleased, herror, hwork'⟩ := unregisterHost_released hpresent hadapter
        rw [hcall, ok_bind] at hstep
        refine ⟨_, hstep.symm, .inr ⟨hwork', hreleased, ?_⟩⟩
        intro hrunning
        have herror : w'.errorHandler = false := herror
        rw [herror] at hrunning
        cases hrunning
      · exact hnot hwork
  | errorHandler =>
    obtain ⟨w, phase⟩ := s
    simp only [HostRun.Step, HostRun.next?, Option.ite_none_right_eq_some,
      Option.some.injEq] at hstep
    obtain ⟨hrunning, hstep⟩ := hstep
    have hlooks : ∀ {sh}, w.getHost = .ok sh → ∃ t, r = .ok t ∧ HostInv c devRefs t := by
      intro sh hget
      rw [hget, ok_bind] at hstep
      exact ⟨_, hstep.symm, hinv⟩
    cases phase with
    | alloc =>
      obtain rfl : w = { devRefs := devRefs } := hinv
      cases hrunning
    | addHost => exact hlooks hinv.1.getHost
    | removeHost =>
      obtain ⟨sh, hpresent, -⟩ := hinv
      exact hlooks hpresent.getHost
    | hostPut =>
      obtain ⟨sh, hpresent, -⟩ := hinv
      exact hlooks hpresent.getHost
    | done =>
      rcases hinv with ⟨-, sh, hpresent, -⟩ | ⟨-, -, herror⟩
      · exact hlooks hpresent.getHost
      · obtain ⟨hallocates, hfailed, henable⟩ := herror hrunning
        rcases (hclean hallocates).2 with hdone | hdisabled
        · exact absurd hdone hfailed
        · rw [henable] at hdisabled
          cases hdisabled

/-! ## What goes wrong else -/

theorem alloc_step (hallocates : c.Allocates) (devRefs : Nat → Int) :
    ∃ w, HostPresent c devRefs w (c.allocated none) 0 ∧
      c.Step (.ok (.start devRefs)) .call (.ok ⟨w, .addHost⟩) := by
  obtain ⟨w, halloc, -, hpresent | ⟨hnot, -⟩⟩ := scsiHostAlloc_spec c devRefs
  · have hphase : w.host.isSome = true := by
      rw [hpresent.host]
      rfl
    refine ⟨w, hpresent, ?_⟩
    show some (c.scsiHostAlloc { devRefs := devRefs } >>= _) = _
    rw [halloc, ok_bind, if_pos hphase]
    rfl
  · exact absurd hallocates hnot

theorem addHost_step {w' : HostWorld} (hpresent : HostPresent c devRefs w (c.allocated none) 0)
    (hadd : c.scsiAddHost (w.setHost (c.allocated c.parent)) = .ok w') :
    c.Step (.ok ⟨w, .addHost⟩) .call (.ok ⟨w', .removeHost⟩) := by
  have hmodify : (w.modifyHost fun sh => { sh with parent := c.parent }) =
      .ok (w.setHost (c.allocated c.parent)) := by
    rw [modifyHost, hpresent.getHost]
    rfl
  show some ((w.modifyHost fun sh => { sh with parent := c.parent }) >>= _) = _
  rw [hmodify, ok_bind, hadd]
  rfl

theorem scsiRemoveHost_frees (hheld : Holds w.held base) :
    ∃ w', scsiRemoveHost (w.setHost (c.allocated none)) = .ok w' ∧ w'.host = none := by
  let sh : ScsiHost := { c.allocated none with refs := 0, shostState := .del }
  have hfree := freeHostResources_spec (w := w.setHost sh) rfl hheld
  exact ⟨_, hfree, rfl⟩

theorem scsiHostPut_freed (hfreed : w.host = none) : scsiHostPut w = .error .freedHost := by
  rw [scsiHostPut, putHostDevice, getHost, hfreed]
  rfl

theorem unsafe_of_not_clean (hclean : ¬c.Clean) (devRefs : Nat → Int) :
    ∃ es fault, Run c.Step (.ok (.start devRefs)) es (.error fault) := by
  rw [HostRun.Clean, Classical.not_imp] at hclean
  obtain ⟨hallocates, hnot⟩ := hclean
  obtain ⟨w₁, hpresent, halloc⟩ := alloc_step hallocates devRefs
  by_cases hadds : c.AddsDevice
  · -- the error handler goes on when the host is released
    have hfailed : ¬c.AddsAdapter := fun hdone => hnot ⟨hadds, .inl hdone⟩
    have henable : c.hostt.enableEh = true := by
      rw [← Bool.not_eq_false]
      exact fun hdisabled => hnot ⟨hadds, .inr hdisabled⟩
    obtain ⟨w₂, sh₂, hadd, -, hpresent₂, hrefs, hparent, hknode, hadapter, hstate⟩ :=
      scsiAddHost_added hadds (hpresent.setParent c.parent)
    obtain ⟨w₃, sh₃, hremove, -, hpresent₃, hrefs₃, hsame⟩ :=
      scsiRemoveHost_spec hpresent₂ hrefs hparent hknode hstate
    have hnone : ¬sh₃.adapter.isSome = true := by
      rw [hsame, hadapter]
      exact hfailed
    rcases scsiHostPut_spec hpresent₃ hrefs₃ with ⟨hsome, -⟩ | ⟨-, w₄, hput, hreleased, herror, -⟩
    · exact absurd hsome hnone
    have hremoveStep : c.Step (.ok ⟨w₂, .removeHost⟩) .call (.ok ⟨w₃, .hostPut⟩) := by
      show some (scsiRemoveHost w₂ >>= _) = _
      rw [hremove]
      rfl
    have hputStep : c.Step (.ok ⟨w₃, .hostPut⟩) .call (.ok ⟨w₄, .done⟩) := by
      show some (scsiHostPut w₃ >>= _) = _
      rw [hput]
      rfl
    have hlook : c.Step (.ok ⟨w₄, .done⟩) .errorHandler (.error .freedHost) := by
      show (if w₄.errorHandler = true then some (w₄.getHost >>= _) else none) = _
      rw [herror, if_pos henable, getHost, hreleased.freed.1]
      rfl
    exact ⟨_, _, .cons halloc (.cons (addHost_step hpresent hadd)
      (.cons hremoveStep (.cons hputStep (.single hlook))))⟩
  · obtain ⟨parent, hadd, hparent⟩ := scsiAddHost_refused w₁ c.parent hadds
    have haddStep := addHost_step hpresent hadd
    cases parent with
    | some d =>
      have hremoveStep : c.Step (.ok ⟨w₁.setHost (c.allocated (some d)), .removeHost⟩) .call
          (.error .nullKlist) := rfl
      exact ⟨_, _, .cons halloc (.cons haddStep (.single hremoveStep))⟩
    | none =>
      obtain ⟨w₃, hremove, hfreed⟩ := scsiRemoveHost_frees (c := c) hpresent.held
      have hremoveStep : c.Step (.ok ⟨w₁.setHost (c.allocated none), .removeHost⟩) .call
          (.ok ⟨w₃, .hostPut⟩) := by
        show some (scsiRemoveHost (w₁.setHost (c.allocated none)) >>= _) = _
        rw [hremove]
        rfl
      have hputStep : c.Step (.ok ⟨w₃, .hostPut⟩) .call (.error .freedHost) := by
        show some (scsiHostPut w₃ >>= _) = _
        rw [scsiHostPut_freed hfreed]
        rfl
      exact ⟨_, _, .cons halloc (.cons haddStep (.cons hremoveStep (.single hputStep)))⟩

end Resources

/-- **Hosts.** In every run of the four calls, of the work, and of the error handler, the host is
    released once and everything is given back, just if nothing fails before `device_add` is
    passed, and an error handler is not left behind by a later failure. -/
theorem host_released_iff (c : HostRun) (devRefs : Nat → Int) :
    (∀ es s, Run c.Step (.ok (.start devRefs)) es s → HostSafe devRefs s) ↔ c.Clean := by
  constructor
  · intro hsafe
    by_contra hclean
    obtain ⟨es, fault, hrun⟩ := unsafe_of_not_clean hclean devRefs
    exact hsafe es _ hrun
  · intro hclean es s hrun
    have hinit : ∃ t, (.ok (.start devRefs) : Except HostFault HostStage) = .ok t ∧
        HostInv c devRefs t := ⟨_, rfl, rfl⟩
    have hinv : ∃ t, s = .ok t ∧ HostInv c devRefs t := by
      apply hrun.invariant _ hinit
      rintro _ e r ⟨t, rfl, hinv⟩ hstep
      exact step_inv hclean hinv hstep
    obtain ⟨t, rfl, hinv⟩ := hinv
    intro hdone hwork
    rw [HostInv, hdone] at hinv
    rcases hinv with ⟨hqueued, -⟩ | ⟨-, hreleased, -⟩
    · rw [hwork] at hqueued
      cases hqueued
    · exact hreleased

/-- The template of the driver has no name: `scsi_add_host` refuses the host, its removal frees it,
    and `scsi_host_put` puts what is free.  Or `device_add` fails: a list that the host is not in is
    to give it up.  Or there is no memory for the adapter: the error handler of the host outlives
    it. -/
theorem host_touched :
    Run (HostRun.Step { hostt := { name := false } }) (.ok (.start fun _ => 1))
        [.call, .call, .call, .call] (.error .freedHost) ∧
    Run (HostRun.Step { busAdd := false }) (.ok (.start fun _ => 1)) [.call, .call, .call]
        (.error .nullKlist) ∧
    Run (HostRun.Step { hostt := { enableEh := true }, allocAdapter := false })
        (.ok (.start fun _ => 1)) [.call, .call, .call, .call, .errorHandler]
        (.error .freedHost) := by
  refine ⟨?_, ?_, ?_⟩
  · exact Run.of_exec (f := HostRun.next? _) (fun _ _ _ h => h) rfl
  · exact Run.of_exec (f := HostRun.next? _) (fun _ _ _ h => h) rfl
  · exact Run.of_exec (f := HostRun.next? _) (fun _ _ _ h => h) rfl

end VmkDrivers.Vmklinux
