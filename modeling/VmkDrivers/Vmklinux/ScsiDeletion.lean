/-
  VmkDrivers.Vmklinux.ScsiDeletion

  A host or a device that is deleted stays so (`linux_scsi.c`,
  `linux_scsi_lld_if.c`, `linux_scsi_vmk_if.c`).

  `scsi_remove_host`, `scsi_remove_device`, `scsi_destroy_sdev` and
  `scsi_offline_device` write the states under the lock, the last of them behind a
  test.  A reset writes the state of the host without one, and so do
  `device_block`, `device_unblock` and `SCSILinuxConfigurePath` that of a device,
  which they have found in an earlier critical section.  Each of these writes can
  take a deletion back (`deletion_undone`), and nothing else can
  (`deletion_final_iff`).

  The devices and targets of a host are numbered.  A target that has been removed
  is skipped wherever it is found, and stays in its list here.
-/

import VmkDrivers.Vmklinux.ScsiReset

namespace VmkDrivers.Vmklinux

open VmkDrivers.Lib

/-! ## Hosts -/

/-- `struct scsi_device` -/
structure Sdev where
  channel : Nat
  id : Nat
  lun : Nat
  sdevState : SdevState
  /-- The count of `sdev_gendev`. -/
  refs : Int := 2
deriving DecidableEq, Repr

/-- `struct scsi_target` -/
structure Starget where
  channel : Nat
  id : Nat
  state : StargetState := .running
  devices : List Nat := []
deriving DecidableEq, Repr

structure ScsiTree where
  flags : HostFlags := {}
  targets : Nat → Starget
  sdevs : Nat → Sdev
  /-- `__targets` -/
  targetList : List Nat := []
  /-- `__devices` -/
  deviceList : List Nat := []

structure DelState where
  tree : ScsiTree
  /-- The host has been in `SHOST_DEL`. -/
  hostDel : Bool := false
  /-- The device has been in `SDEV_DEL`. -/
  sdevDel : Nat → Bool := fun _ => false
  /-- How often `scsi_remove_host` has deleted and put the device of the host. -/
  hostReleases : Nat := 0
  /-- How often `scsi_remove_device` has told the vmkernel that the path is dead. -/
  deadNotices : Nat → Nat := fun _ => 0
  /-- The driver has been called for a host or a device that had been deleted. -/
  issuedDead : Bool := false

namespace DelState

variable (s : DelState)

def sdev (d : Nat) : Sdev := s.tree.sdevs d

def setHost (state : ShostState) : DelState :=
  { s with
    tree := { s.tree with flags := { s.tree.flags with shostState := state } }
    hostDel := s.hostDel || state = .del }

def setSdev (d : Nat) (state : SdevState) : DelState :=
  { s with
    tree := { s.tree with
      sdevs := Function.update s.tree.sdevs d { s.tree.sdevs d with sdevState := state } }
    sdevDel := Function.update s.sdevDel d (s.sdevDel d || state = .del) }

def setRefs (d : Nat) (refs : Int) : DelState :=
  { s with
    tree := { s.tree with
      sdevs := Function.update s.tree.sdevs d { s.tree.sdevs d with refs := refs } } }

/-- `get_device(&sdev->sdev_gendev)` -/
def getDevice (d : Nat) : DelState := s.setRefs d ((s.sdev d).refs + 1)

/-- `list_del` in `scsi_device_dev_release` -/
def listDel (d : Nat) : DelState :=
  { s with
    tree := { s.tree with
      targets := fun t => { s.tree.targets t with devices := (s.tree.targets t).devices.erase d }
      deviceList := s.tree.deviceList.erase d } }

/-- `__scsi_device_lookup` -/
def lookup (channel id lun : Nat) : Option Nat :=
  s.tree.deviceList.find? fun d =>
    (s.sdev d).channel = channel ∧ (s.sdev d).id = id ∧ (s.sdev d).lun = lun

end DelState

def listAfter (prev : Option Nat) (ds : List Nat) : List Nat :=
  match prev with
  | none => ds
  | some d => (ds.dropWhile (· ≠ d)).tail

/-! ## The calls -/

/-- `scsi_remove_device`, behind its beginning -/
inductive RemoveDevicePc where
  | lock
  | notify
deriving DecidableEq, Repr

/-- `__scsi_remove_target`, with the device before this one, which has a reference. -/
inductive RemoveTargetPc where
  | lock
  | putPrev (d : Nat) (prev : Option Nat)
  | device (d : Nat) (pc : RemoveDevicePc)
  | next (d : Nat)
  | finish (prev : Option Nat)
deriving DecidableEq, Repr

/-- `scsi_remove_host` -/
inductive RemoveHostPc where
  | lock
  /-- The loop of `scsi_forget_host`. -/
  | forget
  | target (t : Nat) (pc : RemoveTargetPc)
  /-- `SCSILinuxDeleteAdapterPaths`, with which the vmkernel deletes paths. -/
  | deletePaths
  | release
deriving DecidableEq, Repr

/-- `SCSILinuxDestroyPath` -/
inductive DestroyPathPc where
  | lookup (channel id lun : Nat)
  | setDel (d : Nat)
  | deviceDel (d : Nat)
  | put (d : Nat)
deriving DecidableEq, Repr

/-- `SCSILinuxConfigurePath` -/
inductive ConfigurePathPc where
  | lookup (channel id lun : Nat)
  | put (d : Nat)
  | slaveConfigure (d : Nat)
  | setRunning (d : Nat)
deriving DecidableEq, Repr

/-- `device_block`, `device_unblock`, or `scsi_offline_device` -/
inductive WalkFn where
  | block
  | unblock
  | offline
deriving DecidableEq, Repr

/-- `starget_for_each_device` for the targets `ts`, one after the other. -/
inductive WalkPc where
  | iterate (prev : Option Nat)
  | putPrev (d : Nat) (prev : Option Nat)
  | apply (d : Nat)
  | finish (prev : Option Nat)
deriving DecidableEq, Repr

inductive DelActivity where
  | removeHost (pc : RemoveHostPc)
  | taskMgmt (pc : TmfPc)
  | removeDevice (d : Nat) (pc : RemoveDevicePc)
  | destroyPath (pc : DestroyPathPc)
  | configurePath (pc : ConfigurePathPc)
  | walk (fn : WalkFn) (ts : List Nat) (pc : WalkPc)
  /-- The same with the lock of the host held by the caller. -/
  | walkLocked (fn : WalkFn) (ts : List Nat)
  | queue (d : Nat) (pc : QueuePc)
  | release (d : Nat)
deriving DecidableEq, Repr

structure DelAnswer where
  slaveConfigure : Bool := true
  noUldAttach : Bool := false
  view : QueueView := {}
deriving DecidableEq, Repr

namespace DelState

/-- `put_device(&sdev->sdev_gendev)` -/
def putDevice (s : DelState) (d : Nat) : DelState × List DelActivity :=
  (s.setRefs d ((s.sdev d).refs - 1), if (s.sdev d).refs - 1 = 0 then [.release d] else [])

def putPrev (s : DelState) : Option Nat → DelState × List DelActivity
  | none => (s, [])
  | some d => s.putDevice d

end DelState

def RemoveDevicePc.step (s : DelState) (d : Nat) : RemoveDevicePc → DelState × Option RemoveDevicePc
  | .lock =>
    if (s.sdev d).sdevState = .del then (s, none) else (s.setSdev d .del, some .notify)
  | .notify =>
    ({ s with deadNotices := Function.update s.deadNotices d (s.deadNotices d + 1) }, none)

namespace RemoveTargetPc

def advance (s : DelState) (t : Nat) (prev : Option Nat) : DelState × RemoveTargetPc :=
  let starget := s.tree.targets t
  match (listAfter prev starget.devices).find? fun d =>
    (s.sdev d).channel = starget.channel ∧ (s.sdev d).id = starget.id ∧
      (s.sdev d).sdevState ≠ .del with
  | some d => (s.getDevice d, .putPrev d prev)
  | none => (s, .finish prev)

def step (s : DelState) (t : Nat) :
    RemoveTargetPc → DelState × Option RemoveTargetPc × List DelActivity
  | .lock =>
    -- somebody else removes it
    if (s.tree.targets t).state = .del then (s, none, [])
    else
      let s := { s with
        tree := { s.tree with
          targets := Function.update s.tree.targets t
            { s.tree.targets t with state := .del } } }
      let (s, pc) := advance s t none
      (s, some pc, [])
  | .putPrev d prev =>
    let (s, ps) := s.putPrev prev
    (s, some (.device d .lock), ps)
  | .device d pc =>
    match pc.step s d with
    | (s, some pc) => (s, some (.device d pc), [])
    | (s, none) => (s, some (.next d), [])
  | .next d =>
    let (s, pc) := advance s t (some d)
    (s, some pc, [])
  | .finish prev =>
    let (s, ps) := s.putPrev prev
    (s, none, ps)

end RemoveTargetPc

def RemoveHostPc.step (s : DelState) :
    RemoveHostPc → DelState × Option RemoveHostPc × List DelActivity
  | .lock =>
    if s.tree.flags.shostState = .del then (s, none, []) else (s.setHost .del, some .forget, [])
  | .forget =>
    -- the list is gone through anew behind each target
    match s.tree.targetList.find? fun t => (s.tree.targets t).state ≠ .del with
    | some t => (s, some (.target t .lock), [])
    | none => (s, some .deletePaths, [])
  | .target t pc =>
    match pc.step s t with
    | (s, some pc, ps) => (s, some (.target t pc), ps)
    | (s, none, ps) => (s, some .forget, ps)
  | .deletePaths => (s, some .release, [])
  | .release => ({ s with hostReleases := s.hostReleases + 1 }, none, [])

def DestroyPathPc.step (s : DelState) :
    DestroyPathPc → DelState × Option DestroyPathPc × List DelActivity
  | .lookup channel id lun => (s, (s.lookup channel id lun).map .setDel, [])
  | .setDel d => (s.setSdev d .del, some (.deviceDel d), [])
  | .deviceDel d =>
    -- the list of children of the target has a reference
    let (s, ps) := s.putDevice d
    (s, some (.put d), ps)
  | .put d =>
    let (s, ps) := s.putDevice d
    (s, none, ps)

def ConfigurePathPc.step (s : DelState) (b : DelAnswer) :
    ConfigurePathPc → DelState × Option ConfigurePathPc × List DelActivity
  | .lookup channel id lun =>
    match s.lookup channel id lun with
    | none => (s, none, [])
    | some d =>
      -- a device that is being deleted is not taken
      if (s.sdev d).sdevState = .del then (s, none, []) else (s.getDevice d, some (.put d), [])
  | .put d =>
    let (s, ps) := s.putDevice d
    (s, some (.slaveConfigure d), ps)
  | .slaveConfigure d =>
    (s, if b.slaveConfigure ∧ b.noUldAttach = false then some (.setRunning d) else none, [])
  | .setRunning d => (s.setSdev d .running, none, [])

def WalkFn.apply (s : DelState) (d : Nat) : WalkFn → DelState
  | .block => s.setSdev d .block
  | .unblock => s.setSdev d .running
  | .offline =>
    if (s.sdev d).sdevState = .del ∨ (s.sdev d).sdevState = .offline then s
    else s.setSdev d .offline

namespace DelState

def ofTarget (s : DelState) (d t : Nat) : Prop :=
  (s.sdev d).channel = (s.tree.targets t).channel ∧ (s.sdev d).id = (s.tree.targets t).id

instance (s : DelState) (d t : Nat) : Decidable (s.ofTarget d t) :=
  inferInstanceAs (Decidable (_ ∧ _))

end DelState

/-- The walk over the devices for the target `t`. -/
def WalkPc.step (s : DelState) (fn : WalkFn) (t : Nat) :
    WalkPc → DelState × Option WalkPc × List DelActivity
  | .iterate prev =>
    -- `__scsi_iterate_devices`
    match (listAfter prev s.tree.deviceList).find? fun d => (s.sdev d).sdevState ≠ .del with
    | some d => (s.getDevice d, some (.putPrev d prev), [])
    | none => (s, some (.finish prev), [])
  | .putPrev d prev =>
    let (s, ps) := s.putPrev prev
    (s, some (if s.ofTarget d t then .apply d else .iterate (some d)), ps)
  | .apply d => (fn.apply s d, some (.iterate (some d)), [])
  | .finish prev =>
    let (s, ps) := s.putPrev prev
    (s, none, ps)

def WalkFn.applyAll (s : DelState) (fn : WalkFn) (ts : List Nat) : DelState :=
  ts.foldl (fun s t => s.tree.deviceList.foldl (fun s d =>
    if (s.sdev d).sdevState ≠ .del ∧ s.ofTarget d t then fn.apply s d else s) s) s

def DelState.decide (s : DelState) (d : Nat) : QueueVerdict → DelState
  | .issue => { s with issuedDead := s.issuedDead || s.hostDel || s.sdevDel d }
  | _ => s

inductive DelEvent where
  | removeHost
  | taskMgmt
  | removeDevice (d : Nat)
  | destroyPath (channel id lun : Nat)
  | configurePath (channel id lun : Nat)
  | target (fn : WalkFn) (ts : List Nat)
  | targetLocked (fn : WalkFn) (ts : List Nat)
  | queueCommand (d : Nat) (req : QueueRequest)
deriving DecidableEq, Repr

def DelEvent.begins : DelEvent → DelActivity
  | .removeHost => .removeHost .lock
  | .taskMgmt => .taskMgmt .inc
  | .removeDevice d => .removeDevice d .lock
  | .destroyPath channel id lun => .destroyPath (.lookup channel id lun)
  | .configurePath channel id lun => .configurePath (.lookup channel id lun)
  | .target fn ts => .walk fn ts (.iterate none)
  | .targetLocked fn ts => .walkLocked fn ts
  | .queueCommand d req => .queue d (.getCommand req)

def DelActivity.step (s : DelState) (b : DelAnswer) : DelActivity → DelState × List DelActivity
  | .removeHost pc =>
    let (s, pc, ps) := pc.step s
    (s, pc.toList.map .removeHost ++ ps)
  | .taskMgmt pc =>
    let (flags, pc) := pc.step s.tree.flags
    ({ s with tree := { s.tree with flags := flags } }, pc.toList.map .taskMgmt)
  | .removeDevice d pc =>
    let (s, pc) := pc.step s d
    (s, pc.toList.map (.removeDevice d))
  | .destroyPath pc =>
    let (s, pc, ps) := pc.step s
    (s, pc.toList.map .destroyPath ++ ps)
  | .configurePath pc =>
    let (s, pc, ps) := pc.step s b
    (s, pc.toList.map .configurePath ++ ps)
  | .walk _ [] _ => (s, [])
  | .walk fn (t :: ts) pc =>
    match pc.step s fn t with
    | (s, some pc, ps) => (s, .walk fn (t :: ts) pc :: ps)
    | (s, none, ps) => (s, .walk fn ts (.iterate none) :: ps)
  | .walkLocked fn ts => (fn.applyAll s ts, [])
  | .queue d pc =>
    match pc.step s.tree.flags.shostState { b.view with sdevState := (s.sdev d).sdevState } with
    | .inl pc => (s, [.queue d pc])
    | .inr verdict => (s.decide d verdict, [])
  | .release d => (s.listDel d, [])

/-- `scsi_offline_device` takes the lock itself. -/
def delProgram : Program DelState DelActivity DelEvent DelAnswer Empty where
  begin s e := match e with
    | .targetLocked .offline _ => none
    | e => some (s, [e.begins])
  move s p b := some (.ok (p.step s b))

abbrev DelPool := Except Empty (Pool DelState DelActivity)

abbrev DelStep : DelPool → PoolEvent DelActivity DelEvent DelAnswer → DelPool → Prop :=
  delProgram.Step

/-! ## What is promised -/

/-- What has been deleted is so for good; the host is released once at most, and a path reported
    dead once at most by `scsi_remove_device`; and nothing that is deleted gets a command. -/
structure DeletionFinal (s : DelState) : Prop where
  host : s.hostDel = true → s.tree.flags.shostState = .del
  sdev : ∀ d, s.sdevDel d = true → (s.sdev d).sdevState = .del
  released : s.hostReleases ≤ 1
  notified : ∀ d, s.deadNotices d ≤ 1
  commands : s.issuedDead = false

/-- The writes without a test find no deletion. -/
def KeepsDeletion : DelPool → PoolEvent DelActivity DelEvent DelAnswer → Prop
  | .ok s, .move (.taskMgmt .setRecovery) _ | .ok s, .move (.taskMgmt .setRunning) _ =>
    s.shared.tree.flags.shostState ≠ .del
  | .ok s, .move (.configurePath (.setRunning d)) _ => (s.shared.sdev d).sdevState ≠ .del
  | .ok s, .move (.walk .block (_ :: _) (.apply d)) _
  | .ok s, .move (.walk .unblock (_ :: _) (.apply d)) _ => (s.shared.sdev d).sdevState ≠ .del
  | _, _ => True

instance (s : DelPool) (e : PoolEvent DelActivity DelEvent DelAnswer) :
    Decidable (KeepsDeletion s e) := by
  unfold KeepsDeletion
  split <;> infer_instance

/-! ## Steps that keep what is deleted -/

namespace DelState

structure Kept (s s' : DelState) : Prop where
  host : s'.tree.flags.shostState = .del ↔ s.tree.flags.shostState = .del
  sdev : ∀ d, (s'.sdev d).sdevState = .del ↔ (s.sdev d).sdevState = .del
  hostDel : s'.hostDel = s.hostDel
  sdevDel : s'.sdevDel = s.sdevDel
  hostReleases : s'.hostReleases = s.hostReleases
  deadNotices : s'.deadNotices = s.deadNotices
  issuedDead : s'.issuedDead = s.issuedDead

section Keeps

variable {s s' t : DelState} {d e : Nat} {state : SdevState}

theorem Kept.refl (s : DelState) : s.Kept s :=
  ⟨.rfl, fun _ => .rfl, rfl, rfl, rfl, rfl, rfl⟩

theorem Kept.trans (h : s.Kept s') (h' : s'.Kept t) : s.Kept t where
  host := h'.host.trans h.host
  sdev d := (h'.sdev d).trans (h.sdev d)
  hostDel := h'.hostDel.trans h.hostDel
  sdevDel := h'.sdevDel.trans h.sdevDel
  hostReleases := h'.hostReleases.trans h.hostReleases
  deadNotices := h'.deadNotices.trans h.deadNotices
  issuedDead := h'.issuedDead.trans h.issuedDead

@[simp]
theorem setSdev_self (s : DelState) (d : Nat) (state : SdevState) :
    ((s.setSdev d state).sdev d).sdevState = state := by
  simp [sdev, setSdev]

theorem setSdev_other (s : DelState) (state : SdevState) (hne : e ≠ d) :
    (s.setSdev d state).sdev e = s.sdev e :=
  Function.update_of_ne hne _ _

theorem setRefs_kept (s : DelState) (d : Nat) (refs : Int) : s.Kept (s.setRefs d refs) := by
  refine ⟨.rfl, ?_, rfl, rfl, rfl, rfl, rfl⟩
  intro e
  by_cases he : e = d
  · simp [he, sdev, setRefs]
  · simp [he, sdev, setRefs]

theorem putDevice_kept (s : DelState) (d : Nat) : s.Kept (s.putDevice d).1 :=
  s.setRefs_kept d _

theorem putPrev_kept (s : DelState) (prev : Option Nat) : s.Kept (s.putPrev prev).1 := by
  cases prev with
  | none => exact .refl s
  | some d => exact s.putDevice_kept d

theorem setSdev_kept (hlive : (s.sdev d).sdevState ≠ .del) (hstate : state ≠ .del) :
    s.Kept (s.setSdev d state) := by
  refine ⟨.rfl, ?_, rfl, ?_, rfl, rfl, rfl⟩
  · intro e
    by_cases he : e = d
    · rw [he, setSdev_self]
      exact iff_of_false hstate hlive
    · rw [setSdev_other s state he]
  · show Function.update s.sdevDel d (s.sdevDel d || state = .del) = s.sdevDel
    rw [decide_eq_false hstate, Bool.or_false, Function.update_eq_self]

theorem apply_kept (fn : WalkFn) (hlive : fn ≠ .offline → (s.sdev d).sdevState ≠ .del) :
    s.Kept (fn.apply s d) := by
  cases fn with
  | block => exact setSdev_kept (hlive nofun) nofun
  | unblock => exact setSdev_kept (hlive nofun) nofun
  | offline =>
    rw [WalkFn.apply]
    split
    · exact .refl s
    · next hstate =>
      rw [not_or] at hstate
      exact setSdev_kept hstate.1 nofun

theorem applyAll_kept (s : DelState) (fn : WalkFn) (ts : List Nat) : s.Kept (fn.applyAll s ts) := by
  have hfold : ∀ {f : DelState → Nat → DelState}, (∀ (s : DelState) n, s.Kept (f s n)) →
      ∀ (ns : List Nat) (s : DelState), s.Kept (ns.foldl f s) := by
    intro f hf ns
    induction ns with
    | nil => exact fun s => .refl s
    | cons n ns ih => exact fun s => (hf s n).trans (ih (f s n))
  apply hfold
  intro s t
  apply hfold
  intro s d
  split
  · next hlive => exact apply_kept fn fun _ => hlive.1
  · exact .refl s

end Keeps

end DelState

/-! ## The invariant -/

def DelActivity.releasing : DelActivity → Nat
  | .removeHost .lock => 0
  | .removeHost _ => 1
  | _ => 0

def RemoveDevicePc.notices : RemoveDevicePc → Nat
  | .lock => 0
  | .notify => 1

def RemoveTargetPc.notices (d : Nat) : RemoveTargetPc → Nat
  | .device e pc => if e = d then pc.notices else 0
  | _ => 0

def DelActivity.noticing (d : Nat) : DelActivity → Nat
  | .removeHost (.target _ pc) => pc.notices d
  | .removeDevice e pc => if e = d then pc.notices else 0
  | _ => 0

open DelActivity

structure DelInv (s : DelState) (ps : Multiset DelActivity) : Prop where
  host : s.hostDel = true ↔ s.tree.flags.shostState = .del
  sdev : ∀ d, s.sdevDel d = true ↔ (s.sdev d).sdevState = .del
  released : s.hostReleases + total releasing ps ≤ s.hostDel.toNat
  notified : ∀ d, s.deadNotices d + total (noticing d) ps ≤ (s.sdevDel d).toNat
  commands : s.issuedDead = false

open DelState

section Invariant

variable {s s' : DelState} {p : DelActivity} {ps : List DelActivity} {rest : Multiset DelActivity}
  {d : Nat} {b : DelAnswer}

theorem DelInv.deletionFinal {ps : Multiset DelActivity} (h : DelInv s ps) : DeletionFinal s where
  host := h.host.mp
  sdev d := (h.sdev d).mp
  released := by
    have hle := h.released
    have hone := Bool.toNat_le s.hostDel
    omega
  notified d := by
    have hle := h.notified d
    have hone := Bool.toNat_le (s.sdevDel d)
    omega
  commands := h.commands

theorem DelInv.step (h : DelInv s (p ::ₘ rest))
    (hhost : s'.hostDel = true ↔ s'.tree.flags.shostState = .del)
    (hsdev : ∀ d, s'.sdevDel d = true ↔ (s'.sdev d).sdevState = .del)
    (hreleased : s'.hostReleases + (ps.map releasing).sum + s.hostDel.toNat ≤
      s.hostReleases + p.releasing + s'.hostDel.toNat)
    (hnotified : ∀ d, s'.deadNotices d + (ps.map (noticing d)).sum +
      (s.sdevDel d).toNat ≤ s.deadNotices d + p.noticing d + (s'.sdevDel d).toNat)
    (hcommands : s'.issuedDead = false) : DelInv s' (ps + rest) := by
  refine ⟨hhost, hsdev, ?_, ?_, hcommands⟩
  · have hbefore := h.released
    rw [total_cons] at hbefore
    rw [total_add, total_coe]
    omega
  · intro d
    have hbefore := h.notified d
    have hstep := hnotified d
    rw [total_cons] at hbefore
    rw [total_add, total_coe]
    omega

theorem DelInv.kept (h : DelInv s (p ::ₘ rest)) (hkept : s.Kept s')
    (hreleasing : (ps.map releasing).sum ≤ p.releasing)
    (hnoticing : ∀ d, (ps.map (noticing d)).sum ≤ p.noticing d) :
    DelInv s' (ps + rest) := by
  apply h.step
  · rw [hkept.hostDel, hkept.host]
    exact h.host
  · intro d
    rw [hkept.sdevDel, hkept.sdev]
    exact h.sdev d
  · rw [hkept.hostReleases, hkept.hostDel]
    omega
  · intro d
    have hle := hnoticing d
    rw [hkept.deadNotices, hkept.sdevDel]
    omega
  · rw [hkept.issuedDead]
    exact h.commands

theorem DelInv.setDel (h : DelInv s (p ::ₘ rest))
    (hreleasing : (ps.map releasing).sum ≤ p.releasing)
    (hnoticing : ∀ e, (ps.map (noticing e)).sum ≤ p.noticing e +
      if d = e ∧ (s.sdev e).sdevState ≠ .del then 1 else 0) :
    DelInv (s.setSdev d .del) (ps + rest) := by
  have hdel : (s.setSdev d .del).sdevDel = Function.update s.sdevDel d true := by
    rw [setSdev, decide_eq_true rfl, Bool.or_true]
  apply h.step
  · exact h.host
  · intro e
    rw [hdel]
    by_cases he : e = d
    · rw [he, Function.update_self, setSdev_self]
      exact iff_of_true rfl rfl
    · rw [Function.update_of_ne he, setSdev_other s _ he]
      exact h.sdev e
  · have hsame : (s.setSdev d .del).hostReleases = s.hostReleases ∧
        (s.setSdev d .del).hostDel = s.hostDel := ⟨rfl, rfl⟩
    rw [hsame.1, hsame.2]
    omega
  · intro e
    have hsame : (s.setSdev d .del).deadNotices = s.deadNotices := rfl
    have hle := hnoticing e
    rw [hsame, hdel]
    by_cases he : e = d
    · rw [he, Function.update_self]
      rw [he] at hle
      by_cases hstate : (s.sdev d).sdevState = .del
      · have hwas := (h.sdev d).mpr hstate
        rw [if_neg fun hand => hand.2 hstate] at hle
        rw [hwas]
        omega
      · have hnot : s.sdevDel d = false := by
          rw [← Bool.not_eq_true, h.sdev d]
          exact hstate
        rw [if_pos ⟨rfl, hstate⟩] at hle
        rw [hnot]
        show _ + _ + 0 ≤ _ + _ + 1
        omega
    · rw [Function.update_of_ne he]
      rw [if_neg fun hand => he hand.1.symm] at hle
      omega
  · exact h.commands

theorem DelInv.removeDevice (h : DelInv s (p ::ₘ rest)) (d : Nat) (pc : RemoveDevicePc)
    (next : Option RemoveDevicePc → List DelActivity)
    (hreleasing : ∀ o, ((next o).map releasing).sum ≤ p.releasing)
    (hp : ∀ e, p.noticing e = if d = e then pc.notices else 0)
    (hnext : ∀ o e, ((next o).map (noticing e)).sum =
      if d = e then o.elim 0 RemoveDevicePc.notices else 0) :
    DelInv (pc.step s d).1 (next (pc.step s d).2 + rest) := by
  cases pc with
  | lock =>
    rw [RemoveDevicePc.step]
    split
    · apply h.kept (.refl s) (hreleasing none)
      intro e
      rw [hnext]
      simp
    · next hstate =>
      apply h.setDel (hreleasing _)
      intro e
      rw [hnext, hp]
      by_cases he : d = e
      · rw [← he]
        simp [hstate, RemoveDevicePc.notices]
      · simp [he]
  | notify =>
    rw [RemoveDevicePc.step]
    apply h.step
    · exact h.host
    · exact h.sdev
    · show s.hostReleases + ((next none).map releasing).sum + s.hostDel.toNat ≤
        s.hostReleases + p.releasing + s.hostDel.toNat
      have hle := hreleasing none
      omega
    · intro e
      rw [hnext, hp]
      show Function.update s.deadNotices d (s.deadNotices d + 1) e + _ + (s.sdevDel e).toNat ≤
        s.deadNotices e + _ + (s.sdevDel e).toNat
      by_cases he : d = e
      · rw [← he, Function.update_self]
        simp [RemoveDevicePc.notices]
      · rw [Function.update_of_ne (Ne.symm he)]
        simp [he]
    · exact h.commands

theorem putDevice_weights (s : DelState) (d : Nat) :
    (((s.putDevice d).2).map releasing).sum = 0 ∧
      ∀ e, (((s.putDevice d).2).map (noticing e)).sum = 0 := by
  rw [putDevice]
  dsimp only
  split
  · exact ⟨rfl, fun _ => rfl⟩
  · exact ⟨rfl, fun _ => rfl⟩

theorem DelInv.putDevice (h : DelInv s (p ::ₘ rest)) (d : Nat) (qs : List DelActivity)
    (hreleasing : (qs.map releasing).sum ≤ p.releasing)
    (hnoticing : ∀ e, (qs.map (noticing e)).sum ≤ p.noticing e) :
    DelInv (s.putDevice d).1 (↑(qs ++ (s.putDevice d).2) + rest) := by
  obtain ⟨hrel, hnot⟩ := putDevice_weights s d
  apply h.kept (s.putDevice_kept d)
  · rwa [List.map_append, List.sum_append, hrel, add_zero]
  · intro e
    rw [List.map_append, List.sum_append, hnot e, add_zero]
    exact hnoticing e

theorem DelInv.putPrev (h : DelInv s (p ::ₘ rest)) (prev : Option Nat) (qs : List DelActivity)
    (hreleasing : (qs.map releasing).sum ≤ p.releasing)
    (hnoticing : ∀ e, (qs.map (noticing e)).sum ≤ p.noticing e) :
    DelInv (s.putPrev prev).1 (↑(qs ++ (s.putPrev prev).2) + rest) := by
  cases prev with
  | none =>
    rw [DelState.putPrev, List.append_nil]
    exact h.kept (.refl s) hreleasing hnoticing
  | some d => exact h.putDevice d qs hreleasing hnoticing

theorem advance_kept (s : DelState) (t : Nat) (prev : Option Nat) :
    s.Kept (RemoveTargetPc.advance s t prev).1 ∧
      ∀ d, (RemoveTargetPc.advance s t prev).2.notices d = 0 := by
  rw [RemoveTargetPc.advance]
  split
  · exact ⟨s.setRefs_kept _ _, fun _ => rfl⟩
  · exact ⟨.refl s, fun _ => rfl⟩

theorem DelInv.removeTarget {t : Nat} (pc : RemoveTargetPc)
    (h : DelInv s (.removeHost (.target t pc) ::ₘ rest)) :
    DelInv ((DelActivity.removeHost (.target t pc)).step s b).1
      (↑((DelActivity.removeHost (.target t pc)).step s b).2 + rest) := by
  cases pc with
  | lock =>
    by_cases hdel : (s.tree.targets t).state = .del
    · simp only [DelActivity.step, RemoveHostPc.step, RemoveTargetPc.step, if_pos hdel]
      exact h.kept (.refl s) le_rfl fun _ => le_rfl
    · simp only [DelActivity.step, RemoveHostPc.step, RemoveTargetPc.step, if_neg hdel]
      let s₁ : DelState := { s with
        tree := { s.tree with
          targets := Function.update s.tree.targets t
            { s.tree.targets t with state := .del } } }
      -- the mark on the target moves no reference and sends no notice
      have hmark : s.Kept s₁ := ⟨.rfl, fun _ => .rfl, rfl, rfl, rfl, rfl, rfl⟩
      obtain ⟨hkept, hnotices⟩ := advance_kept s₁ t none
      apply h.kept (hmark.trans hkept)
      · exact le_rfl
      · exact fun d => (hnotices d).le
  | putPrev d prev =>
    simp only [DelActivity.step, RemoveHostPc.step, RemoveTargetPc.step]
    refine h.putPrev prev _ le_rfl fun e => ?_
    simp [noticing, RemoveTargetPc.notices, RemoveDevicePc.notices]
  | device d pc =>
    have hstep := h.removeDevice d pc
      (fun o => [.removeHost (.target t (o.elim (.next d) (.device d)))]) (fun _ => le_rfl) ?_ ?_
    · simp only [DelActivity.step, RemoveHostPc.step, RemoveTargetPc.step]
      rcases hpc : pc.step s d with ⟨s', o⟩
      rw [hpc] at hstep
      cases o <;> exact hstep
    · exact fun e => rfl
    · intro o e
      cases o with
      | none => simp [noticing, RemoveTargetPc.notices]
      | some pc => simp [noticing, RemoveTargetPc.notices]
  | next d =>
    obtain ⟨hkept, hnotices⟩ := advance_kept s t (some d)
    simp only [DelActivity.step, RemoveHostPc.step, RemoveTargetPc.step]
    apply h.kept hkept
    · exact le_rfl
    · exact fun e => (hnotices e).le
  | finish prev =>
    simp only [DelActivity.step, RemoveHostPc.step, RemoveTargetPc.step]
    exact h.putPrev prev _ le_rfl fun _ => le_rfl

theorem DelInv.removeHost (pc : RemoveHostPc) (h : DelInv s (.removeHost pc ::ₘ rest)) :
    DelInv ((DelActivity.removeHost pc).step s b).1
      (↑((DelActivity.removeHost pc).step s b).2 + rest) := by
  cases pc with
  | lock =>
    by_cases hdel : s.tree.flags.shostState = .del
    · simp only [DelActivity.step, RemoveHostPc.step, if_pos hdel]
      exact h.kept (.refl s) le_rfl fun _ => le_rfl
    · simp only [DelActivity.step, RemoveHostPc.step, if_neg hdel]
      have hnot : s.hostDel = false := by
        rw [← Bool.not_eq_true, h.host]
        exact hdel
      apply h.step
      · simp [setHost]
      · exact h.sdev
      · rw [hnot]
        simp [setHost, releasing]
      · intro d
        simp [setHost, noticing]
      · exact h.commands
  | forget =>
    simp only [DelActivity.step, RemoveHostPc.step]
    split
    · exact h.kept (.refl s) le_rfl fun _ => le_rfl
    · exact h.kept (.refl s) le_rfl fun _ => le_rfl
  | target t pc => exact h.removeTarget pc
  | deletePaths =>
    exact h.kept (.refl s) le_rfl fun _ => le_rfl
  | release =>
    apply h.step
    · exact h.host
    · exact h.sdev
    · exact le_rfl
    · exact fun d => le_rfl
    · exact h.commands

theorem DelInv.destroyPath (pc : DestroyPathPc) (h : DelInv s (.destroyPath pc ::ₘ rest)) :
    DelInv ((DelActivity.destroyPath pc).step s b).1
      (↑((DelActivity.destroyPath pc).step s b).2 + rest) := by
  cases pc with
  | lookup channel id lun =>
    simp only [DelActivity.step, DestroyPathPc.step]
    apply h.kept (.refl s)
    · cases s.lookup channel id lun <;> exact le_rfl
    · intro d
      cases s.lookup channel id lun <;> exact le_rfl
  | setDel d =>
    simp only [DelActivity.step, DestroyPathPc.step]
    apply h.setDel
    · exact le_rfl
    · exact fun e => Nat.zero_le _
  | deviceDel d =>
    simp only [DelActivity.step, DestroyPathPc.step]
    exact h.putDevice d _ le_rfl fun _ => le_rfl
  | put d =>
    simp only [DelActivity.step, DestroyPathPc.step]
    exact h.putDevice d _ le_rfl fun _ => le_rfl

theorem DelInv.configurePath (pc : ConfigurePathPc) (h : DelInv s (.configurePath pc ::ₘ rest))
    (hguard : ∀ d, pc = .setRunning d → (s.sdev d).sdevState ≠ .del) :
    DelInv ((DelActivity.configurePath pc).step s b).1
      (↑((DelActivity.configurePath pc).step s b).2 + rest) := by
  cases pc with
  | lookup channel id lun =>
    simp only [DelActivity.step, ConfigurePathPc.step]
    split
    · exact h.kept (.refl s) le_rfl fun _ => le_rfl
    · split
      · exact h.kept (.refl s) le_rfl fun _ => le_rfl
      · exact h.kept (s.setRefs_kept _ _) le_rfl fun _ => le_rfl
  | put d =>
    simp only [DelActivity.step, ConfigurePathPc.step]
    exact h.putDevice d _ le_rfl fun _ => le_rfl
  | slaveConfigure d =>
    simp only [DelActivity.step, ConfigurePathPc.step]
    apply h.kept (.refl s)
    · split <;> exact le_rfl
    · intro e
      split <;> exact le_rfl
  | setRunning d =>
    have hrunning : SdevState.running ≠ .del := (by simp)
    simp only [DelActivity.step, ConfigurePathPc.step]
    apply h.kept (setSdev_kept (hguard d rfl) hrunning)
    · exact le_rfl
    · exact fun _ => le_rfl

theorem DelInv.walk {fn : WalkFn} {ts : List Nat} (pc : WalkPc)
    (h : DelInv s (.walk fn ts pc ::ₘ rest))
    (hguard : ∀ d, pc = .apply d → fn ≠ .offline → ts ≠ [] → (s.sdev d).sdevState ≠ .del) :
    DelInv ((DelActivity.walk fn ts pc).step s b).1
      (↑((DelActivity.walk fn ts pc).step s b).2 + rest) := by
  cases ts with
  | nil =>
    exact h.kept (.refl s) le_rfl fun _ => le_rfl
  | cons t ts =>
    cases pc with
    | iterate prev =>
      simp only [DelActivity.step, WalkPc.step]
      generalize (listAfter prev s.tree.deviceList).find? _ = found
      cases found with
      | none =>
        exact h.kept (.refl s) le_rfl fun _ => le_rfl
      | some d =>
        exact h.kept (s.setRefs_kept d _) le_rfl fun _ => le_rfl
    | putPrev d prev =>
      simp only [DelActivity.step, WalkPc.step]
      exact h.putPrev prev [_] le_rfl fun _ => le_rfl
    | apply d =>
      simp only [DelActivity.step, WalkPc.step]
      apply h.kept (apply_kept fn fun hfn => hguard d rfl hfn (List.cons_ne_nil t ts))
      · exact le_rfl
      · exact fun _ => le_rfl
    | finish prev =>
      simp only [DelActivity.step, WalkPc.step]
      exact h.putPrev prev [_] le_rfl fun _ => le_rfl

theorem DelInv.queue (pc : QueuePc) (h : DelInv s (.queue d pc ::ₘ rest)) :
    DelInv ((DelActivity.queue d pc).step s b).1
      (↑((DelActivity.queue d pc).step s b).2 + rest) := by
  simp only [DelActivity.step]
  split
  · exact h.kept (.refl s) le_rfl fun _ => le_rfl
  · next verdict hverdict =>
    have hkept : s.Kept (s.decide d verdict) := by
      cases verdict with
      | issue =>
        -- the driver is called at the lock only, and that shows both states
        have hlocked : queueLocked s.tree.flags.shostState
            { b.view with sdevState := (s.sdev d).sdevState } = .issue := by
          cases pc with
          | getCommand req =>
            simp only [QueuePc.step] at hverdict
            split at hverdict
            · cases hverdict
            split at hverdict
            · cases hverdict
            split at hverdict
            · cases hverdict
            · cases hverdict
          | noCommand =>
            simp only [QueuePc.step] at hverdict
            split at hverdict
            · cases hverdict
            · cases hverdict
          | locked => exact Sum.inr.inj hverdict
        obtain ⟨⟨-, hhost, -⟩, -, ⟨-, -, hsdev, -⟩, -⟩ := queueLocked_issue.mp hlocked
        have hhostDel : s.hostDel = false := by
          rw [← Bool.not_eq_true, h.host]
          exact hhost
        have hsdevDel : s.sdevDel d = false := by
          rw [← Bool.not_eq_true, h.sdev]
          exact hsdev
        refine ⟨.rfl, fun _ => .rfl, rfl, rfl, rfl, rfl, ?_⟩
        show (s.issuedDead || s.hostDel || s.sdevDel d) = s.issuedDead
        rw [hhostDel, hsdevDel, Bool.or_false, Bool.or_false]
      | _ => exact .refl s
    apply h.kept hkept
    · exact Nat.zero_le _
    · exact fun _ => Nat.zero_le _

theorem DelInv.move (h : DelInv s (p ::ₘ rest))
    (hguard : KeepsDeletion (.ok ⟨s, p ::ₘ rest⟩) (.move p b)) :
    DelInv (p.step s b).1 (↑(p.step s b).2 + rest) := by
  cases p with
  | removeHost pc => exact h.removeHost pc
  | taskMgmt pc =>
    have hkept : s.Kept { s with tree := { s.tree with flags := (pc.step s.tree.flags).1 } } := by
      refine ⟨?_, fun _ => .rfl, rfl, rfl, rfl, rfl, rfl⟩
      cases pc with
      | setRecovery => exact iff_of_false nofun hguard
      | setRunning => exact iff_of_false nofun hguard
      | _ => exact .rfl
    simp only [DelActivity.step]
    apply h.kept hkept
    · cases (pc.step s.tree.flags).2 <;> exact le_rfl
    · intro d
      cases (pc.step s.tree.flags).2 <;> exact le_rfl
  | removeDevice d pc =>
    apply h.removeDevice d pc (fun o => o.toList.map (.removeDevice d))
    · intro o
      cases o <;> exact le_rfl
    · exact fun e => rfl
    · intro o e
      cases o with
      | none => simp
      | some pc => simp [noticing]
  | destroyPath pc => exact h.destroyPath pc
  | configurePath pc =>
    apply h.configurePath pc
    rintro d rfl
    exact hguard
  | walk fn ts pc =>
    apply h.walk pc
    rintro d rfl hfn hts
    obtain ⟨t, ts, rfl⟩ := List.exists_cons_of_ne_nil hts
    cases fn with
    | block => exact hguard
    | unblock => exact hguard
    | offline => exact absurd rfl hfn
  | walkLocked fn ts =>
    exact h.kept (s.applyAll_kept fn ts) le_rfl fun _ => le_rfl
  | queue d pc => exact h.queue pc
  | release d =>
    have hkept : s.Kept (s.listDel d) := ⟨.rfl, fun _ => .rfl, rfl, rfl, rfl, rfl, rfl⟩
    exact h.kept hkept le_rfl fun _ => le_rfl

theorem DelInv.needs (h : DelInv s (p ::ₘ rest)) (hfinal : DeletionFinal (p.step s b).1) :
    KeepsDeletion (.ok ⟨s, p ::ₘ rest⟩) (.move p b) := by
  -- a device that was deleted has another state behind the write
  have hback : ∀ {d state}, state ≠ .del → DeletionFinal (s.setSdev d state) →
      (s.sdev d).sdevState ≠ .del := by
    intro d state hstate hfinal hdel
    have hwas := (h.sdev d).mpr hdel
    have hstill := hfinal.sdev d (by simp [setSdev, hwas])
    rw [setSdev_self] at hstill
    exact hstate hstill
  have hrunning : SdevState.running ≠ .del := nofun
  have hblock : SdevState.block ≠ .del := nofun
  cases p with
  | taskMgmt pc =>
    cases pc with
    | setRecovery =>
      intro hdel
      have hstill := hfinal.host (h.host.mpr hdel)
      cases hstill
    | setRunning =>
      intro hdel
      have hstill := hfinal.host (h.host.mpr hdel)
      cases hstill
    | _ => trivial
  | configurePath pc =>
    cases pc with
    | setRunning d => exact hback hrunning hfinal
    | _ => trivial
  | walk fn ts pc =>
    cases ts with
    | nil => cases fn <;> trivial
    | cons t ts =>
      cases pc with
      | apply d =>
        cases fn with
        | block => exact hback hblock hfinal
        | unblock => exact hback hrunning hfinal
        | offline => trivial
      | _ => cases fn <;> trivial
  | _ => trivial

end Invariant

/-! ## Every run -/

def DelState.start (tree : ScsiTree) : DelState where
  tree := tree
  hostDel := tree.flags.shostState = .del
  sdevDel := fun d => (tree.sdevs d).sdevState = .del

theorem delStep_spec {s t : DelPool} {e : PoolEvent DelActivity DelEvent DelAnswer}
    (h : Program.Holds DelInv s) (hstep : DelStep s e t) :
    (KeepsDeletion s e → Program.Holds DelInv t) ∧
      (Program.Holds (fun s _ => DeletionFinal s) t → KeepsDeletion s e) := by
  rcases Program.step_cases hstep with ⟨s, ev, u, ps, rfl, rfl, hbegin, rfl⟩ |
    ⟨s, p, b, rest, o, rfl, rfl, hmove, rfl⟩
  · refine ⟨fun _ => ?_, fun _ => trivial⟩
    obtain ⟨hhost, hsdev, hreleased, hnotified, hcommands⟩ := (h : DelInv s.shared s.active)
    have hev : (u, ps) = (s.shared, [ev.begins]) := by
      simp only [delProgram] at hbegin
      split at hbegin
      · cases hbegin
      · exact (Option.some.inj hbegin).symm
    cases hev
    have hnew : ev.begins.releasing = 0 ∧ ∀ d, ev.begins.noticing d = 0 := by
      cases ev with
      | removeDevice e =>
        refine ⟨rfl, fun d => ?_⟩
        simp [DelEvent.begins, noticing, RemoveDevicePc.notices]
      | _ => exact ⟨rfl, fun _ => rfl⟩
    refine ⟨hhost, hsdev, ?_, ?_, hcommands⟩
    · rw [total_add, total_coe, List.map_singleton, List.sum_singleton, hnew.1, zero_add]
      exact hreleased
    · intro d
      rw [total_add, total_coe, List.map_singleton, List.sum_singleton, hnew.2, zero_add]
      exact hnotified d
  · cases hmove
    have hinv : DelInv s (p ::ₘ rest) := h
    exact ⟨hinv.move, hinv.needs⟩

/-- **Deletion.** Along a run of calls on one host a deletion is final, and what follows from it
    holds, just if every write without a test finds the host or the device alive. -/
theorem deletion_final_iff {tree : ScsiTree} {s : DelPool}
    {es : List (PoolEvent DelActivity DelEvent DelAnswer)}
    (hrun : Run DelStep (.ok ⟨.start tree, 0⟩) es s) :
    Always DelStep (Program.Holds fun s _ => DeletionFinal s) (.ok ⟨.start tree, 0⟩) es ↔
      Run (Guarded DelStep KeepsDeletion) (.ok ⟨.start tree, 0⟩) es s := by
  have hinit : DelInv (.start tree) 0 :=
    ⟨decide_eq_true_iff, fun _ => decide_eq_true_iff, Nat.zero_le _, fun _ => Nat.zero_le _, rfl⟩
  apply always_iff_guarded (I := Program.Holds DelInv) _ _ _ hrun hinit
  · intro s e t t' ht ht'
    exact ht.unique ht'
  · intro s hinv
    cases s with
    | error fault => exact hinv
    | ok s => exact DelInv.deletionFinal hinv
  · intro s e t hinv hstep
    exact delStep_spec hinv hstep

def twoLuns : ScsiTree where
  targets := fun _ => { channel := 0, id := 3, devices := [0, 1] }
  sdevs := fun d => { channel := 0, id := 3, lun := d, sdevState := .running }
  targetList := [0]
  deviceList := [0, 1]

/-- A path is configured and its target blocked, and then the host is removed while a command for
    the other device comes. -/
def removalRun : List (PoolEvent DelActivity DelEvent DelAnswer) :=
  [.begin (.configurePath 0 3 0), .move (.configurePath (.lookup 0 3 0)) {},
    .move (.configurePath (.put 0)) {}, .move (.configurePath (.slaveConfigure 0)) {},
    .move (.configurePath (.setRunning 0)) {}, .begin (.targetLocked .block [0]),
    .move (.walkLocked .block [0]) {}, .begin .removeHost, .move (.removeHost .lock) {},
    .move (.removeHost .forget) {}, .move (.removeHost (.target 0 .lock)) {},
    .move (.removeHost (.target 0 (.putPrev 0 none))) {},
    .move (.removeHost (.target 0 (.device 0 .lock))) {},
    .begin (.queueCommand 1 {}), .move (.queue 1 (.getCommand {})) {},
    .move (.queue 1 .noCommand) {}, .move (.removeHost (.target 0 (.device 0 .notify))) {},
    .move (.removeHost (.target 0 (.next 0))) {},
    .move (.removeHost (.target 0 (.putPrev 1 (some 0)))) {}]

theorem deletion_final_removalRun :
    Always DelStep (Program.Holds fun s _ => DeletionFinal s) (.ok ⟨.start twoLuns, 0⟩)
      removalRun := by
  have hexec : ∃ s, Run.exec
      (fun s e => if KeepsDeletion s e then delProgram.next? s e else none)
      (.ok ⟨.start twoLuns, 0⟩) removalRun = some s := ⟨_, rfl⟩
  obtain ⟨s, hs⟩ := hexec
  have hsound : ∀ s e t, (if KeepsDeletion s e then delProgram.next? s e else none) = some t →
      Guarded DelStep KeepsDeletion s e t := by
    intro s e t h
    exact (guarded_eq_some_iff (T := DelStep) (fun _ _ _ => Iff.rfl) s e t).mp h
  have hguarded := Run.of_exec hsound hs
  exact (deletion_final_iff (hguarded.mono fun _ _ _ h => h.2)).mpr hguarded

/-- A reset that was in the driver when the host was removed sets it running: a second removal
    releases it again.  And a path is destroyed between the two critical sections of its
    configuration, or of a block of its target: the device comes back, and gets commands. -/
theorem deletion_undone :
    (∃ s, Run DelStep (.ok ⟨.start { twoLuns with targetList := [], deviceList := [] }, 0⟩)
        [.begin .taskMgmt, .move (.taskMgmt .inc) {}, .move (.taskMgmt .setRecovery) {},
          .begin .removeHost, .move (.removeHost .lock) {}, .move (.removeHost .forget) {},
          .move (.removeHost .deletePaths) {}, .move (.removeHost .release) {},
          .move (.taskMgmt .resetCommand) {}, .move (.taskMgmt .dec) {},
          .move (.taskMgmt .setRunning) {}, .begin .removeHost, .move (.removeHost .lock) {},
          .move (.removeHost .forget) {}, .move (.removeHost .deletePaths) {},
          .move (.removeHost .release) {}] (.ok s) ∧
      s.shared.hostReleases = 2 ∧ ¬DeletionFinal s.shared) ∧
    (∃ s, Run DelStep (.ok ⟨.start twoLuns, 0⟩)
        [.begin (.configurePath 0 3 0), .move (.configurePath (.lookup 0 3 0)) {},
          .move (.configurePath (.put 0)) {}, .begin (.destroyPath 0 3 0),
          .move (.destroyPath (.lookup 0 3 0)) {}, .move (.destroyPath (.setDel 0)) {},
          .move (.configurePath (.slaveConfigure 0)) {},
          .move (.configurePath (.setRunning 0)) {}, .begin (.queueCommand 0 {}),
          .move (.queue 0 (.getCommand {})) {}, .move (.queue 0 .locked) {}] (.ok s) ∧
      s.shared.sdevDel 0 = true ∧ (s.shared.sdev 0).sdevState = .running ∧
      s.shared.issuedDead = true ∧ ¬DeletionFinal s.shared) ∧
    ∃ s, Run DelStep (.ok ⟨.start twoLuns, 0⟩)
        [.begin (.target .block [0]), .move (.walk .block [0] (.iterate none)) {},
          .move (.walk .block [0] (.putPrev 0 none)) {}, .begin (.destroyPath 0 3 0),
          .move (.destroyPath (.lookup 0 3 0)) {}, .move (.destroyPath (.setDel 0)) {},
          .move (.walk .block [0] (.apply 0)) {}] (.ok s) ∧
      s.shared.sdevDel 0 = true ∧ (s.shared.sdev 0).sdevState = .block ∧
      ¬DeletionFinal s.shared := by
  refine ⟨⟨_, Run.of_exec (f := delProgram.next?) (fun _ _ _ h => h) rfl, rfl, ?_⟩,
    ⟨_, Run.of_exec (f := delProgram.next?) (fun _ _ _ h => h) rfl, rfl, rfl, rfl, ?_⟩,
    ⟨_, Run.of_exec (f := delProgram.next?) (fun _ _ _ h => h) rfl, rfl, rfl, ?_⟩⟩
  · intro hfinal
    have htwo : 2 ≤ 1 := hfinal.released
    omega
  · intro hfinal
    have hissued := hfinal.commands
    cases hissued
  · intro hfinal
    have hstill := hfinal.sdev 0 rfl
    cases hstill

end VmkDrivers.Vmklinux
