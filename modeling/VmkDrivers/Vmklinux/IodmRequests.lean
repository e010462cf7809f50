/-
  VmkDrivers.Vmklinux.IodmRequests

  Requests for the phys of a SAS host and for the list of adapters
  (`linux_iodm.c`).

  The buffer of a request is copied in from the user and back again.
  `collect_sas_phy_stats` adds the counters of each phy to what the user put there;
  `sas_phy_reset` is called without data, but shares the guard of the callbacks that
  have some; `iodmGetDevices` writes an entry for each adapter that there is; and a
  request whose number is not that of its buffer is dropped with `VMK_OK`
  (`request_right_iff`).

  The other transports and commands are a parameter.
-/

import Mathlib

namespace VmkDrivers.Vmklinux

/-! ## Phys and hosts -/

/-- The counters of `iodm_sas_stats_t`, which `struct sas_phy` has too. -/
inductive SasCounter where
  | invalidDwordCount
  | runningDisparityErrorCount
  | lossOfDwordSyncCount
  | phyResetProblemCount
deriving DecidableEq, Repr

abbrev IodmSasStats := SasCounter → UInt32

structure SasPhy where
  number : Int
  count : IodmSasStats

/-- `struct sas_function_template`; the functions return an error, or 0. -/
structure SasFunctionTemplate where
  /-- It refreshes the counters. -/
  getLinkerrors : Option (SasPhy → Int × SasPhy) := none
  phyReset : Option (SasPhy → Int) := none

/-- A child of `shost_gendev`. -/
inductive HostChild where
  | sasPhy (phy : SasPhy)
  | other

def HostChild.phy? : HostChild → Option SasPhy
  | .sasPhy phy => some phy
  | .other => none

/-- An entry of `linuxSCSIAdapterList`. -/
structure IodmHost where
  vmhbaName : List UInt8
  driverName : List UInt8 := []
  xportFlags : UInt64
  /-- `transportt->module` is not NULL. -/
  module : Bool := true
  f : Option SasFunctionTemplate := none
  children : List HostChild := []

/-- `VMKLNX_SCSI_TRANSPORT_TYPE_*` -/
def xportSas : UInt64 := 0x2

def xportFc : UInt64 := 0x4

def xportIscsi : UInt64 := 0x8

def xportFcoe : UInt64 := 0x100

def isSupportedXportType (flag : UInt64) : Prop := flag &&& (xportSas ||| xportFc ||| xportFcoe) ≠ 0

instance (flag : UInt64) : Decidable (isSupportedXportType flag) := instDecidableNot

/-- `IODM_TRANSPORT_TYPE_*` -/
def iodmXportType (flag : UInt64) : UInt32 :=
  if flag = xportSas then 8
  else if flag = xportFc then 1
  else if flag = xportFcoe then 2
  else if flag = xportIscsi then 4
  else 0

/-! ## Buffers -/

def maxIodmNamelen : Nat := 32

def maxIodmDevices : Nat := 32

/-- `IODM_IOCTL_*` -/
def iodmIoctlGetIodmdevs : UInt32 := 0x1

def iodmIoctlGetHostStats : UInt32 := 0x4

def iodmIoctlIssueReset : UInt32 := 0x10

structure IodmName where
  vmhbaName : List UInt8 := []
  driverName : List UInt8 := []
  transport : UInt32 := 0
deriving DecidableEq, Repr

/-- `struct iodm_list`; what is behind the entries of `dev_name` is other memory. -/
structure IodmList where
  count : UInt8 := 0
  devName : Nat → IodmName := fun _ => {}

/-- `struct iodm_ioc`, with `data` as the command sees it. -/
structure IodmIoc where
  cmd : UInt32
  status : UInt32 := 0
  len : UInt32 := 0
  vmhbaName : List UInt8 := []
  stats : IodmSasStats := fun _ => 0
  list : IodmList := {}

inductive IodmStatus where
  | ok
  | noMemory
  | invalidAddress
  | invalidName
  | notFound
  | notSupported
  | invalidHandle
  | execFailure
deriving DecidableEq, Repr

/-- What `iodmCharOpsIoctl` returns and leaves in the user's buffer; the phys that `phy_reset`
    was called with; and the entries of `dev_name` that were written. -/
structure IodmReply where
  status : IodmStatus
  user : IodmIoc
  reset : List SasPhy := []
  written : List Nat := []

/-! ## The functions -/

def deviceForEachChild {α σ : Type} (fn : α → σ → Int × σ) : List α → σ → Int × σ
  | [], s => (0, s)
  | child :: rest, s =>
    if (fn child s).1 ≠ 0 then fn child s else deviceForEachChild fn rest (fn child s).2

def enosys : Int := -38

def SasFunctionTemplate.linkerrors (ft : SasFunctionTemplate) (phy : SasPhy) : Int × SasPhy :=
  match ft.getLinkerrors with
  | some getLinkerrors => getLinkerrors phy
  | none => (0, phy)

/-- `collect_sas_phy_stats`; `none` is NULL. -/
def collectSasPhyStats (f : Option SasFunctionTemplate) (child : HostChild)
    (data : Option IodmSasStats) : Int × Option IodmSasStats :=
  match f, child, data with
  | none, _, _ => (enosys, data)
  | some ft, .sasPhy phy, some stats =>
    let (error, phy) := ft.linkerrors phy
    if error ≠ 0 then (error, data) else (0, some fun c => stats c + phy.count c)
  | some _, _, _ => (0, data)

/-- `sas_phy_reset`, with the phys that were reset before. -/
def sasPhyReset (f : Option SasFunctionTemplate) (data : Option IodmSasStats) (child : HostChild)
    (reset : List SasPhy) : Int × List SasPhy :=
  match f, child, data with
  | none, _, _ => (enosys, reset)
  | some ft, .sasPhy phy, some _ =>
    match ft.phyReset with
    | some phyReset => (phyReset phy, reset ++ [phy])
    | none => (0, reset)
  | some _, _, _ => (0, reset)

/-- `iodmSasTransport` for the two commands. -/
def iodmSasTransport (ioc : IodmIoc) (sh : IodmHost) : IodmReply :=
  if sh.module = false then ⟨.invalidHandle, ioc, [], []⟩
  else
    let ioc := { ioc with status := 8 }
    if ioc.cmd = iodmIoctlGetHostStats then
      let (ret, data) := deviceForEachChild (collectSasPhyStats sh.f) sh.children (some ioc.stats)
      if ret ≠ 0 then ⟨.execFailure, ioc, [], []⟩
      else ⟨.ok, { ioc with stats := data.getD ioc.stats, len := 16 }, [], []⟩
    else
      let (ret, reset) := deviceForEachChild (sasPhyReset sh.f none) sh.children []
      if ret ≠ 0 then ⟨.execFailure, ioc, reset, []⟩ else ⟨.ok, ioc, reset, []⟩

/-- `list`, `count` and the entries written so far. -/
structure DeviceScan where
  list : IodmList
  count : Nat := 0
  written : List Nat := []

/-- The body of the loop of `iodmGetDevices`. -/
def iodmGetDevice (scan : DeviceScan) (hba : IodmHost) : DeviceScan :=
  if isSupportedXportType hba.xportFlags then
    { list :=
        { scan.list with
          devName := Function.update scan.list.devName scan.count
            { vmhbaName := hba.vmhbaName.take maxIodmNamelen
              driverName := hba.driverName.take maxIodmNamelen
              transport := iodmXportType hba.xportFlags } }
      count := scan.count + 1
      written := scan.written ++ [scan.count] }
  else scan

/-- `iodmGetDevices`; `list->count` is a `char`. -/
def iodmGetDevices (adapters : List IodmHost) (ioc : IodmIoc) : IodmReply :=
  let scan := adapters.foldl iodmGetDevice { list := ioc.list }
  ⟨.ok, { ioc with list := { scan.list with count := UInt8.ofNat scan.count } }, [], scan.written⟩

structure IodmWorld where
  adapters : List IodmHost
  kzalloc : Bool := true
  copyFromUser : Bool := true
  copyToUser : Bool := true
  /-- The other transports and commands. -/
  other : IodmIoc → IodmHost → IodmReply

namespace IodmWorld

variable (w : IodmWorld)

def getShostByVmhbaName (vmhbaName : List UInt8) : Option IodmHost :=
  w.adapters.find? fun hba =>
    decide (vmhbaName.take maxIodmNamelen = hba.vmhbaName.take maxIodmNamelen)

def done (user : IodmIoc) (r : IodmReply) : IodmReply :=
  if w.copyToUser then r else { r with status := .invalidAddress, user := user }

def iodmCharOpsIoctl (cmd : UInt32) (user : IodmIoc) : IodmReply :=
  if w.kzalloc = false then ⟨.noMemory, user, [], []⟩
  else if w.copyFromUser = false then ⟨.invalidAddress, user, [], []⟩
  -- `status` is that of the copy
  else if cmd ≠ user.cmd then ⟨.ok, user, [], []⟩
  else if user.cmd = iodmIoctlGetIodmdevs then w.done user (iodmGetDevices w.adapters user)
  else if user.vmhbaName = [] then ⟨.invalidName, user, [], []⟩
  else
    match w.getShostByVmhbaName user.vmhbaName with
    | none => ⟨.notFound, user, [], []⟩
    | some sh =>
      if user.cmd = iodmIoctlGetHostStats ∨ user.cmd = iodmIoctlIssueReset then
        if sh.xportFlags = xportSas then
          let r := iodmSasTransport user sh
          if r.status ≠ .ok then { r with user := user } else w.done user r
        else w.other user sh
      else w.other user sh

end IodmWorld

/-! ## What is promised -/

namespace IodmHost

variable (sh : IodmHost)

def phys : List SasPhy := sh.children.filterMap HostChild.phy?

def refresh (phy : SasPhy) : SasPhy :=
  match sh.f with
  | some ft => (ft.linkerrors phy).2
  | none => phy

def total (c : SasCounter) : Nat := (sh.phys.map fun phy => ((sh.refresh phy).count c).toNat).sum

def Answers : Prop :=
  ∀ child ∈ sh.children, ∃ ft, sh.f = some ft ∧
    ∀ phy, child.phy? = some phy → (ft.linkerrors phy).1 = 0

def phyReset? : Option (SasPhy → Int) := sh.f.bind (·.phyReset)

end IodmHost

def untilFailed (phyReset : SasPhy → Int) : List SasPhy → List SasPhy
  | [] => []
  | phy :: phys => if phyReset phy ≠ 0 then [phy] else phy :: untilFailed phyReset phys

namespace IodmWorld

variable (w : IodmWorld)

structure Names (user : IodmIoc) (sh : IodmHost) : Prop where
  name : user.vmhbaName ≠ []
  found : w.getShostByVmhbaName user.vmhbaName = some sh
  sas : sh.xportFlags = xportSas

def Taken : Prop := w.kzalloc = true ∧ w.copyFromUser = true

/-- `IODM_IOCTL_GET_HOST_STATS` returns the sums over all phys. -/
def StatsRight (user : IodmIoc) (sh : IodmHost) : Prop :=
  (w.iodmCharOpsIoctl iodmIoctlGetHostStats user).status = .ok → ∀ c,
    ((w.iodmCharOpsIoctl iodmIoctlGetHostStats user).user.stats c).toNat = sh.total c % 2 ^ 32

/-- `IODM_IOCTL_ISSUE_RESET` resets all phys. -/
structure ResetRight (user : IodmIoc) (sh : IodmHost) : Prop where
  success : (w.iodmCharOpsIoctl iodmIoctlIssueReset user).status = .ok →
    (w.iodmCharOpsIoctl iodmIoctlIssueReset user).reset = sh.phys ∧
      ∀ phy ∈ sh.phys, sh.phyReset?.map (fun phyReset => phyReset phy) = some 0
  calls : w.Taken → user.cmd = iodmIoctlIssueReset → sh.module = true →
    ∀ phyReset, sh.phyReset? = some phyReset →
      (w.iodmCharOpsIoctl iodmIoctlIssueReset user).reset = untilFailed phyReset sh.phys

/-- `IODM_IOCTL_GET_IODMDEVS` stays in `dev_name` and counts what it writes. -/
structure DevicesRight (user : IodmIoc) : Prop where
  inside : ∀ i ∈ (w.iodmCharOpsIoctl iodmIoctlGetIodmdevs user).written, i < maxIodmDevices
  count : (w.iodmCharOpsIoctl iodmIoctlGetIodmdevs user).status = .ok →
    (w.iodmCharOpsIoctl iodmIoctlGetIodmdevs user).user.list.count.toNat =
      (w.iodmCharOpsIoctl iodmIoctlGetIodmdevs user).written.length

structure RequestRight (cmd : UInt32) (user : IodmIoc) : Prop where
  stats : cmd = iodmIoctlGetHostStats → ∀ sh, w.Names user sh → w.StatsRight user sh
  reset : cmd = iodmIoctlIssueReset → ∀ sh, w.Names user sh → w.ResetRight user sh
  devices : cmd = iodmIoctlGetIodmdevs → w.DevicesRight user

/-! ## When it is kept -/

/-- The buffer has zero for the sums, or what it has instead is them where the request is dropped
    for another number in the buffer. -/
def StatsFits (user : IodmIoc) (sh : IodmHost) : Prop :=
  w.Taken →
    if user.cmd = iodmIoctlGetHostStats then
      w.copyToUser = true → sh.module = true → sh.Answers → ∀ c, user.stats c = 0
    else ∀ c, (user.stats c).toNat = sh.total c % 2 ^ 32

def ResetFits (user : IodmIoc) (sh : IodmHost) : Prop :=
  w.Taken → sh.phys ≠ [] → user.cmd = iodmIoctlIssueReset ∧
    (sh.module = false ∨ sh.f = none ∨ sh.phyReset? = none ∧ w.copyToUser = false)

/-- The adapters fit, or the count in the buffer is 0 where the request is dropped. -/
def DevicesFit (user : IodmIoc) : Prop :=
  w.Taken →
    if user.cmd = iodmIoctlGetIodmdevs then
      (w.adapters.filter fun hba => isSupportedXportType hba.xportFlags).length ≤ maxIodmDevices
    else user.list.count = 0

structure RequestFits (cmd : UInt32) (user : IodmIoc) : Prop where
  stats : cmd = iodmIoctlGetHostStats → ∀ sh, w.Names user sh → w.StatsFits user sh
  reset : cmd = iodmIoctlIssueReset → ∀ sh, w.Names user sh → w.ResetFits user sh
  devices : cmd = iodmIoctlGetIodmdevs → w.DevicesFit user

end IodmWorld

/-! ## The callbacks -/

variable {w : IodmWorld} {user : IodmIoc} {sh : IodmHost}

theorem deviceForEachChild_cons {α σ : Type} (fn : α → σ → Int × σ) (child : α) (rest : List α)
    (s : σ) :
    deviceForEachChild fn (child :: rest) s =
      if (fn child s).1 ≠ 0 then fn child s else deviceForEachChild fn rest (fn child s).2 :=
  rfl

theorem enosys_ne_zero : enosys ≠ 0 := by decide

theorem deviceForEachChild_cons_ok {α σ : Type} {fn : α → σ → Int × σ} {child : α} {rest : List α}
    {s t : σ} (hfn : fn child s = (0, t)) :
    deviceForEachChild fn (child :: rest) s = deviceForEachChild fn rest t := by
  rw [deviceForEachChild_cons, hfn, if_neg (not_not_intro rfl)]

theorem deviceForEachChild_cons_error {α σ : Type} {fn : α → σ → Int × σ} {child : α}
    {rest : List α} {s t : σ} {error : Int} (hfn : fn child s = (error, t)) (herror : error ≠ 0) :
    deviceForEachChild fn (child :: rest) s = (error, t) := by
  rw [deviceForEachChild_cons, hfn, if_pos herror]

theorem collect_spec (sh : IodmHost) (children : List HostChild) (stats : IodmSasStats) :
    ((deviceForEachChild (collectSasPhyStats sh.f) children (some stats)).1 = 0 ↔
        ∀ child ∈ children, ∃ ft, sh.f = some ft ∧
          ∀ phy, child.phy? = some phy → (ft.linkerrors phy).1 = 0) ∧
      ((deviceForEachChild (collectSasPhyStats sh.f) children (some stats)).1 = 0 →
        ∃ data, (deviceForEachChild (collectSasPhyStats sh.f) children (some stats)).2 = some data ∧
          ∀ c, (data c).toNat = ((stats c).toNat + ((children.filterMap HostChild.phy?).map
            fun phy => ((sh.refresh phy).count c).toNat).sum) % 2 ^ 32) := by
  -- the counts so far are the loop's, and a child without a phy adds none
  induction children generalizing stats with
  | nil =>
    refine ⟨iff_of_true rfl nofun, fun _ => ⟨stats, rfl, fun c => ?_⟩⟩
    exact (Nat.mod_eq_of_lt (stats c).toNat_lt).symm
  | cons child rest ih =>
    simp only [List.forall_mem_cons]
    cases hf : sh.f with
    | none =>
      -- the first child is enough: the loop ends with its error
      have hfn : collectSasPhyStats none child (some stats) = (enosys, some stats) := rfl
      rw [deviceForEachChild_cons_error hfn enosys_ne_zero]
      exact ⟨iff_of_false enosys_ne_zero nofun, fun h => absurd h enosys_ne_zero⟩
    | some ft =>
      rw [hf] at ih
      cases child with
      | other =>
        have hfn : collectSasPhyStats (some ft) .other (some stats) = (0, some stats) := rfl
        rw [deviceForEachChild_cons_ok hfn]
        obtain ⟨hret, hdata⟩ := ih stats
        refine ⟨hret.trans ⟨fun h => ⟨⟨ft, rfl, nofun⟩, h⟩, fun h => h.2⟩, hdata⟩
      | sasPhy phy =>
        by_cases herror : (ft.linkerrors phy).1 = 0
        · have hfn : collectSasPhyStats (some ft) (.sasPhy phy) (some stats) =
              (0, some fun c => stats c + (ft.linkerrors phy).2.count c) := by
            simp [collectSasPhyStats, herror]
          rw [deviceForEachChild_cons_ok hfn]
          obtain ⟨hret, hdata⟩ := ih fun c => stats c + (ft.linkerrors phy).2.count c
          constructor
          · refine hret.trans ⟨fun h => ⟨⟨ft, rfl, fun phy' hphy => ?_⟩, h⟩, fun h => h.2⟩
            rw [← Option.some.inj hphy]
            exact herror
          · intro hzero
            obtain ⟨data, hsome, hsum⟩ := hdata hzero
            refine ⟨data, hsome, fun c => ?_⟩
            have hrefresh : sh.refresh phy = (ft.linkerrors phy).2 := by
              rw [IodmHost.refresh, hf]
            have hphys : (HostChild.sasPhy phy :: rest).filterMap HostChild.phy? =
                phy :: rest.filterMap HostChild.phy? := rfl
            -- the sum wraps with each phy, and once is the same
            rw [hsum c, UInt32.toNat_add, Nat.mod_add_mod, hphys, List.map_cons,
              List.sum_cons, hrefresh, Nat.add_assoc]
        -- a phy that does not answer ends the loop
        · have hfn : collectSasPhyStats (some ft) (.sasPhy phy) (some stats) =
              ((ft.linkerrors phy).1, some stats) := by
            simp [collectSasPhyStats, herror]
          rw [deviceForEachChild_cons_error hfn herror]
          refine ⟨iff_of_false herror fun h => ?_, fun h => absurd h herror⟩
          obtain ⟨⟨ft', hft, hall⟩, -⟩ := h
          cases hft
          exact herror (hall phy rfl)

theorem reset_spec (children : List HostChild) (reset : List SasPhy) :
    deviceForEachChild (sasPhyReset sh.f none) children reset =
      (if sh.f = none ∧ children ≠ [] then enosys else 0, reset) := by
  -- without data, which the caller does not give, `sasPhyReset` resets nothing
  induction children with
  | nil => simp [deviceForEachChild]
  | cons child rest ih =>
    cases hf : sh.f with
    | none =>
      have hfn : sasPhyReset none none child reset = (enosys, reset) := rfl
      rw [deviceForEachChild_cons_error hfn enosys_ne_zero]
      simp
    | some ft =>
      have hfn : sasPhyReset (some ft) none child reset = (0, reset) := by cases child <;> rfl
      rw [hf] at ih
      rw [deviceForEachChild_cons_ok hfn, ih]
      simp

theorem getDevices_spec (adapters : List IodmHost) (scan : DeviceScan) :
    (adapters.foldl iodmGetDevice scan).count = scan.count +
        (adapters.filter fun hba => isSupportedXportType hba.xportFlags).length ∧
      (adapters.foldl iodmGetDevice scan).written = scan.written ++ List.range' scan.count
        (adapters.filter fun hba => isSupportedXportType hba.xportFlags).length := by
  -- entries are written one behind the other, whatever the size of the list
  induction adapters generalizing scan with
  | nil => simp
  | cons hba rest ih =>
    obtain ⟨hcount, hwritten⟩ := ih (iodmGetDevice scan hba)
    rw [List.foldl_cons, hcount, hwritten, List.filter_cons, iodmGetDevice]
    by_cases hxport : isSupportedXportType hba.xportFlags
    · rw [if_pos hxport, if_pos (by simpa using hxport), List.length_cons, List.range'_succ]
      refine ⟨by dsimp only; omega, ?_⟩
      rw [List.append_assoc, List.singleton_append]
    · rw [if_neg hxport, if_neg (by simpa using hxport)]
      exact ⟨rfl, rfl⟩

/-! ## The requests -/

theorem ioctl_not_taken (user : IodmIoc) (cmd : UInt32) (h : ¬w.Taken) :
    (w.iodmCharOpsIoctl cmd user).status ≠ .ok ∧ (w.iodmCharOpsIoctl cmd user).reset = [] ∧
      (w.iodmCharOpsIoctl cmd user).written = [] := by
  rw [IodmWorld.iodmCharOpsIoctl]
  cases hkzalloc : w.kzalloc with
  | false => exact ⟨nofun, rfl, rfl⟩
  | true =>
    cases hcopy : w.copyFromUser with
    | false => exact ⟨nofun, rfl, rfl⟩
    | true => exact absurd ⟨hkzalloc, hcopy⟩ h

theorem ioctl_dropped {cmd : UInt32} (h : w.Taken) (hcmd : cmd ≠ user.cmd) :
    w.iodmCharOpsIoctl cmd user = ⟨.ok, user, [], []⟩ := by
  rw [IodmWorld.iodmCharOpsIoctl, if_neg (by simp [h.1]), if_neg (by simp [h.2]), if_pos hcmd]

theorem ioctl_devices (h : w.Taken) (hcmd : user.cmd = iodmIoctlGetIodmdevs) :
    w.iodmCharOpsIoctl iodmIoctlGetIodmdevs user =
      w.done user (iodmGetDevices w.adapters user) := by
  rw [IodmWorld.iodmCharOpsIoctl, if_neg (by simp [h.1]), if_neg (by simp [h.2]),
    if_neg (not_not_intro hcmd.symm), if_pos hcmd]

theorem ioctl_sas {cmd : UInt32} (h : w.Taken) (hname : w.Names user sh) (hcmd : user.cmd = cmd)
    (hsas : cmd = iodmIoctlGetHostStats ∨ cmd = iodmIoctlIssueReset) :
    ((w.iodmCharOpsIoctl cmd user).status = .ok ↔
        (iodmSasTransport user sh).status = .ok ∧ w.copyToUser = true) ∧
      ((w.iodmCharOpsIoctl cmd user).status = .ok →
        (w.iodmCharOpsIoctl cmd user).user = (iodmSasTransport user sh).user) ∧
      (w.iodmCharOpsIoctl cmd user).reset = (iodmSasTransport user sh).reset := by
  have hdevs : user.cmd ≠ iodmIoctlGetIodmdevs := by
    rw [hcmd]
    rcases hsas with rfl | rfl <;> decide
  -- the checks one after the other, up to the transport
  rw [IodmWorld.iodmCharOpsIoctl, if_neg (by simp [h.1]), if_neg (by simp [h.2]),
    if_neg (not_not_intro hcmd.symm), if_neg hdevs, if_neg hname.name, hname.found]
  dsimp only
  rw [if_pos (hcmd ▸ hsas), if_pos hname.sas]
  by_cases hok : (iodmSasTransport user sh).status = .ok
  · rw [if_neg (not_not_intro hok), IodmWorld.done]
    cases hcopy : w.copyToUser with
    | true => simp [hok]
    | false => simp
  · rw [if_pos hok]
    exact ⟨iff_of_false hok fun h => hok h.1, fun h => absurd h hok, rfl⟩

theorem sasTransport_stats (sh : IodmHost) (hcmd : user.cmd = iodmIoctlGetHostStats) :
    ((iodmSasTransport user sh).status = .ok ↔ sh.module = true ∧ sh.Answers) ∧
      ((iodmSasTransport user sh).status = .ok → ∀ c,
        ((iodmSasTransport user sh).user.stats c).toNat =
          ((user.stats c).toNat + sh.total c) % 2 ^ 32) := by
  rw [iodmSasTransport]
  cases hmodule : sh.module with
  | false => simp
  | true =>
    obtain ⟨hret, hdata⟩ := collect_spec sh sh.children user.stats
    rw [if_neg (by decide)]
    dsimp only
    rw [if_pos hcmd]
    by_cases hzero :
        (deviceForEachChild (collectSasPhyStats sh.f) sh.children (some user.stats)).1 = 0
    · rw [if_neg (not_not_intro hzero)]
      obtain ⟨data, hsome, hsum⟩ := hdata hzero
      refine ⟨iff_of_true rfl ⟨rfl, hret.mp hzero⟩, fun _ c => ?_⟩
      rw [hsome, Option.getD_some]
      exact hsum c
    · rw [if_pos hzero]
      exact ⟨iff_of_false nofun fun h => hzero (hret.mpr h.2), nofun⟩

theorem sasTransport_reset (sh : IodmHost) (hcmd : user.cmd = iodmIoctlIssueReset) :
    ((iodmSasTransport user sh).status = .ok ↔
        sh.module = true ∧ (sh.f = none → sh.children = [])) ∧
      (iodmSasTransport user sh).reset = [] := by
  have hstats : user.cmd ≠ iodmIoctlGetHostStats := by
    rw [hcmd]
    decide
  rw [iodmSasTransport]
  cases hmodule : sh.module with
  | false => simp
  | true =>
    rw [if_neg (by decide)]
    dsimp only
    rw [if_neg hstats, reset_spec]
    by_cases hnone : sh.f = none ∧ sh.children ≠ []
    · rw [if_pos hnone, if_pos enosys_ne_zero]
      exact ⟨iff_of_false nofun fun h => hnone.2 (h.2 hnone.1), rfl⟩
    · rw [if_neg hnone, if_neg (not_not_intro rfl)]
      exact ⟨iff_of_true rfl ⟨rfl, fun hf => not_not.mp fun hne => hnone ⟨hf, hne⟩⟩, rfl⟩

/-! ## The three commands -/

theorem stats_iff (hname : w.Names user sh) : w.StatsRight user sh ↔ w.StatsFits user sh := by
  unfold IodmWorld.StatsRight IodmWorld.StatsFits
  by_cases htaken : w.Taken
  · simp only [htaken, true_imp_iff]
    by_cases hcmd : user.cmd = iodmIoctlGetHostStats
    · rw [if_pos hcmd]
      obtain ⟨hstatus, huser, -⟩ := ioctl_sas htaken hname hcmd (.inl rfl)
      obtain ⟨hok, hsum⟩ := sasTransport_stats sh hcmd
      -- the counters were added to what the caller had sent
      have hzero (c : SasCounter) :
          ((user.stats c).toNat + sh.total c) % 2 ^ 32 = sh.total c % 2 ^ 32 ↔
            user.stats c = 0 := by
        have hlt := (user.stats c).toNat_lt
        rw [← UInt32.toNat_inj, UInt32.toNat_zero]
        omega
      constructor
      · intro h hcopy hmodule hanswers c
        have hsas := hok.mpr ⟨hmodule, hanswers⟩
        have hdone := hstatus.mpr ⟨hsas, hcopy⟩
        have hright := h hdone c
        rw [huser hdone, hsum hsas c] at hright
        exact (hzero c).mp hright
      · intro h hdone c
        obtain ⟨hsas, hcopy⟩ := hstatus.mp hdone
        obtain ⟨hmodule, hanswers⟩ := hok.mp hsas
        rw [huser hdone, hsum hsas c]
        exact (hzero c).mpr (h hcopy hmodule hanswers c)
    -- the command of the structure is another: nothing is done
    · rw [if_neg hcmd, ioctl_dropped htaken (Ne.symm hcmd)]
      simp
  · have hnot := ioctl_not_taken user iodmIoctlGetHostStats htaken
    exact iff_of_true (fun hok => absurd hok hnot.1) (fun h => absurd h htaken)

theorem untilFailed_ne_nil (phyReset : SasPhy → Int) {phys : List SasPhy} (h : phys ≠ []) :
    untilFailed phyReset phys ≠ [] := by
  cases phys with
  | nil => exact absurd rfl h
  | cons phy rest =>
    rw [untilFailed]
    split <;> exact List.cons_ne_nil _ _

theorem reset_nil (hname : w.Names user sh) :
    (w.iodmCharOpsIoctl iodmIoctlIssueReset user).reset = [] := by
  by_cases htaken : w.Taken
  · by_cases hcmd : user.cmd = iodmIoctlIssueReset
    · rw [(ioctl_sas htaken hname hcmd (.inr rfl)).2.2, (sasTransport_reset sh hcmd).2]
    · rw [ioctl_dropped htaken (Ne.symm hcmd)]
  · exact (ioctl_not_taken user iodmIoctlIssueReset htaken).2.1

theorem reset_iff_fails (hname : w.Names user sh) (htaken : w.Taken)
    (hcmd : user.cmd = iodmIoctlIssueReset) (hphys : sh.phys ≠ []) :
    w.ResetRight user sh ↔
      sh.module = false ∨ sh.f = none ∨ sh.phyReset? = none ∧ w.copyToUser = false := by
  have hnone := reset_nil hname
  have hchildren : sh.children ≠ [] := by
    intro hnil
    exact hphys (by rw [IodmHost.phys, hnil, List.filterMap_nil])
  obtain ⟨hstatus, -, -⟩ := ioctl_sas htaken hname hcmd (.inr rfl)
  have hok := (sasTransport_reset sh hcmd).1
  constructor
  · intro h
    cases hmodule : sh.module with
    | false => exact .inl rfl
    | true =>
      cases hreset : sh.phyReset? with
      | some phyReset =>
        have hcalls := h.calls htaken hcmd hmodule phyReset hreset
        rw [hnone] at hcalls
        exact absurd hcalls.symm (untilFailed_ne_nil phyReset hphys)
      | none =>
        by_cases hf : sh.f = none
        · exact .inr (.inl hf)
        · -- nothing is called, and success is reported
          have hsas := hok.mpr ⟨hmodule, fun hf' => absurd hf' hf⟩
          refine .inr (.inr ⟨rfl, Bool.eq_false_iff.mpr fun hcopy => hphys ?_⟩)
          rw [← (h.success (hstatus.mpr ⟨hsas, hcopy⟩)).1, hnone]
  · intro hfails
    constructor
    · intro hdone
      obtain ⟨hsas, hcopy⟩ := hstatus.mp hdone
      obtain ⟨hmodule, hf⟩ := hok.mp hsas
      rcases hfails with hfalse | hnof | ⟨-, hfalse⟩
      · rw [hmodule] at hfalse
        cases hfalse
      · exact absurd (hf hnof) hchildren
      · rw [hcopy] at hfalse
        cases hfalse
    · intro _ _ hmodule phyReset hreset
      rcases hfails with hfalse | hnof | ⟨hnoreset, -⟩
      · rw [hmodule] at hfalse
        cases hfalse
      · rw [IodmHost.phyReset?, hnof] at hreset
        cases hreset
      · rw [hnoreset] at hreset
        cases hreset

theorem reset_iff (hname : w.Names user sh) : w.ResetRight user sh ↔ w.ResetFits user sh := by
  have hnone := reset_nil hname
  by_cases htaken : w.Taken
  -- without a phy there is nothing to reset
  · by_cases hphys : sh.phys = []
    · refine iff_of_true ⟨fun _ => ?_, fun _ _ _ phyReset _ => ?_⟩ fun _ hne => absurd hphys hne
      · rw [hnone, hphys]
        exact ⟨rfl, nofun⟩
      · rw [hnone, hphys, untilFailed]
    · by_cases hcmd : user.cmd = iodmIoctlIssueReset
      · rw [reset_iff_fails hname htaken hcmd hphys]
        exact ⟨fun h _ _ => ⟨hcmd, h⟩, fun h => (h htaken hphys).2⟩
      · refine iff_of_false (fun h => hphys ?_) fun h => hcmd (h htaken hphys).1
        have hok : (w.iodmCharOpsIoctl iodmIoctlIssueReset user).status = .ok := by
          rw [ioctl_dropped htaken (Ne.symm hcmd)]
        rw [← (h.success hok).1, hnone]
  · have hnot := ioctl_not_taken user iodmIoctlIssueReset htaken
    exact iff_of_true ⟨fun hok => absurd hok hnot.1, fun h => absurd h htaken⟩
      fun h => absurd h htaken

theorem devices_iff : w.DevicesRight user ↔ w.DevicesFit user := by
  by_cases htaken : w.Taken
  · unfold IodmWorld.DevicesFit
    simp only [htaken, true_imp_iff]
    by_cases hcmd : user.cmd = iodmIoctlGetIodmdevs
    · rw [if_pos hcmd]
      obtain ⟨hcount, hwritten⟩ := getDevices_spec w.adapters { list := user.list }
      rw [Nat.zero_add] at hcount
      rw [List.nil_append] at hwritten
      generalize (w.adapters.filter fun hba => isSupportedXportType hba.xportFlags).length = n
        at hcount hwritten ⊢
      -- the places that are written do not depend on the copy to the user
      have hlist : (w.iodmCharOpsIoctl iodmIoctlGetIodmdevs user).written = List.range' 0 n := by
        rw [ioctl_devices htaken hcmd, IodmWorld.done]
        split <;> exact hwritten
      constructor
      · intro h
        by_contra hmore
        -- with more adapters the place behind the list is written
        have hin := h.inside maxIodmDevices (by
          rw [hlist, List.mem_range'_1]
          omega)
        exact absurd hin (Nat.lt_irrefl _)
      · intro hfit
        refine ⟨fun i hi => ?_, fun hok => ?_⟩
        · rw [hlist, List.mem_range'_1] at hi
          omega
        · have huser : (w.iodmCharOpsIoctl iodmIoctlGetIodmdevs user).user.list.count =
              UInt8.ofNat n := by
            rw [ioctl_devices htaken hcmd, IodmWorld.done] at hok ⊢
            split at hok
            · next hcopy =>
              rw [if_pos hcopy, ← hcount]
              rfl
            · cases hok
          have hlimit : maxIodmDevices = 32 := rfl
          rw [huser, hlist, List.length_range', UInt8.toNat_ofNat']
          exact Nat.mod_eq_of_lt (by omega)
    · rw [if_neg hcmd]
      have hdropped := ioctl_dropped htaken (Ne.symm hcmd)
      constructor
      · intro h
        have hcount := h.count (by rw [hdropped])
        rw [hdropped] at hcount
        exact UInt8.toNat_inj.mp hcount
      · intro hzero
        refine ⟨fun i hi => ?_, fun _ => ?_⟩
        · rw [hdropped] at hi
          cases hi
        · rw [hdropped, hzero]
          rfl
  · have hnot := ioctl_not_taken user iodmIoctlGetIodmdevs htaken
    refine iff_of_true ⟨fun i hi => ?_, fun hok => absurd hok hnot.1⟩ fun h => absurd h htaken
    rw [hnot.2.2] at hi
    cases hi

/-- **Requests**: `IODM_IOCTL_GET_HOST_STATS` returns the sums over all phys,
    `IODM_IOCTL_ISSUE_RESET` resets all and says so, and `IODM_IOCTL_GET_IODMDEVS` stays in its
    entries, if and only if the buffer came with zeros for the sums, there is no phy to reset or
    the request fails, and there are at most 32 adapters to list. -/
theorem request_right_iff (w : IodmWorld) (cmd : UInt32) (user : IodmIoc) :
    w.RequestRight cmd user ↔ w.RequestFits cmd user := by
  constructor
  · intro h
    exact ⟨fun hcmd sh hname => (stats_iff hname).mp (h.stats hcmd sh hname),
      fun hcmd sh hname => (reset_iff hname).mp (h.reset hcmd sh hname),
      fun hcmd => devices_iff.mp (h.devices hcmd)⟩
  · intro h
    exact ⟨fun hcmd sh hname => (stats_iff hname).mpr (h.stats hcmd sh hname),
      fun hcmd sh hname => (reset_iff hname).mpr (h.reset hcmd sh hname),
      fun hcmd => devices_iff.mpr (h.devices hcmd)⟩

def threeInvalid : SasPhy := ⟨0, fun c => if c = .invalidDwordCount then 3 else 0⟩

def sasDriver : SasFunctionTemplate := { phyReset := some fun _ => 0 }

def sasHost : IodmHost where
  vmhbaName := [118]
  xportFlags := xportSas
  f := some sasDriver
  children := [.sasPhy threeInvalid]

def sasWorld (n : Nat) : IodmWorld where
  adapters := List.replicate n sasHost
  other ioc _ := ⟨.ok, ioc, [], []⟩

/-- With a 4 in the buffer the sum over the one phy is 7; the phy is not reset, but success is
    reported; and of 33 adapters the last is written behind the entries. -/
theorem request_wrong :
    ¬(sasWorld 1).RequestRight iodmIoctlGetHostStats
        { cmd := iodmIoctlGetHostStats, vmhbaName := [118], stats := fun _ => 4 } ∧
      ¬(sasWorld 1).RequestRight iodmIoctlIssueReset
        { cmd := iodmIoctlIssueReset, vmhbaName := [118] } ∧
      ¬(sasWorld 33).RequestRight iodmIoctlGetIodmdevs { cmd := iodmIoctlGetIodmdevs } := by
  refine ⟨fun h => ?_, fun h => ?_, fun h => ?_⟩
  · have hsum := h.stats rfl sasHost ⟨by decide, rfl, rfl⟩ (by decide) .invalidDwordCount
    exact absurd hsum (by decide)
  · have hall := (h.reset rfl sasHost ⟨by decide, rfl, rfl⟩).success (by decide)
    exact absurd (congrArg List.length hall.1) (by decide)
  · have hin := (h.devices rfl).inside 32 (by decide)
    exact absurd hin (by decide)

end VmkDrivers.Vmklinux
