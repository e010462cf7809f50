/-
  VmkDrivers.Vmklinux.Cna

  Converged adapters, and the requests that create and destroy the FCoE
  controller of one (`linux_cna.c`).

  The requests come one after the other, under `cna_ioctl_mutex`.  How a step
  turns out that vmklinux does not decide (memory, the vmkernel, the driver, the
  transports that are registered at the time) is given with the request
  (`Answers`).  `CNA_MAX_QUEUE` is 1: an adapter has one queue of each kind, with
  index 0.  `VMK_ASSERT` is left out, and so are messages and the fields that no
  request reads.
-/

import VmkDrivers.Lib.Bitset

namespace VmkDrivers.Vmklinux

open VmkDrivers.Lib

def cnaDriverName : Nat := 32

def cnaMaxQueue : Nat := 1

def cnaMaxFilterPerQueue : Nat := 2

inductive CnaFault where
  | deadlock
deriving DecidableEq, Repr

structure RxFilterInfo where
  id : Nat := 0
  ref : Int := 0
  macAddr : BitVec 48 := 0
  /-- No field of the struct: the filters that the hardware has been given for the slot, and has
      not removed. -/
  applied : Nat := 0
deriving DecidableEq, Repr

structure RxQueue where
  rxQueueId : Nat := 0
  filter : List RxFilterInfo := List.replicate cnaMaxFilterPerQueue {}
  active : Bool := false
deriving DecidableEq, Repr

structure TxQueue where
  txQueueId : Nat := 0
  active : Bool := false
deriving DecidableEq, Repr

/-- `struct net_device`; of the handlers, whether the driver has set them. -/
structure NetDevice where
  name : List Char
  moduleId : Nat
  pdev : Nat
  devAddr : BitVec 48
  netqueueOps : Bool := true
  hwVlanFilter : Bool := true
  hwVlanTx : Bool := true
  vlanGroup : Bool := false
  vlanRxRegister : Bool := true
  vlanRxKillVid : Bool := true
  vlanRxAddVid : Bool := true
  /-- The VLANs that the driver was told to add to its filter, and not to remove. -/
  vids : List (BitVec 16) := []
deriving DecidableEq, Repr

/-- `struct vmklnx_fcoe_template`; of the table, the devices that `pci_match_device` finds in it. -/
structure FcoeTemplate where
  moduleId : Nat
  idTable : Option (List Nat) := none
deriving DecidableEq, Repr

/-- `struct vmklnx_fcoe_contlr` -/
structure FcoeContlr where
  cna : Nat
  fcoe : FcoeTemplate
deriving DecidableEq, Repr

/-- `struct vmklnx_cna` -/
structure Cna where
  netdev : NetDevice
  locked : Bool := false
  tqueue : TxQueue := {}
  rqueue : RxQueue := {}
  fcoeVlanId : BitVec 16 := 0
  fcoeAppPrio : BitVec 8 := 0
  rxHandler : Bool := false
  handle : Option FcoeContlr := none
deriving DecidableEq, Repr

/-- `struct fcoe_cntlr`, what is asked for. -/
structure FcoeCntlr where
  priority : BitVec 32
  vlan : List (BitVec 32)
  vmnicName : List Char
  macAddress : BitVec 48
deriving DecidableEq, Repr

structure Answers where
  /-- There is memory for the controller. -/
  contlr : Bool := true
  /-- `linuxFCoEClientList` -/
  clients : List FcoeTemplate := []
  defaultFcoeOwner : Option FcoeTemplate := none
  /-- `vmk_ModuleIncUseCount` of the net driver, and of the transport -/
  netModule : Bool := true
  fcoeModule : Bool := true
  /-- `VMK_NETQUEUE_OP_GET_FEATURES`: whether there are RX queues, and TX queues -/
  features : Option (Bool × Bool) := some (true, true)
  txQueueCount : Option Nat := some 1
  rxQueueCount : Option Nat := some 1
  filterCount : Option Nat := some 2
  /-- There is memory for the `vlan_group`. -/
  vlanGroup : Bool := true
  allocTx : Option Nat := some 0
  allocRx : Option Nat := some 0
  applyRxFilter : Option Nat := some 0
  freeTx : Bool := true
  freeRx : Bool := true
  /-- `VMK_NETQUEUE_OP_REMOVE_RX_FILTER` of the filter with the index -/
  removeRxFilter : Nat → Bool := fun _ => true

structure CnaState where
  cnas : Nat → Cna
  /-- `linuxCNAAdapterList` -/
  adapters : List Nat
  /-- The references that are held on modules, each with the adapter that it was taken for. -/
  references : List (Nat × Nat) := []

/-! ## The queues of an adapter -/

namespace Cna

/-- `spin_lock_irqsave(&cna->lock, flags)` -/
def lock (cna : Cna) : Except CnaFault Cna :=
  if cna.locked then .error .deadlock else .ok { cna with locked := true }

/-- `spin_unlock_irqrestore(&cna->lock, flags)` -/
def unlock (cna : Cna) : Cna := { cna with locked := false }

/-- `CNACheckQueueFeatures` -/
def checkQueueFeatures (answers : Answers) : Bool :=
  match answers.features with
  | none => false
  | some (rx, tx) => rx && tx

def enough (count : Option Nat) (wanted : Nat) : Bool := count.any (wanted ≤ ·)

/-- `CNACheckQueues` -/
def checkQueues (answers : Answers) (netdev : NetDevice) : Bool :=
  netdev.netqueueOps && checkQueueFeatures answers &&
    (enough answers.txQueueCount cnaMaxQueue && enough answers.rxQueueCount cnaMaxQueue) &&
    enough answers.filterCount cnaMaxFilterPerQueue

/-- `CNAFreeTXRXQueue` -/
def freeTxRxQueue (answers : Answers) (cna : Cna) (isReset : Bool) :
    Except CnaFault (Bool × Cna) := do
  let cna ← cna.lock
  let (txOk, cna) :=
    if cna.tqueue.active then
      if answers.freeTx = false then
        (false,
          -- `rqueue`, also where it is the tx queue that failed
          if isReset then { cna with rqueue := { cna.rqueue with active := false } } else cna)
      else (true, { cna with tqueue := { cna.tqueue with active := false } })
    else (true, cna)
  let (rxOk, cna) :=
    if cna.rqueue.active then
      if answers.freeRx = false then
        (false, if isReset then { cna with rqueue := { cna.rqueue with active := false } } else cna)
      else (true, { cna with rqueue := { cna.rqueue with active := false } })
    else (true, cna)
  return (txOk && rxOk, cna.unlock)

/-- `CNAAllocTXRXQueue` -/
def allocTxRxQueue (answers : Answers) (cna : Cna) : Except CnaFault (Bool × Cna) := do
  match answers.allocTx with
  | none =>
    -- what there was before is released
    let (_, cna) ← freeTxRxQueue answers cna false
    return (false, cna)
  | some qid =>
    let cna ← cna.lock
    let cna := { cna with tqueue := ⟨qid, true⟩ }.unlock
    match answers.allocRx with
    | none =>
      let (_, cna) ← freeTxRxQueue answers cna false
      return (false, cna)
    | some qid =>
      let cna ← cna.lock
      return (true,
        { cna with rqueue := { cna.rqueue with rxQueueId := qid, active := true } }.unlock)

/-- `CNAGetFreeRxIndices` -/
def getFreeRxIndices (cna : Cna) : Option Nat :=
  if cna.rqueue.active then cna.rqueue.filter.findIdx? (·.ref = 0) else none

/-- `CNASetRxFilter` -/
def setRxFilter (answers : Answers) (cna : Cna) (macAddress : BitVec 48) : Bool × Cna :=
  if macAddress = 0 then (false, cna)
  else
    match cna.getFreeRxIndices with
    | none => (false, cna)
    | some findex =>
      match answers.applyRxFilter with
      | none => (false, cna)
      | some fid =>
        (true, { cna with
          rqueue := { cna.rqueue with
            filter := cna.rqueue.filter.modify findex fun f =>
              { id := fid, ref := f.ref + 1, macAddr := macAddress, applied := f.applied + 1 } } })

/-- `CNAInitQueues` -/
def initQueues (answers : Answers) (cna : Cna) (macAddress : BitVec 48) :
    Except CnaFault (Bool × Cna) := do
  let (ok, cna) ← allocTxRxQueue answers cna
  if ok = false then return (false, cna)
  else
    let cna ← cna.lock
    let (ok, cna) := setRxFilter answers cna macAddress
    if ok = false then
      -- with the lock held
      let (ok, cna) ← freeTxRxQueue answers cna false
      return (ok, cna.unlock)
    else return (true, cna.unlock)

/-- The filters of `CNAClearRxFilter`, from the index `findex` on. -/
def clearFilters (answers : Answers) (isReset : Bool) (findex : Nat) :
    List RxFilterInfo → Bool × List RxFilterInfo
  | [] => (true, [])
  | f :: fs =>
    let (restOk, rest) := clearFilters answers isReset (findex + 1) fs
    if f.ref = 0 then (restOk, f :: rest)
    -- the hardware has lost its filters with the reset
    else if isReset then (restOk, { f with ref := 0, macAddr := 0 } :: rest)
    else if answers.removeRxFilter findex = false then (false, f :: rest)
    else (restOk, { f with ref := f.ref - 1, macAddr := 0, applied := f.applied - 1 } :: rest)

/-- `CNAClearRxFilter` -/
def clearRxFilter (answers : Answers) (cna : Cna) (isReset : Bool) :
    Except CnaFault (Bool × Cna) := do
  let cna ← cna.lock
  if cna.rqueue.active then
    let (ok, filter) := clearFilters answers isReset 0 cna.rqueue.filter
    return (ok, { cna with rqueue := { cna.rqueue with filter := filter } }.unlock)
  else return (true, cna.unlock)

/-- `CNAClearProperties` -/
def clearProperties (answers : Answers) (cna : Cna) (isReset : Bool) :
    Except CnaFault (Bool × Cna) := do
  let (ok, cna) ← clearRxFilter answers cna isReset
  -- the queues stay where a filter does
  if ok = false ∧ isReset = false then return (false, cna)
  else freeTxRxQueue answers cna isReset

/-! ## The properties -/

/-- The VLAN that is asked for: the first bit that is set in the words from index `i` on, or else
    zero. -/
def firstVlan (i : Nat) : List (BitVec 32) → Nat
  | [] => 0
  | word :: words => if word ≠ 0 then i * 32 + (ffs word - 1) else firstVlan (i + 1) words

/-- `LinNet_EnableHwVlan` -/
def enableHwVlan (answers : Answers) (dev : NetDevice) : Bool × NetDevice :=
  if dev.vlanGroup then (true, dev)
  else if dev.vlanRxRegister = false then (false, dev)
  else if answers.vlanGroup = false then (false, dev)
  else (true, { dev with vlanGroup := true })

/-- `vmklnx_cna_set_vlan_tag`; the callback is that of the controller, and there is none. -/
def setVlanTag (answers : Answers) (cna : Cna) (vid : BitVec 16) : Bool × Cna :=
  let (ok, dev) := enableHwVlan answers cna.netdev
  let cna := { cna with netdev := dev }
  if ok = false then (false, cna)
  else if dev.hwVlanFilter = false then (false, cna)
  else if cna.fcoeVlanId ≠ 0 ∧ dev.vlanRxKillVid = false then (false, cna)
  else
    -- the VLAN before goes first
    let dev := if cna.fcoeVlanId ≠ 0 then { dev with vids := dev.vids.erase cna.fcoeVlanId } else dev
    let cna := { cna with netdev := dev }
    if vid ≠ 0 ∧ dev.vlanRxAddVid = false then (false, cna)
    else
      let dev := if vid ≠ 0 then { dev with vids := dev.vids.insert vid } else dev
      (true, { cna with netdev := dev, fcoeVlanId := vid })

/-- `CNASetProperties` -/
def setProperties (answers : Answers) (cna : Cna) (fcoeCntlr : FcoeCntlr) :
    Except CnaFault (Bool × Cna) := do
  let cna := { cna with fcoeVlanId := 0 }
  let newVid := BitVec.ofNat 16 (firstVlan 0 fcoeCntlr.vlan)
  let (ok, cna) := setVlanTag answers cna newVid
  if ok = false then return (false, cna)
  else
    let cna := { cna with
      fcoeAppPrio := fcoeCntlr.priority.setWidth 8
      netdev := { cna.netdev with devAddr := fcoeCntlr.macAddress } }
    initQueues answers cna fcoeCntlr.macAddress

end Cna

/-- The template for a device: `fcoe_lookup_by_pcitbl`, or else the default owner. -/
def fcoeLookup (answers : Answers) (pdev : Nat) : Option FcoeTemplate :=
  (answers.clients.find? fun fcoe => fcoe.idTable.any (pdev ∈ ·)).or answers.defaultFcoeOwner

/-! ## The requests -/

inductive FcoeRequest where
  | create (answers : Answers) (fcoeCntlr : FcoeCntlr)
  /-- With the SCSI hosts that are attached to the controller at the time. -/
  | destroy (answers : Answers) (vmnicName : List Char) (vnports : Int)

namespace CnaState

variable (s : CnaState)

/-- `vmk_ModuleIncUseCount`, for an adapter -/
def moduleIncUseCount (module cna : Nat) : CnaState :=
  { s with references := (module, cna) :: s.references }

/-- `vmk_ModuleDecUseCount` -/
def moduleDecUseCount (module cna : Nat) : CnaState :=
  { s with references := s.references.erase (module, cna) }

def set (a : Nat) (cna : Cna) : CnaState := { s with cnas := Function.update s.cnas a cna }

/-- `vmklnx_cna_lookup_by_name` -/
def lookupByName (vmnicName : List Char) : Option Nat :=
  s.adapters.find? fun a =>
    vmnicName.take cnaDriverName = (s.cnas a).netdev.name.take cnaDriverName

/-- `FCoECreateController` -/
def createController (answers : Answers) (fcoeCntlr : FcoeCntlr) :
    Except CnaFault (Bool × CnaState) :=
  if answers.contlr = false then .ok (false, s)
  else
    match s.lookupByName fcoeCntlr.vmnicName with
    | none => .ok (false, s)
    | some a =>
      let cna := s.cnas a
      -- "There can only be one FCoE Controller per CNA instance"
      if cna.handle.isSome then .ok (false, s)
      else
        match fcoeLookup answers cna.netdev.pdev with
        | none => .ok (false, s)
        | some fcoe =>
          if answers.netModule = false then .ok (false, s)
          else
            let s := s.moduleIncUseCount cna.netdev.moduleId a
            if answers.fcoeModule = false then
              .ok (false, s.moduleDecUseCount cna.netdev.moduleId a)
            else
              let s := s.moduleIncUseCount fcoe.moduleId a
              if Cna.checkQueues answers cna.netdev = false then
                .ok (false, (s.moduleDecUseCount fcoe.moduleId a).moduleDecUseCount
                  cna.netdev.moduleId a)
              else do
                let (ok, cna) ← Cna.setProperties answers cna fcoeCntlr
                if ok = false then
                  return (false, ((s.set a cna).moduleDecUseCount fcoe.moduleId a).moduleDecUseCount
                    cna.netdev.moduleId a)
                else
                  return (true, s.set a { cna with handle := some ⟨a, fcoe⟩, rxHandler := true })

/-- `FCoEGetVmklnxContlr` -/
def getVmklnxContlr (vmnicName : List Char) : Option FcoeContlr := do
  let a ← s.lookupByName vmnicName
  (s.cnas a).handle

/-- `FCoEDestroyController` -/
def destroyController (answers : Answers) (vmnicName : List Char) (vnports : Int) :
    Except CnaFault (Bool × CnaState) :=
  match s.getVmklnxContlr vmnicName with
  | none => .ok (false, s)
  | some contlr =>
    -- the controller still has virtual ports
    if vnports ≠ 0 then .ok (false, s)
    else do
      let cna := { s.cnas contlr.cna with handle := none, rxHandler := false }
      let (ok, cna) ← Cna.clearProperties answers cna false
      let s := s.set contlr.cna cna
      if ok = false then return (false, s)
      else
        return (true, (s.moduleDecUseCount contlr.fcoe.moduleId contlr.cna).moduleDecUseCount
          cna.netdev.moduleId contlr.cna)

def request : FcoeRequest → Except CnaFault (Bool × CnaState)
  | .create answers fcoeCntlr => s.createController answers fcoeCntlr
  | .destroy answers vmnicName vnports => s.destroyController answers vmnicName vnports

/-- Behind `LinuxCNA_RegisterNetDev` for each adapter. -/
def init (adapters : List Nat) (netdev : Nat → NetDevice) : CnaState where
  cnas := fun a => { netdev := netdev a }
  adapters := adapters

end CnaState

def cnaNext? (s : Except CnaFault CnaState) (req : FcoeRequest) : Option (Except CnaFault CnaState) :=
  match s with
  | .error _ => none
  | .ok s => some ((s.request req).map Prod.snd)

def CnaStep (s : Except CnaFault CnaState) (req : FcoeRequest) (t : Except CnaFault CnaState) : Prop :=
  cnaNext? s req = some t

end VmkDrivers.Vmklinux
