/-
  VmkDrivers.Vmklinux.CnaControllers

  The FCoE controllers are created and destroyed as a whole, where no step fails
  behind the point from which the requests do not clean up.

  A creation that fails behind the check of the queues does not restore the VLAN,
  the priority and the address, nor what it cannot release again, and one whose
  filter is refused spins for the lock of the adapter, which it holds; a
  destruction that fails has dropped the controller (`controllers_lost`).  Where
  none of this happens, each adapter has its controller with all that belongs to
  it, or nothing (`controllers_whole`).
-/

import VmkDrivers.Lib.Transition
import VmkDrivers.Vmklinux.Cna

namespace VmkDrivers.Vmklinux

open VmkDrivers.Lib

/-! ## What is promised -/

/-- The references that are held for an adapter are one on each of the modules. -/
def CnaState.HeldFor (s : CnaState) (a : Nat) (modules : List Nat) : Prop :=
  ∀ m, s.references.count (m, a) = modules.count m

namespace Cna

def InPlace (cna : Cna) : Prop :=
  cna.tqueue.active = true ∧ cna.rqueue.active = true ∧
    ∃ f ∈ cna.rqueue.filter, f.ref = 1 ∧ f.macAddr = cna.netdev.devAddr

def Idle (cna : Cna) : Prop :=
  cna.tqueue.active = false ∧ cna.rqueue.active = false ∧ ∀ f ∈ cna.rqueue.filter, f.ref = 0

def txQueue (cna : Cna) : Option Nat :=
  if cna.tqueue.active then some cna.tqueue.txQueueId else none

def rxQueue (cna : Cna) : Option Nat :=
  if cna.rqueue.active then some cna.rqueue.rxQueueId else none

structure Same (cna cna' : Cna) : Prop where
  handle : cna'.handle = cna.handle
  txQueue : cna'.txQueue = cna.txQueue
  rxQueue : cna'.rxQueue = cna.rxQueue
  filter : cna'.rqueue.filter = cna.rqueue.filter
  vlan : cna'.fcoeVlanId = cna.fcoeVlanId
  priority : cna'.fcoeAppPrio = cna.fcoeAppPrio
  address : cna'.netdev.devAddr = cna.netdev.devAddr

end Cna

structure ControllersWhole (s : CnaState) : Prop where
  exactly : ∀ a, (s.cnas a).handle.isSome = true ↔
    (∃ fcoe, s.HeldFor a [(s.cnas a).netdev.moduleId, fcoe]) ∧ (s.cnas a).InPlace
  held : ∀ a contlr, (s.cnas a).handle = some contlr →
    s.HeldFor a [(s.cnas a).netdev.moduleId, contlr.fcoe.moduleId]
  nothing : ∀ a, (s.cnas a).handle = none → s.HeldFor a [] ∧ (s.cnas a).Idle

/-- What one request does: it returns, the controllers are whole, a creation that fails leaves the
    adapters as they were, and a destruction that fails leaves the controller, which is found, and
    can be destroyed. -/
def RequestRight (s : CnaState) (req : FcoeRequest) : Prop :=
  ∃ ok s', s.request req = .ok (ok, s') ∧ ControllersWhole s' ∧
    (ok = false → match req with
      | .create _ _ => ∀ a, (s.cnas a).Same (s'.cnas a)
      | .destroy _ vmnicName _ => ∀ contlr, s.getVmklnxContlr vmnicName = some contlr →
          s'.getVmklnxContlr vmnicName = some contlr ∧
            ∃ answers s'', s'.destroyController answers vmnicName 0 = .ok (true, s''))

/-- The adapter and the template with which a creation comes to `CNASetProperties`. -/
def CnaState.setsProperties (s : CnaState) (answers : Answers) (fcoeCntlr : FcoeCntlr) :
    Option (Nat × FcoeTemplate) := do
  let a ← s.lookupByName fcoeCntlr.vmnicName
  let fcoe ← fcoeLookup answers (s.cnas a).netdev.pdev
  if answers.contlr ∧ (s.cnas a).handle = none ∧ answers.netModule ∧ answers.fcoeModule ∧
      Cna.checkQueues answers (s.cnas a).netdev then some (a, fcoe)
  else none

def Cna.vlanTagFails (answers : Answers) (dev : NetDevice) (vid : BitVec 16) : Bool :=
  (!dev.vlanGroup && !(dev.vlanRxRegister && answers.vlanGroup)) || !dev.hwVlanFilter ||
    (vid ≠ 0 && !dev.vlanRxAddVid)

def Cna.HasProperties (cna : Cna) (fcoeCntlr : FcoeCntlr) : Prop :=
  cna.fcoeVlanId = BitVec.ofNat 16 (firstVlan 0 fcoeCntlr.vlan) ∧
    cna.fcoeAppPrio = fcoeCntlr.priority.setWidth 8 ∧ cna.netdev.devAddr = fcoeCntlr.macAddress

/-- The set-up of the VLAN fails only where there was none; the queues are only refused where the
    adapter has the properties that are asked for, and a TX queue is released then; and the filter is
    not refused. -/
def Cna.PropertiesCareful (answers : Answers) (cna : Cna) (fcoeCntlr : FcoeCntlr) : Prop :=
  if vlanTagFails answers cna.netdev (BitVec.ofNat 16 (firstVlan 0 fcoeCntlr.vlan)) then
    cna.fcoeVlanId = 0
  else if answers.allocTx = none then cna.HasProperties fcoeCntlr
  else if answers.allocRx = none then answers.freeTx = true ∧ cna.HasProperties fcoeCntlr
  else fcoeCntlr.macAddress ≠ 0 ∧ answers.applyRxFilter ≠ none

/-- Where the destruction comes to release the filters and queues, they are released. -/
def Cna.ReleaseCareful (answers : Answers) (cna : Cna) : Prop :=
  (∀ f ∈ cna.rqueue.filter.zipIdx, f.1.ref ≠ 0 → answers.removeRxFilter f.2 = true) ∧
    answers.freeTx = true ∧ answers.freeRx = true

def CnaCareful (s : Except CnaFault CnaState) (req : FcoeRequest) : Prop :=
  match s, req with
  | .error _, _ => True
  | .ok s, .create answers fcoeCntlr => ∀ p ∈ s.setsProperties answers fcoeCntlr,
      (s.cnas p.1).PropertiesCareful answers fcoeCntlr
  | .ok s, .destroy answers vmnicName vnports => ∀ contlr ∈ s.getVmklnxContlr vmnicName,
      vnports = 0 → (s.cnas contlr.cna).ReleaseCareful answers

instance (answers : Answers) (cna : Cna) (fcoeCntlr : FcoeCntlr) :
    Decidable (cna.PropertiesCareful answers fcoeCntlr) := by
  unfold Cna.PropertiesCareful Cna.HasProperties
  infer_instance

instance (answers : Answers) (cna : Cna) : Decidable (cna.ReleaseCareful answers) := by
  unfold Cna.ReleaseCareful
  infer_instance

instance (s : Except CnaFault CnaState) (req : FcoeRequest) : Decidable (CnaCareful s req) := by
  unfold CnaCareful
  split <;> infer_instance

/-! ## The queues of an adapter -/

namespace Cna

section Queues

variable {answers : Answers} {cna : Cna} {mac : BitVec 48} {qid rid fid : Nat} {vid : BitVec 16}

theorem lock_of_unlocked (h : cna.locked = false) : cna.lock = .ok { cna with locked := true } := by
  rw [lock, h]
  rfl

theorem freeTxRxQueue_locked (h : cna.locked = true) (isReset : Bool) :
    freeTxRxQueue answers cna isReset = .error .deadlock := by
  rw [freeTxRxQueue, lock, h]
  rfl

theorem freeTxRxQueue_spec (answers : Answers) (h : cna.locked = false) :
    freeTxRxQueue answers cna false = .ok
      ((!cna.tqueue.active || answers.freeTx) && (!cna.rqueue.active || answers.freeRx), { cna with
          tqueue := { cna.tqueue with active := cna.tqueue.active && !answers.freeTx }
          rqueue := { cna.rqueue with active := cna.rqueue.active && !answers.freeRx } }) := by
  obtain ⟨dev, locked, ⟨tid, tx⟩, ⟨rid, filter, rx⟩, vlan, prio, handler, handle⟩ := cna
  obtain rfl : locked = false := h
  cases tx <;> cases rx <;> cases hfreeTx : answers.freeTx <;> cases hfreeRx : answers.freeRx <;>
    simp [freeTxRxQueue, lock, unlock, bind, Except.bind, pure, Except.pure, hfreeTx, hfreeRx]

theorem freeTxRxQueue_queues (answers : Answers) (cna : Cna) (h : cna.locked = false)
    (isReset : Bool) :
    ∃ ok tqueue active, freeTxRxQueue answers cna isReset = .ok (ok, { cna with
      tqueue := tqueue
      rqueue := { cna.rqueue with active := active } }) := by
  obtain ⟨dev, locked, ⟨tid, tx⟩, ⟨rid, filter, rx⟩, vlan, prio, handler, handle⟩ := cna
  obtain rfl : locked = false := h
  cases tx <;> cases rx <;> cases isReset <;> cases hfreeTx : answers.freeTx <;>
    cases hfreeRx : answers.freeRx <;>
    simp [freeTxRxQueue, lock, unlock, bind, Except.bind, pure, Except.pure, hfreeTx, hfreeRx]

theorem allocTxRxQueue_noTx (h : cna.locked = false) (hidle : cna.Idle)
    (htx : answers.allocTx = none) : allocTxRxQueue answers cna = .ok (false, cna) := by
  rw [allocTxRxQueue, htx]
  simp only [bind, Except.bind, freeTxRxQueue_spec answers h]
  obtain ⟨dev, locked, ⟨tid, tx⟩, ⟨rid, filter, rx⟩, vlan, prio, handler, handle⟩ := cna
  obtain ⟨rfl, rfl, -⟩ : tx = false ∧ rx = false ∧ _ := hidle
  rfl

theorem allocTxRxQueue_noRx (h : cna.locked = false) (hidle : cna.Idle)
    (htx : answers.allocTx = some qid) (hrx : answers.allocRx = none) :
    allocTxRxQueue answers cna = .ok (false, { cna with tqueue := ⟨qid, !answers.freeTx⟩ }) := by
  obtain ⟨dev, locked, ⟨tid, tx⟩, ⟨rid, filter, rx⟩, vlan, prio, handler, handle⟩ := cna
  obtain rfl : locked = false := h
  obtain ⟨rfl, rfl, -⟩ : tx = false ∧ rx = false ∧ _ := hidle
  cases hfree : answers.freeTx <;>
    simp [allocTxRxQueue, htx, hrx, lock, unlock, freeTxRxQueue, bind, Except.bind, pure,
      Except.pure, hfree]

theorem allocTxRxQueue_done (h : cna.locked = false) (htx : answers.allocTx = some qid)
    (hrx : answers.allocRx = some rid) :
    allocTxRxQueue answers cna = .ok (true, { cna with
      tqueue := ⟨qid, true⟩
      rqueue := { cna.rqueue with rxQueueId := rid, active := true } }) := by
  rw [allocTxRxQueue, htx]
  obtain ⟨dev, locked, tqueue, rqueue, vlan, prio, handler, handle⟩ := cna
  obtain rfl : locked = false := h
  simp [hrx, lock, unlock, bind, Except.bind, pure, Except.pure]

theorem initQueues_deadlock (h : cna.locked = false) (htx : answers.allocTx = some qid)
    (hrx : answers.allocRx = some rid)
    (hfilter : mac = 0 ∨ cna.rqueue.filter.findIdx? (·.ref = 0) = none ∨
      answers.applyRxFilter = none) :
    initQueues answers cna mac = .error .deadlock := by
  rw [initQueues, allocTxRxQueue_done h htx hrx]
  have hrefused : ∀ cna' : Cna, cna'.rqueue.filter = cna.rqueue.filter →
      setRxFilter answers cna' mac = (false, cna') := fun cna' hsame => by
    rw [setRxFilter, getFreeRxIndices, hsame]
    rcases hfilter with hmac | hfull | hfid
    · rw [if_pos hmac]
    · rw [hfull, ite_self]
      split <;> rfl
    · rw [hfid]
      split
      · rfl
      · split <;> rfl
  have hrefused := hrefused { cna with
    locked := true
    tqueue := ⟨qid, true⟩
    rqueue := { cna.rqueue with rxQueueId := rid, active := true } } rfl
  simp only [bind, Except.bind, Bool.true_eq_false, if_false, lock_of_unlocked, h, hrefused, if_true]
  rw [freeTxRxQueue_locked rfl]

theorem initQueues_done {findex : Nat} (h : cna.locked = false) (htx : answers.allocTx = some qid)
    (hrx : answers.allocRx = some rid) (hmac : mac ≠ 0)
    (hfree : cna.rqueue.filter.findIdx? (·.ref = 0) = some findex)
    (hfid : answers.applyRxFilter = some fid) :
    initQueues answers cna mac = .ok (true, { cna with
      tqueue := ⟨qid, true⟩
      rqueue := ⟨rid, cna.rqueue.filter.modify findex fun f =>
        ⟨fid, f.ref + 1, mac, f.applied + 1⟩, true⟩ }) := by
  rw [initQueues, allocTxRxQueue_done h htx hrx]
  simp only [bind, Except.bind, Bool.true_eq_false, if_false, lock_of_unlocked, h, setRxFilter,
    if_neg hmac, getFreeRxIndices, if_true, hfree, hfid]
  obtain ⟨dev, locked, tqueue, rqueue, vlan, prio, handler, handle⟩ := cna
  obtain rfl : locked = false := h
  rfl

theorem setVlanTag_spec (answers : Answers) (h : cna.fcoeVlanId = 0) (vid : BitVec 16) :
    ∃ group vids, setVlanTag answers cna vid =
      if vlanTagFails answers cna.netdev vid then
        (false, { cna with netdev := { cna.netdev with vlanGroup := group, vids := vids } })
      else (true, { cna with
        netdev := { cna.netdev with vlanGroup := group, vids := vids }
        fcoeVlanId := vid }) := by
  obtain ⟨⟨name, moduleId, pdev, addr, ops, hw, tx, group, reg, kill, add, vids⟩, locked, tqueue,
    rqueue, vlan, prio, handler, handle⟩ := cna
  obtain rfl : vlan = 0 := h
  refine ⟨group || (reg && answers.vlanGroup), if vlanTagFails answers
      ⟨name, moduleId, pdev, addr, ops, hw, tx, group, reg, kill, add, vids⟩ vid then vids
    else if vid = 0 then vids else vids.insert vid, ?_⟩
  cases hmemory : answers.vlanGroup <;> cases group <;> cases reg <;> cases hw <;> cases add <;>
    by_cases hvid : vid = 0#16 <;> simp [setVlanTag, enableHwVlan, vlanTagFails, hmemory, hvid]

/-- The adapter with the properties that are asked for, and with HW VLAN as it is. -/
def withProperties (cna : Cna) (group : Bool) (vids : List (BitVec 16)) (fcoeCntlr : FcoeCntlr) :
    Cna :=
  { cna with
    netdev := { cna.netdev with
      vlanGroup := group
      vids := vids
      devAddr := fcoeCntlr.macAddress }
    fcoeVlanId := BitVec.ofNat 16 (firstVlan 0 fcoeCntlr.vlan)
    fcoeAppPrio := fcoeCntlr.priority.setWidth 8 }

theorem setProperties_eq (answers : Answers) (cna : Cna) (fcoeCntlr : FcoeCntlr) :
    ∃ group vids, setProperties answers cna fcoeCntlr =
      if vlanTagFails answers cna.netdev (BitVec.ofNat 16 (firstVlan 0 fcoeCntlr.vlan)) then
        .ok (false, { cna with
          netdev := { cna.netdev with vlanGroup := group, vids := vids }
          fcoeVlanId := 0 })
      else initQueues answers (cna.withProperties group vids fcoeCntlr) fcoeCntlr.macAddress := by
  have hzero : ({ cna with fcoeVlanId := 0 } : Cna).fcoeVlanId = 0 := rfl
  obtain ⟨group, vids, hset⟩ := setVlanTag_spec answers hzero
    (BitVec.ofNat 16 (firstVlan 0 fcoeCntlr.vlan))
  refine ⟨group, vids, ?_⟩
  rw [setProperties]
  simp only [hset]
  split
  · rfl
  · rfl

theorem same_iff {cna' : Cna} (hidle : cna.Idle) (hidle' : cna'.Idle)
    (hfilter : cna'.rqueue.filter = cna.rqueue.filter) (hhandle : cna'.handle = cna.handle) :
    cna.Same cna' ↔ cna'.fcoeVlanId = cna.fcoeVlanId ∧ cna'.fcoeAppPrio = cna.fcoeAppPrio ∧
      cna'.netdev.devAddr = cna.netdev.devAddr := by
  constructor
  · exact fun h => ⟨h.vlan, h.priority, h.address⟩
  · rintro ⟨hvlan, hpriority, haddress⟩
    refine ⟨hhandle, ?_, ?_, hfilter, hvlan, hpriority, haddress⟩
    · rw [txQueue, txQueue, hidle.1, hidle'.1]
      rfl
    · rw [rxQueue, rxQueue, hidle.2.1, hidle'.2.1]
      rfl

theorem setProperties_spec (answers : Answers) (fcoeCntlr : FcoeCntlr) (h : cna.locked = false)
    (hidle : cna.Idle) (hlength : cna.rqueue.filter.length = cnaMaxFilterPerQueue) :
    (setProperties answers cna fcoeCntlr = .error .deadlock ∧
      ¬cna.PropertiesCareful answers fcoeCntlr) ∨
    (∃ cna', setProperties answers cna fcoeCntlr = .ok (false, cna') ∧ cna'.locked = false ∧
      cna'.netdev.moduleId = cna.netdev.moduleId ∧ cna'.rqueue.filter = cna.rqueue.filter ∧
      cna'.handle = cna.handle ∧
      (cna.PropertiesCareful answers fcoeCntlr ↔ cna'.Idle ∧ cna.Same cna')) ∨
    ∃ cna', setProperties answers cna fcoeCntlr = .ok (true, cna') ∧
      cna.PropertiesCareful answers fcoeCntlr ∧ cna'.locked = false ∧
      cna'.netdev.moduleId = cna.netdev.moduleId ∧
      cna'.rqueue.filter.length = cnaMaxFilterPerQueue ∧
      (∀ f ∈ cna'.rqueue.filter, f.ref = 0 ∨ f.ref = 1) ∧ cna'.InPlace := by
  obtain ⟨group, vids, hset⟩ := setProperties_eq answers cna fcoeCntlr
  rw [hset, PropertiesCareful]
  split
  · refine .inr (.inl ⟨_, rfl, h, rfl, rfl, rfl, ?_⟩)
    have hidle' : ({ cna with
        netdev := { cna.netdev with vlanGroup := group, vids := vids }
        fcoeVlanId := 0 } : Cna).Idle := hidle
    rw [and_iff_right hidle', same_iff hidle hidle' rfl rfl]
    exact ⟨fun hvlan => ⟨hvlan.symm, rfl, rfl⟩, fun hsame => hsame.1.symm⟩
  have hproperties : ∀ cna' : Cna,
      cna'.fcoeVlanId = (cna.withProperties group vids fcoeCntlr).fcoeVlanId →
      cna'.fcoeAppPrio = (cna.withProperties group vids fcoeCntlr).fcoeAppPrio →
      cna'.netdev = (cna.withProperties group vids fcoeCntlr).netdev →
      (cna.HasProperties fcoeCntlr ↔ cna'.fcoeVlanId = cna.fcoeVlanId ∧
        cna'.fcoeAppPrio = cna.fcoeAppPrio ∧ cna'.netdev.devAddr = cna.netdev.devAddr) :=
    fun cna' hvlan hpriority hnetdev => by
      rw [hvlan, hpriority, hnetdev]
      exact ⟨fun ⟨h₁, h₂, h₃⟩ => ⟨h₁.symm, h₂.symm, h₃.symm⟩,
        fun ⟨h₁, h₂, h₃⟩ => ⟨h₁.symm, h₂.symm, h₃.symm⟩⟩
  have hunlocked : (cna.withProperties group vids fcoeCntlr).locked = false := h
  have hidle₁ : (cna.withProperties group vids fcoeCntlr).Idle := hidle
  cases htx : answers.allocTx with
  | none =>
    rw [if_pos rfl, initQueues, allocTxRxQueue_noTx hunlocked hidle₁ htx]
    refine .inr (.inl ⟨_, rfl, h, rfl, rfl, rfl, ?_⟩)
    rw [and_iff_right hidle₁, same_iff hidle hidle₁ rfl rfl]
    exact hproperties _ rfl rfl rfl
  | some qid =>
  rw [if_neg (Option.some_ne_none qid)]
  cases hrx : answers.allocRx with
  | none =>
    rw [if_pos rfl, initQueues, allocTxRxQueue_noRx hunlocked hidle₁ htx hrx]
    refine .inr (.inl ⟨_, rfl, h, rfl, rfl, rfl, ?_⟩)
    cases hfree : answers.freeTx with
    | false =>
      -- the TX queue stays allocated
      refine iff_of_false (fun hand => Bool.false_ne_true hand.1) fun hand => ?_
      cases hand.1.1
    | true =>
      have hidle₂ : { cna.withProperties group vids fcoeCntlr with
          tqueue := ⟨qid, !true⟩ : Cna }.Idle := ⟨rfl, hidle.2⟩
      rw [and_iff_right rfl, and_iff_right hidle₂, same_iff hidle hidle₂ rfl rfl]
      exact hproperties _ rfl rfl rfl
  | some rid =>
  rw [if_neg (Option.some_ne_none rid)]
  by_cases hmac : fcoeCntlr.macAddress = 0
  · exact .inl ⟨initQueues_deadlock hunlocked htx hrx (.inl hmac), fun hand => hand.1 hmac⟩
  obtain ⟨f, fs, hfs⟩ := List.exists_cons_of_length_eq_add_one hlength
  have hall : ∀ g ∈ f :: fs, g.ref = 0 := hfs ▸ hidle.2.2
  have hfree : cna.rqueue.filter.findIdx? (·.ref = 0) = some 0 := by
    rw [hfs, List.findIdx?_cons, decide_eq_true (hall f List.mem_cons_self)]
    rfl
  cases hfid : answers.applyRxFilter with
  | none =>
    exact .inl ⟨initQueues_deadlock hunlocked htx hrx (.inr (.inr hfid)), fun hand => hand.2 rfl⟩
  | some fid =>
    have hfilter : (cna.rqueue.filter.modify 0 fun f =>
        ⟨fid, f.ref + 1, fcoeCntlr.macAddress, f.applied + 1⟩) =
        ⟨fid, 1, fcoeCntlr.macAddress, f.applied + 1⟩ :: fs := by
      rw [hfs, List.modify_zero_cons, hall f List.mem_cons_self, Int.zero_add]
    refine .inr (.inr ⟨_, initQueues_done hunlocked htx hrx hmac hfree hfid,
      ⟨hmac, Option.some_ne_none fid⟩, h, rfl, ?_, fun g hg => ?_, rfl, rfl, ?_⟩)
    · rw [List.length_modify]
      exact hlength
    · have hg : g ∈ ⟨fid, 1, fcoeCntlr.macAddress, f.applied + 1⟩ :: fs := hfilter ▸ hg
      rcases List.mem_cons.mp hg with rfl | hg
      · exact .inr rfl
      · exact .inl (hall g (List.mem_cons_of_mem f hg))
    · exact ⟨⟨fid, 1, fcoeCntlr.macAddress, f.applied + 1⟩, hfilter ▸ List.mem_cons_self, rfl, rfl⟩

theorem clearFilters_spec (answers : Answers) (k : Nat) {fs : List RxFilterInfo}
    (hsingle : ∀ f ∈ fs, f.ref = 0 ∨ f.ref = 1) :
    ((clearFilters answers false k fs).1 = true ↔
      ∀ f ∈ fs.zipIdx k, f.1.ref ≠ 0 → answers.removeRxFilter f.2 = true) ∧
    (clearFilters answers false k fs).2.length = fs.length ∧
    ((clearFilters answers false k fs).1 = true →
      ∀ f ∈ (clearFilters answers false k fs).2, f.ref = 0) := by
  induction fs generalizing k with
  | nil => exact ⟨iff_of_true rfl nofun, rfl, fun _ => nofun⟩
  | cons f fs ih =>
    obtain ⟨hiff, hlength, hclear⟩ := ih (k + 1) fun g hg => hsingle g (List.mem_cons_of_mem _ hg)
    have hf : f.ref = 0 ∨ f.ref = 1 := hsingle f List.mem_cons_self
    have hall : (∀ g ∈ (f :: fs).zipIdx k, g.1.ref ≠ 0 → answers.removeRxFilter g.2 = true) ↔
        (f.ref ≠ 0 → answers.removeRxFilter k = true) ∧
          ∀ g ∈ fs.zipIdx (k + 1), g.1.ref ≠ 0 → answers.removeRxFilter g.2 = true := by
      rw [List.zipIdx_cons, List.forall_mem_cons]
    rw [hall, ← hiff, clearFilters]
    simp only [Bool.false_eq_true, if_false]
    split
    · next hzero =>
      refine ⟨(and_iff_right fun hne => absurd hzero hne).symm, congrArg (· + 1) hlength, ?_⟩
      exact fun hok => List.forall_mem_cons.mpr ⟨hzero, hclear hok⟩
    · next hne =>
      split
      · next hrefused =>
        refine ⟨iff_of_false nofun fun hand => ?_, congrArg (· + 1) hlength, nofun⟩
        rw [hand.1 hne] at hrefused
        cases hrefused
      · next hremoved =>
        have hremoved : answers.removeRxFilter k = true := Bool.not_eq_false _ ▸ hremoved
        refine ⟨(and_iff_right fun _ => hremoved).symm, congrArg (· + 1) hlength, ?_⟩
        have hlast : f.ref - 1 = 0 := by omega
        exact fun hok => List.forall_mem_cons.mpr ⟨hlast, hclear hok⟩

theorem clearProperties_spec (answers : Answers) (h : cna.locked = false)
    (htx : cna.tqueue.active = true) (hrx : cna.rqueue.active = true)
    (hsingle : ∀ f ∈ cna.rqueue.filter, f.ref = 0 ∨ f.ref = 1) :
    ∃ ok cna', clearProperties answers cna false = .ok (ok, cna') ∧
      (ok = true ↔ cna.ReleaseCareful answers) ∧ cna'.handle = cna.handle ∧
      (ok = true → cna'.locked = false ∧ cna'.netdev = cna.netdev ∧ cna'.Idle ∧
        cna'.rqueue.filter.length = cna.rqueue.filter.length) := by
  have hfilters := clearFilters_spec answers 0 hsingle
  rcases hcleared : clearFilters answers false 0 cna.rqueue.filter with ⟨removed, filter⟩
  rw [hcleared] at hfilters
  obtain ⟨hiff, hlength, hclear⟩ := hfilters
  have hclearRx : clearRxFilter answers cna false =
      .ok (removed, { cna with rqueue := { cna.rqueue with filter := filter } }) := by
    rw [clearRxFilter]
    simp only [bind, Except.bind, lock_of_unlocked h, hrx, if_true, hcleared]
    obtain ⟨dev, locked, tqueue, rqueue, vlan, prio, handler, handle⟩ := cna
    obtain rfl : locked = false := h
    rfl
  rw [clearProperties]
  simp only [bind, Except.bind, hclearRx]
  cases removed with
  | false =>
    refine ⟨false, _, rfl, iff_of_false nofun fun hcareful => ?_, rfl, nofun⟩
    cases hiff.mpr hcareful.1
  | true =>
    refine ⟨_, _, freeTxRxQueue_spec answers h, ?_, rfl, fun hok => ?_⟩
    · rw [htx, hrx, ReleaseCareful, ← hiff]
      simp
    · rw [htx, hrx] at hok
      obtain ⟨hfreeTx, hfreeRx⟩ : answers.freeTx = true ∧ answers.freeRx = true := by simpa using hok
      refine ⟨h, rfl, ⟨?_, ?_, hclear rfl⟩, hlength⟩
      · rw [htx, hfreeTx]
        rfl
      · rw [hrx, hfreeRx]
        rfl

end Queues

end Cna

/-! ## The invariant -/

structure CnaInv (s : CnaState) : Prop where
  unlocked : ∀ a, (s.cnas a).locked = false
  length : ∀ a, (s.cnas a).rqueue.filter.length = cnaMaxFilterPerQueue
  single : ∀ a, ∀ f ∈ (s.cnas a).rqueue.filter, f.ref = 0 ∨ f.ref = 1
  whole : ∀ a contlr, (s.cnas a).handle = some contlr → contlr.cna = a ∧
    s.HeldFor a [(s.cnas a).netdev.moduleId, contlr.fcoe.moduleId] ∧ (s.cnas a).InPlace
  nothing : ∀ a, (s.cnas a).handle = none → s.HeldFor a [] ∧ (s.cnas a).Idle

open CnaState

section Requests

variable {s s' : CnaState} {a : Nat} {cna : Cna} {answers : Answers} {fcoeCntlr : FcoeCntlr}
  {vmnicName : List Char} {vnports : Int}

@[simp]
theorem CnaState.set_self (s : CnaState) (a : Nat) (cna : Cna) : (s.set a cna).cnas a = cna :=
  Function.update_self _ _ _

theorem CnaState.set_other {b : Nat} (s : CnaState) (cna : Cna) (hb : b ≠ a) :
    (s.set a cna).cnas b = s.cnas b :=
  Function.update_of_ne hb _ _

theorem CnaInv.controllersWhole (h : CnaInv s) : ControllersWhole s where
  exactly a := by
    constructor
    · intro hsome
      obtain ⟨contlr, hcontlr⟩ := Option.isSome_iff_exists.mp hsome
      obtain ⟨-, hheld, hplace⟩ := h.whole a contlr hcontlr
      exact ⟨⟨_, hheld⟩, hplace⟩
    · rintro ⟨-, htx, -⟩
      by_contra hnone
      rw [Option.isSome_iff_ne_none, not_not] at hnone
      rw [(h.nothing a hnone).2.1] at htx
      cases htx
  held a contlr hcontlr := (h.whole a contlr hcontlr).2.1
  nothing a hnone := h.nothing a hnone

theorem CnaInv.init (adapters : List Nat) (netdev : Nat → NetDevice) :
    CnaInv (.init adapters netdev) := by
  refine ⟨fun _ => rfl, fun _ => rfl, fun _ f hf => ?_, fun _ _ => nofun,
    fun _ _ => ⟨fun _ => rfl, rfl, rfl, fun f hf => ?_⟩⟩
  · rw [(List.mem_replicate.mp hf).2]
    exact .inl rfl
  · rw [(List.mem_replicate.mp hf).2]

theorem CnaInv.update (h : CnaInv s) (hcnas : s'.cnas = Function.update s.cnas a cna)
    (hothers : ∀ b m, b ≠ a → s'.references.count (m, b) = s.references.count (m, b))
    (hunlocked : cna.locked = false) (hlength : cna.rqueue.filter.length = cnaMaxFilterPerQueue)
    (hsingle : ∀ f ∈ cna.rqueue.filter, f.ref = 0 ∨ f.ref = 1)
    (hwhole : ∀ contlr, cna.handle = some contlr → contlr.cna = a ∧
      s'.HeldFor a [cna.netdev.moduleId, contlr.fcoe.moduleId] ∧ cna.InPlace)
    (hnothing : cna.handle = none → s'.HeldFor a [] ∧ cna.Idle) : CnaInv s' := by
  have hself : s'.cnas a = cna := by rw [hcnas, Function.update_self]
  have hother : ∀ b, b ≠ a → s'.cnas b = s.cnas b := fun b hb => by
    rw [hcnas, Function.update_of_ne hb]
  have hheld : ∀ b, b ≠ a → ∀ modules, s.HeldFor b modules → s'.HeldFor b modules :=
    fun b hb modules hm m => (hothers b m hb).trans (hm m)
  refine ⟨fun b => ?_, fun b => ?_, fun b => ?_, fun b => ?_, fun b => ?_⟩
  all_goals by_cases hb : b = a
  · rw [hb, hself]
    exact hunlocked
  · rw [hother b hb]
    exact h.unlocked b
  · rw [hb, hself]
    exact hlength
  · rw [hother b hb]
    exact h.length b
  · rw [hb, hself]
    exact hsingle
  · rw [hother b hb]
    exact h.single b
  · rw [hb, hself]
    exact hwhole
  · rw [hother b hb]
    intro contlr hcontlr
    obtain ⟨hcna, hmodules, hplace⟩ := h.whole b contlr hcontlr
    exact ⟨hcna, hheld b hb _ hmodules, hplace⟩
  · rw [hb, hself]
    exact hnothing
  · rw [hother b hb]
    exact fun hnone => ⟨hheld b hb _ (h.nothing b hnone).1, (h.nothing b hnone).2⟩

theorem pair_beq (module m a : Nat) : ((module, a) == (m, a)) = (module == m) := by
  rw [Bool.eq_iff_iff, beq_iff_eq, beq_iff_eq, Prod.mk.injEq, and_iff_left rfl]

/-! ## Creation -/

@[simp]
theorem CnaState.dec_inc (s : CnaState) (module cna : Nat) :
    (s.moduleIncUseCount module cna).moduleDecUseCount module cna = s := by
  rw [moduleDecUseCount, moduleIncUseCount, List.erase_cons_head]

@[simp]
theorem CnaState.dec_set_inc (s : CnaState) (module : Nat) (a : Nat) (cna : Cna) :
    ((s.moduleIncUseCount module a).set a cna).moduleDecUseCount module a = s.set a cna := by
  rw [moduleDecUseCount, set, moduleIncUseCount, List.erase_cons_head]
  rfl

theorem lookup_of_setsProperties {fcoe : FcoeTemplate}
    (hsome : s.setsProperties answers fcoeCntlr = some (a, fcoe)) :
    s.lookupByName fcoeCntlr.vmnicName = some a := by
  obtain ⟨b, hb, hrest⟩ := Option.bind_eq_some_iff.mp hsome
  obtain ⟨fcoe', -, hrest⟩ := Option.bind_eq_some_iff.mp hrest
  split at hrest
  · obtain rfl := (Prod.mk.inj (Option.some.inj hrest)).1
    exact hb
  · cases hrest

theorem createController_spec (s : CnaState) (answers : Answers) (fcoeCntlr : FcoeCntlr)
    (hmodule : ∀ a ok cna, (s.cnas a).handle = none →
      Cna.setProperties answers (s.cnas a) fcoeCntlr = .ok (ok, cna) →
      cna.netdev.moduleId = (s.cnas a).netdev.moduleId) :
    (s.setsProperties answers fcoeCntlr = none ∧
      s.createController answers fcoeCntlr = .ok (false, s)) ∨
    ∃ a fcoe, s.setsProperties answers fcoeCntlr = some (a, fcoe) ∧ (s.cnas a).handle = none ∧
      s.createController answers fcoeCntlr =
        (Cna.setProperties answers (s.cnas a) fcoeCntlr).map fun (ok, cna) =>
          if ok = false then (false, s.set a cna)
          else (true, ((s.moduleIncUseCount (s.cnas a).netdev.moduleId a).moduleIncUseCount
            fcoe.moduleId a).set a { cna with handle := some ⟨a, fcoe⟩, rxHandler := true }) := by
  rw [createController, setsProperties]
  cases hlookup : s.lookupByName fcoeCntlr.vmnicName with
  | none => exact .inl ⟨rfl, by simp⟩
  | some a =>
  cases hfcoe : fcoeLookup answers (s.cnas a).netdev.pdev with
  | none => exact .inl ⟨by simp [hfcoe], by simp [hfcoe]⟩
  | some fcoe =>
  cases hcontlr : answers.contlr with
  | false => exact .inl ⟨by simp, by simp⟩
  | true =>
  cases hhandle : (s.cnas a).handle with
  | some contlr => exact .inl ⟨by simp [hfcoe, hhandle], by simp [hhandle]⟩
  | none =>
  cases hnet : answers.netModule with
  | false => exact .inl ⟨by simp, by simp [hhandle, hfcoe]⟩
  | true =>
  cases htransport : answers.fcoeModule with
  | false => exact .inl ⟨by simp, by simp [hhandle, hfcoe]⟩
  | true =>
  cases hcheck : Cna.checkQueues answers (s.cnas a).netdev with
  | false => exact .inl ⟨by simp [hfcoe, hcheck], by simp [hhandle, hfcoe, hcheck]⟩
  | true =>
    refine .inr ⟨a, fcoe, by simp [hfcoe, hcheck, hhandle], hhandle, ?_⟩
    simp only [hhandle, hfcoe, hcheck]
    cases hset : Cna.setProperties answers (s.cnas a) fcoeCntlr with
    | error fault => rfl
    | ok r =>
      obtain ⟨ok, cna⟩ := r
      cases ok with
      | true => rfl
      | false =>
        have hback := dec_set_inc (s.moduleIncUseCount (s.cnas a).netdev.moduleId a)
          fcoe.moduleId a cna
        simp [bind, Except.bind, pure, Except.pure, Except.map, hback,
          hmodule a false cna hhandle hset]

theorem create_spec (h : CnaInv s) (answers : Answers) (fcoeCntlr : FcoeCntlr) :
    (CnaCareful (.ok s) (.create answers fcoeCntlr) →
      ∃ ok s', s.createController answers fcoeCntlr = .ok (ok, s') ∧ CnaInv s' ∧
        (ok = false → ∀ a, (s.cnas a).Same (s'.cnas a))) ∧
    (RequestRight s (.create answers fcoeCntlr) →
      CnaCareful (.ok s) (.create answers fcoeCntlr)) := by
  have hset : ∀ a, (s.cnas a).handle = none → _ := fun a hnone =>
    Cna.setProperties_spec answers fcoeCntlr (h.unlocked a) (h.nothing a hnone).2 (h.length a)
  have hmodule : ∀ a ok cna, (s.cnas a).handle = none →
      Cna.setProperties answers (s.cnas a) fcoeCntlr = .ok (ok, cna) →
      cna.netdev.moduleId = (s.cnas a).netdev.moduleId := fun a ok cna hnone hok => by
    rcases hset a hnone with ⟨herror, -⟩ | ⟨cna', hfalse, -, hid, -⟩ | ⟨cna', htrue, -, -, hid, -⟩
    · rw [herror] at hok
      cases hok
    · obtain ⟨-, rfl⟩ := Prod.mk.inj (Except.ok.inj (hfalse.symm.trans hok))
      exact hid
    · obtain ⟨-, rfl⟩ := Prod.mk.inj (Except.ok.inj (htrue.symm.trans hok))
      exact hid
  have hsame : ∀ cna : Cna, cna.Same cna := fun cna => ⟨rfl, rfl, rfl, rfl, rfl, rfl, rfl⟩
  rcases createController_spec s answers fcoeCntlr hmodule with ⟨hnone, hcall⟩ |
    ⟨a, fcoe, hsome, hhandle, hcall⟩
  · refine ⟨fun _ => ⟨false, s, hcall, h, fun _ a => hsame _⟩, fun _ p hp => ?_⟩
    rw [hnone] at hp
    cases hp
  -- the guard is about the adapter that is found
  have hguard : CnaCareful (.ok s) (.create answers fcoeCntlr) ↔
      (s.cnas a).PropertiesCareful answers fcoeCntlr := by
    constructor
    · exact fun hall => hall (a, fcoe) hsome
    · intro hcareful p hp
      obtain rfl := Option.some.inj (hsome.symm.trans hp)
      exact hcareful
  rw [hguard, RequestRight, request, hcall]
  rcases hset a hhandle with ⟨herror, hcareless⟩ |
    ⟨cna', hfalse, hunlocked, hid, hfilter, hhandle', hiff⟩ |
    ⟨cna', htrue, hcareful, hunlocked, hid, hlength, hsingle, hplace⟩
  -- the set-up deadlocks
  · refine ⟨fun hcareful => absurd hcareful hcareless, fun ⟨ok, s', hok, _⟩ => ?_⟩
    rw [herror] at hok
    cases hok
  -- the set-up fails, and is to leave nothing
  · rw [hfalse]
    refine ⟨fun hcareful => ⟨false, s.set a cna', rfl, ?_, fun _ b => ?_⟩,
      fun ⟨ok, s', hok, hright⟩ => ?_⟩
    · obtain ⟨hidle, -⟩ := hiff.mp hcareful
      have hnone : cna'.handle = none := hhandle'.trans hhandle
      refine h.update rfl (fun _ _ _ => rfl) hunlocked ?_ ?_ (fun contlr hcontlr => ?_) fun _ => ?_
      · rw [hfilter]
        exact h.length a
      · rw [hfilter]
        exact h.single a
      · rw [hnone] at hcontlr
        cases hcontlr
      · exact ⟨(h.nothing a hhandle).1, hidle⟩
    · by_cases hb : b = a
      · rw [hb, set_self]
        exact (hiff.mp hcareful).2
      · rw [set_other _ _ hb]
        exact hsame _
    · cases hok
      obtain ⟨hwhole, hleft⟩ := hright
      have hnone : ((s.set a cna').cnas a).handle = none := by
        rw [set_self]
        exact hhandle'.trans hhandle
      have hidle := (hwhole.nothing a hnone).2
      have hleft : (s.cnas a).Same ((s.set a cna').cnas a) := hleft rfl a
      rw [set_self] at hidle hleft
      exact hiff.mpr ⟨hidle, hleft⟩
  -- the set-up succeeds, and both modules are held once more
  · rw [htrue]
    refine ⟨fun _ => ⟨true, _, rfl, ?_, nofun⟩, fun _ => hcareful⟩
    refine h.update rfl (fun b m hb => ?_) hunlocked hlength hsingle (fun contlr hcontlr => ?_) nofun
    · have hne : ∀ module, (module, a) ≠ (m, b) := fun module heq => hb (Prod.mk.inj heq).2.symm
      exact (List.count_cons_of_ne (hne _)).trans (List.count_cons_of_ne (hne _))
    · cases hcontlr
      refine ⟨rfl, fun m => ?_, hplace⟩
      have hcount : s.references.count (m, a) = 0 := (h.nothing a hhandle).1 m
      have htaken : ((fcoe.moduleId, a) :: ((s.cnas a).netdev.moduleId, a) :: s.references).count
          (m, a) = [cna'.netdev.moduleId, fcoe.moduleId].count m := by
        rw [hid]
        simp only [List.count_cons, List.count_nil, hcount, pair_beq]
        omega
      exact htaken

/-! ## Destruction -/

theorem destroyController_spec (h : CnaInv s) {contlr : FcoeContlr} (answers : Answers)
    (hcontlr : s.getVmklnxContlr vmnicName = some contlr) :
    ∃ ok s', s.destroyController answers vmnicName 0 = .ok (ok, s') ∧
      (ok = true ↔ (s.cnas contlr.cna).ReleaseCareful answers) ∧ (ok = true → CnaInv s') ∧
      (ok = false → s'.getVmklnxContlr vmnicName ≠ some contlr) := by
  obtain ⟨a, -, hhandle⟩ := Option.bind_eq_some_iff.mp hcontlr
  obtain ⟨rfl, hheld, htx, hrx, -⟩ := h.whole a contlr hhandle
  let cna : Cna := { s.cnas contlr.cna with handle := none, rxHandler := false }
  have hclear : ∃ ok cna', Cna.clearProperties answers cna false = .ok (ok, cna') ∧
      (ok = true ↔ cna.ReleaseCareful answers) ∧ cna'.handle = none ∧
      (ok = true → cna'.locked = false ∧ cna'.netdev = cna.netdev ∧ cna'.Idle ∧
        cna'.rqueue.filter.length = cna.rqueue.filter.length) :=
    Cna.clearProperties_spec answers (h.unlocked _) htx hrx (h.single _)
  obtain ⟨ok, cna', hclear, hiff, hnone, hdone⟩ := hclear
  have hcall : s.destroyController answers vmnicName 0 = .ok (if ok = false then
      (false, s.set contlr.cna cna')
    else (true, ((s.set contlr.cna cna').moduleDecUseCount contlr.fcoe.moduleId
      contlr.cna).moduleDecUseCount cna'.netdev.moduleId contlr.cna)) := by
    rw [destroyController, hcontlr]
    simp only [ne_eq, not_true_eq_false, if_false, bind, Except.bind]
    rw [hclear]
    cases ok <;> rfl
  rw [hcall]
  cases ok with
  | false =>
    refine ⟨false, _, rfl, hiff, nofun, fun _ hfound => ?_⟩
    obtain ⟨b, -, hb⟩ := Option.bind_eq_some_iff.mp hfound
    by_cases heq : b = contlr.cna
    · rw [heq, set_self, hnone] at hb
      cases hb
    · rw [set_other _ _ heq] at hb
      exact heq (h.whole b contlr hb).1.symm
  | true =>
    obtain ⟨hunlocked, hnetdev, hidle, hlength⟩ := hdone rfl
    refine ⟨true, _, rfl, hiff, fun _ => ?_, nofun⟩
    refine h.update rfl (fun b m hb => ?_) hunlocked (hlength.trans (h.length _)) (fun f hf => ?_)
      (fun contlr' hcontlr' => ?_) fun _ => ⟨fun m => ?_, hidle⟩
    · have hne : ∀ module, (m, b) ≠ (module, contlr.cna) := fun module heq => hb (Prod.mk.inj heq).2
      exact (List.count_erase_of_ne (hne _)).trans (List.count_erase_of_ne (hne _))
    · exact .inl (hidle.2.2 f hf)
    · rw [hnone] at hcontlr'
      cases hcontlr'
    · have hcount := hheld m
      have hgiven : ((s.references.erase (contlr.fcoe.moduleId, contlr.cna)).erase
          (cna'.netdev.moduleId, contlr.cna)).count (m, contlr.cna) = [].count m := by
        have hid : cna'.netdev.moduleId = (s.cnas contlr.cna).netdev.moduleId := by rw [hnetdev]
        rw [hid, List.count_erase, List.count_erase, hcount]
        simp only [List.count_cons, List.count_nil, pair_beq]
        omega
      exact hgiven

theorem destroy_spec (h : CnaInv s) (answers : Answers) (vmnicName : List Char) (vnports : Int) :
    (CnaCareful (.ok s) (.destroy answers vmnicName vnports) →
      ∃ ok s', s.destroyController answers vmnicName vnports = .ok (ok, s') ∧ CnaInv s' ∧
        (ok = false → ∀ contlr, s.getVmklnxContlr vmnicName = some contlr →
          s'.getVmklnxContlr vmnicName = some contlr ∧
            ∃ answers s'', s'.destroyController answers vmnicName 0 = .ok (true, s''))) ∧
    (RequestRight s (.destroy answers vmnicName vnports) →
      CnaCareful (.ok s) (.destroy answers vmnicName vnports)) := by
  cases hcontlr : s.getVmklnxContlr vmnicName with
  | none =>
    have hcall : s.destroyController answers vmnicName vnports = .ok (false, s) := by
      rw [destroyController, hcontlr]
    refine ⟨fun _ => ⟨false, s, hcall, h, fun _ _ => nofun⟩, fun _ contlr hsome => ?_⟩
    rw [hcontlr] at hsome
    cases hsome
  | some contlr =>
  by_cases hvnports : vnports = 0
  · rw [hvnports]
    obtain ⟨ok, s', hcall, hiff, hkeep, hlost⟩ := destroyController_spec h answers hcontlr
    have hguard : CnaCareful (.ok s) (.destroy answers vmnicName 0) ↔
        (s.cnas contlr.cna).ReleaseCareful answers := by
      constructor
      · exact fun hall => hall contlr hcontlr rfl
      · intro hcareful contlr' hcontlr' _
        obtain rfl := Option.some.inj (hcontlr.symm.trans hcontlr')
        exact hcareful
    rw [hguard, ← hiff, RequestRight, request, hcall]
    constructor
    · rintro rfl
      exact ⟨true, s', rfl, hkeep rfl, nofun⟩
    · rintro ⟨ok', t, hok, -, hleft⟩
      cases hok
      by_contra hfalse
      have hfalse : ok = false := Bool.not_eq_true _ ▸ hfalse
      exact hlost hfalse (hleft hfalse contlr hcontlr).1
  · have hcall : s.destroyController answers vmnicName vnports = .ok (false, s) := by
      rw [destroyController, hcontlr]
      exact if_pos hvnports
    refine ⟨fun _ => ⟨false, s, hcall, h, fun _ contlr' hcontlr' => ?_⟩,
      fun _ _ _ hzero => absurd hzero hvnports⟩
    cases hcontlr'
    -- when the hosts are gone, a destruction none of whose steps fails succeeds
    obtain ⟨ok, s'', hlater, hiff, -⟩ := destroyController_spec h {} hcontlr
    have hok : ok = true := hiff.mpr ⟨fun _ _ _ => rfl, rfl, rfl⟩
    exact ⟨hcontlr, {}, s'', hok ▸ hlater⟩

end Requests

/-! ## Every run -/

/-- **FCoE controllers.** Where no request has met a failure behind which it does not clean up, the
    controllers are whole, and of the requests that may come next just those that meet none leave
    them so, and if they fail leave what they are to leave. -/
theorem controllers_whole {adapters : List Nat} {netdev : Nat → NetDevice}
    {s : Except CnaFault CnaState} {reqs : List FcoeRequest}
    (hrun : Run (Guarded CnaStep CnaCareful) (.ok (.init adapters netdev)) reqs s) :
    ∃ w, s = .ok w ∧ ControllersWhole w ∧ ∀ req, RequestRight w req ↔ CnaCareful s req := by
  have hspec : ∀ w req, CnaInv w →
      (CnaCareful (.ok w) req → ∃ ok w', w.request req = .ok (ok, w') ∧ CnaInv w') ∧
        (RequestRight w req ↔ CnaCareful (.ok w) req) := fun w req h => by
    cases req with
    | create answers fcoeCntlr =>
      obtain ⟨hkeep, hneed⟩ := create_spec h answers fcoeCntlr
      refine ⟨fun hcareful => ?_, hneed, fun hcareful => ?_⟩
      · obtain ⟨ok, w', hcall, h', -⟩ := hkeep hcareful
        exact ⟨ok, w', hcall, h'⟩
      · obtain ⟨ok, w', hcall, h', hleft⟩ := hkeep hcareful
        exact ⟨ok, w', hcall, h'.controllersWhole, hleft⟩
    | destroy answers vmnicName vnports =>
      obtain ⟨hkeep, hneed⟩ := destroy_spec h answers vmnicName vnports
      refine ⟨fun hcareful => ?_, hneed, fun hcareful => ?_⟩
      · obtain ⟨ok, w', hcall, h', -⟩ := hkeep hcareful
        exact ⟨ok, w', hcall, h'⟩
      · obtain ⟨ok, w', hcall, h', hleft⟩ := hkeep hcareful
        exact ⟨ok, w', hcall, h'.controllersWhole, hleft⟩
  have hinv : ∃ w, s = .ok w ∧ CnaInv w := by
    refine hrun.invariant (I := fun s => ∃ w, s = .ok w ∧ CnaInv w) ?_ ⟨_, rfl, .init adapters netdev⟩
    rintro _ req t ⟨w, rfl, h⟩ ⟨hcareful, hstep⟩
    obtain ⟨ok, w', hcall, h'⟩ := (hspec w req h).1 hcareful
    have hnext : some ((w.request req).map Prod.snd) = some t := hstep
    rw [hcall] at hnext
    exact ⟨w', (Option.some.inj hnext).symm, h'⟩
  obtain ⟨w, rfl, h⟩ := hinv
  exact ⟨w, rfl, h.controllersWhole, fun req => (hspec w req h).2⟩

def vmnic : Nat → NetDevice := fun _ =>
  { name := "vmnic0".toList, moduleId := 1, pdev := 7, devAddr := 5 }

def transport : FcoeTemplate := ⟨2, some [7]⟩

def vlan4 : FcoeCntlr := ⟨3, [16], "vmnic0".toList, 9⟩

/-- A controller is created, not created again, not destroyed while a host is attached, destroyed,
    and then not created with the properties that the adapter has, since no RX queue is left. -/
def wholeRun : List FcoeRequest :=
  [.create { clients := [transport] } vlan4, .create { clients := [transport] } vlan4,
    .destroy {} "vmnic0".toList 1, .destroy {} "vmnic0".toList 0,
    .create { clients := [transport], allocRx := none } vlan4]

theorem controllers_whole_wholeRun :
    ∃ w, Run (Guarded CnaStep CnaCareful) (.ok (.init [0] vmnic)) wholeRun (.ok w) ∧
      (w.cnas 0).fcoeVlanId = 4 ∧ w.references = [] ∧ ControllersWhole w := by
  have hexec : ∃ w, Run.exec (fun s req => if CnaCareful s req then cnaNext? s req else none)
      (.ok (.init [0] vmnic)) wholeRun = some (.ok w) ∧ (w.cnas 0).fcoeVlanId = 4 ∧
      w.references = [] := ⟨_, rfl, rfl, rfl⟩
  obtain ⟨w, hw, hvlan, hreferences⟩ := hexec
  have hsound : ∀ s req t, (if CnaCareful s req then cnaNext? s req else none) = some t →
      Guarded CnaStep CnaCareful s req t := fun s req t h =>
    (guarded_eq_some_iff (T := CnaStep) (fun _ _ _ => Iff.rfl) s req t).mp h
  have hrun := Run.of_exec hsound hw
  obtain ⟨w', hw', hwhole, -⟩ := controllers_whole hrun
  cases hw'
  exact ⟨w, hrun, hvlan, hreferences, hwhole⟩

/-- A destruction fails since the driver does not remove the filter, and the controller is not found
    any more; a creation fails since there is no TX queue, and the address is changed; the filter of
    a creation is refused, and the request does not return. -/
theorem controllers_lost :
    (∃ w, Run CnaStep (.ok (.init [0] vmnic)) [.create { clients := [transport] } vlan4,
          .destroy { removeRxFilter := fun _ => false } "vmnic0".toList 0] (.ok w) ∧
      w.getVmklnxContlr "vmnic0".toList = none ∧ w.references = [(2, 0), (1, 0)] ∧
      ¬ControllersWhole w) ∧
    (∃ w, (init [0] vmnic).request
        (.create { clients := [transport], allocTx := none } vlan4) = .ok (false, w) ∧
      (w.cnas 0).netdev.devAddr = 9 ∧ ((init [0] vmnic).cnas 0).netdev.devAddr = 5 ∧
      ¬RequestRight (.init [0] vmnic)
        (.create { clients := [transport], allocTx := none } vlan4)) ∧
    (init [0] vmnic).request
      (.create { clients := [transport], applyRxFilter := none } vlan4) = .error .deadlock := by
  refine ⟨?_, ?_, rfl⟩
  · have hexec : ∃ w, Run.exec cnaNext? (.ok (.init [0] vmnic))
        [.create { clients := [transport] } vlan4,
          .destroy { removeRxFilter := fun _ => false } "vmnic0".toList 0] = some (.ok w) ∧
        w.getVmklnxContlr "vmnic0".toList = none ∧ w.references = [(2, 0), (1, 0)] ∧
        (w.cnas 0).handle = none := ⟨_, rfl, rfl, rfl, rfl⟩
    obtain ⟨w, hw, hlost, hreferences, hnone⟩ := hexec
    refine ⟨w, Run.of_exec (fun _ _ _ h => h) hw, hlost, hreferences, fun hwhole => ?_⟩
    have hcount := (hwhole.nothing 0 hnone).1 2
    rw [hreferences] at hcount
    exact absurd hcount (by decide)
  · have hcall : ∃ w, (init [0] vmnic).request
        (.create { clients := [transport], allocTx := none } vlan4) = .ok (false, w) ∧
        (w.cnas 0).netdev.devAddr = 9 := ⟨_, rfl, rfl⟩
    obtain ⟨w, hw, haddress⟩ := hcall
    refine ⟨w, hw, haddress, rfl, fun hright => ?_⟩
    obtain ⟨ok, w', hw', -, hleft⟩ := hright
    obtain ⟨rfl, rfl⟩ := Prod.mk.inj (Except.ok.inj (hw.symm.trans hw'))
    have hsame : (w.cnas 0).netdev.devAddr = 5 := (hleft rfl 0).address
    rw [haddress] at hsame
    exact absurd hsame (by decide)

end VmkDrivers.Vmklinux
