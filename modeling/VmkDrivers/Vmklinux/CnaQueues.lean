/-
  VmkDrivers.Vmklinux.CnaQueues

  The queues of a converged adapter, and those that its driver has allocated
  (`linux_cna.c`).

  A set-up that fails is to leave no queue, and a clean-up for a reset nothing
  at all.  But where the filter is refused, `CNAInitQueues` calls
  `CNAFreeTXRXQueue` with the lock that it takes (`queues_deadlock`), and where
  the release of the tx queue fails at a reset, the flag of the rx queue is
  cleared in the place of its own.  `queue_calls_sound_iff` says exactly which
  calls do what they are to.
-/

import VmkDrivers.Vmklinux.CnaFilters

namespace VmkDrivers.Vmklinux

open VmkDrivers.Lib

structure QueuedCna where
  cna : Cna
  tx : List Nat
  rx : List Nat

namespace QueuedCna

def of (cna : Cna) : QueuedCna where
  cna := cna
  tx := if cna.tqueue.active then [cna.tqueue.txQueueId] else []
  rx := if cna.rqueue.active then [cna.rqueue.rxQueueId] else []

/-- `CNAFreeTXRXQueue`, where it is not for a reset -/
def freeTxRxQueue (answers : Answers) (q : QueuedCna) : Except CnaFault (Bool × QueuedCna) := do
  let (ok, cna) ← Cna.freeTxRxQueue answers q.cna false
  return (ok, {
    cna := cna
    tx := if q.cna.tqueue.active && answers.freeTx then q.tx.erase q.cna.tqueue.txQueueId else q.tx
    rx := if q.cna.rqueue.active && answers.freeRx then q.rx.erase q.cna.rqueue.rxQueueId else q.rx })

/-- `CNAAllocTXRXQueue` -/
def allocTxRxQueue (answers : Answers) (q : QueuedCna) : Except CnaFault (Bool × QueuedCna) := do
  match answers.allocTx with
  | none =>
    let (_, q) ← freeTxRxQueue answers q
    return (false, q)
  | some qid =>
    let cna ← q.cna.lock
    let q := { q with
      cna := { cna with tqueue := ⟨qid, true⟩ }.unlock
      tx := qid :: q.tx }
    match answers.allocRx with
    | none =>
      let (_, q) ← freeTxRxQueue answers q
      return (false, q)
    | some qid =>
      let cna ← q.cna.lock
      return (true, { q with
        cna := { cna with rqueue := { cna.rqueue with rxQueueId := qid, active := true } }.unlock
        rx := qid :: q.rx })

/-- `CNAInitQueues` -/
def initQueues (answers : Answers) (q : QueuedCna) (macAddress : BitVec 48) :
    Except CnaFault (Bool × QueuedCna) := do
  let (ok, q) ← allocTxRxQueue answers q
  if ok = false then return (false, q)
  else
    let cna ← q.cna.lock
    let (ok, cna) := Cna.setRxFilter answers cna macAddress
    let q := { q with cna := cna }
    if ok = false then
      -- with the lock held
      let (ok, q) ← freeTxRxQueue answers q
      return (ok, { q with cna := q.cna.unlock })
    else return (true, { q with cna := q.cna.unlock })

/-- The queues are allocated and active, and there is a filter for the address. -/
structure Ready (q : QueuedCna) (mac : BitVec 48) : Prop where
  tx : q.cna.tqueue.active = true ∧ q.cna.tqueue.txQueueId ∈ q.tx
  rx : q.cna.rqueue.active = true ∧ q.cna.rqueue.rxQueueId ∈ q.rx
  filter : ∃ f ∈ q.cna.rqueue.filter, f.macAddr = mac ∧ f.ref ≠ 0 ∧ 0 < f.applied

structure Idle (q : QueuedCna) : Prop where
  tx : q.tx = [] ∧ q.cna.tqueue.active = false
  rx : q.rx = [] ∧ q.cna.rqueue.active = false

end QueuedCna

inductive QueueCall where
  /-- `CNAInitQueues`, for an address -/
  | init (macAddress : BitVec 48)
  /-- `vmklnx_cna_reinit_queues` -/
  | reinit
  /-- `vmklnx_cna_cleanup_queues` -/
  | cleanup
deriving DecidableEq, Repr

/-! ## What is promised -/

/-- `CNAInitQueues` returns, and `VMK_OK` exactly where everything is set up; else there is
    nothing. -/
def InitSound (answers : Answers) (cna : Cna) (mac : BitVec 48) : Prop :=
  ∃ ok q, (QueuedCna.of cna).initQueues answers mac = .ok (ok, q) ∧
    (ok = true ↔ q.Ready mac) ∧ (ok = false → q.Idle)

def CleanupSound (answers : Answers) (cna : Cna) : Prop :=
  ∃ ok cna', cna.cleanupQueues answers = .ok (ok, cna') ∧
    cna'.tqueue.active = false ∧ cna'.rqueue.active = false ∧ ∀ f ∈ cna'.rqueue.filter, f.ref = 0

def QueueCall.Sound (answers : Answers) (cna : Cna) : QueueCall → Prop
  | .init mac => InitSound answers cna mac
  | .reinit => InitSound answers cna cna.netdev.devAddr
  | .cleanup => CleanupSound answers cna

/-! ## The calls that do it -/

def Cna.Releases (answers : Answers) (cna : Cna) : Prop :=
  (cna.tqueue.active = true → answers.freeTx = true) ∧
    (cna.rqueue.active = true → answers.freeRx = true)

open Cna

/-- No queue is allocated, and those that were active are released; or the tx queue is the only one,
    and is released; or both are, and the filter is not refused. -/
def InitFine (answers : Answers) (cna : Cna) (mac : BitVec 48) : Prop :=
  match answers.allocTx, answers.allocRx with
  | none, _ => cna.Releases answers
  | some _, none =>
    cna.tqueue.active = false ∧ answers.freeTx = true ∧
      (cna.rqueue.active = true → answers.freeRx = true)
  | some _, some _ => cna.SetsFilter answers mac

/-- The tx queue is released, and where the rx queue is not active, the slots are free. -/
def CleanupFine (answers : Answers) (cna : Cna) : Prop :=
  (cna.tqueue.active = true → answers.freeTx = true) ∧
    (cna.rqueue.active = true ∨ ∀ f ∈ cna.rqueue.filter, f.ref = 0)

def QueueCall.Fine (answers : Answers) (cna : Cna) : QueueCall → Prop
  | .init mac => InitFine answers cna mac
  | .reinit => InitFine answers cna cna.netdev.devAddr
  | .cleanup => CleanupFine answers cna

/-! ## The set-up -/

namespace QueuedCna

variable {answers : Answers} {q : QueuedCna} {cna : Cna} {mac : BitVec 48} {qid rid : Nat}

def forget (r : Bool × QueuedCna) : Bool × Cna := (r.1, r.2.cna)

theorem allocTxRxQueue_forget (answers : Answers) (q : QueuedCna) :
    (q.allocTxRxQueue answers).map forget = Cna.allocTxRxQueue answers q.cna := by
  rw [allocTxRxQueue, Cna.allocTxRxQueue]
  cases answers.allocTx with
  | none =>
    simp only [freeTxRxQueue]
    rcases Cna.freeTxRxQueue answers q.cna false with fault | ⟨ok, cna⟩ <;> rfl
  | some qid =>
    rcases q.cna.lock with fault | cna
    · rfl
    cases answers.allocRx with
    | none =>
      rcases Cna.freeTxRxQueue answers _ false with fault | ⟨ok, cna⟩ <;> rfl
    | some rid =>
      simp only [ok_bind]
      rcases lock _ with fault | cna <;> rfl

theorem initQueues_forget (answers : Answers) (q : QueuedCna) (mac : BitVec 48) :
    (q.initQueues answers mac).map forget = Cna.initQueues answers q.cna mac := by
  rw [initQueues, Cna.initQueues, ← allocTxRxQueue_forget]
  rcases q.allocTxRxQueue answers with fault | ⟨ok, q⟩
  · rfl
  cases ok with
  | false => rfl
  | true =>
    simp only [Except.map, forget, ok_bind, Bool.true_eq_false, if_false]
    rcases q.cna.lock with fault | cna
    · rfl
    simp only [ok_bind, freeTxRxQueue]
    rcases setRxFilter answers cna mac with ⟨ok, cna⟩
    cases ok with
    | true => rfl
    | false =>
      rcases Cna.freeTxRxQueue answers cna false with fault | ⟨ok, cna⟩ <;> rfl

theorem freeTxRxQueue_eq (h : q.cna.locked = false) : q.freeTxRxQueue answers = .ok
    ((!q.cna.tqueue.active || answers.freeTx) && (!q.cna.rqueue.active || answers.freeRx), {
      cna := { q.cna with
        tqueue := { q.cna.tqueue with active := q.cna.tqueue.active && !answers.freeTx }
        rqueue := { q.cna.rqueue with active := q.cna.rqueue.active && !answers.freeRx } }
      tx := if q.cna.tqueue.active && answers.freeTx then q.tx.erase q.cna.tqueue.txQueueId
        else q.tx
      rx := if q.cna.rqueue.active && answers.freeRx then q.rx.erase q.cna.rqueue.rxQueueId
        else q.rx }) := by
  rw [freeTxRxQueue, freeTxRxQueue_spec answers h]
  rfl

theorem initQueues_noTx (h : cna.locked = false) (htx : answers.allocTx = none) :
    ∃ q, (of cna).initQueues answers mac = .ok (false, q) ∧
      (q.Idle ↔ cna.Releases answers) := by
  rw [initQueues, allocTxRxQueue, htx]
  simp only [freeTxRxQueue_eq (q := of cna) h, ok_bind]
  refine ⟨_, rfl, ?_⟩
  constructor
  -- a queue that is not active is not in the list, and one that is stays where its release fails
  · rintro ⟨⟨-, htx⟩, -, hrx⟩
    constructor
    · intro hactive
      simpa [of, hactive] using htx
    · intro hactive
      simpa [of, hactive] using hrx
  · rintro ⟨hfreeTx, hfreeRx⟩
    constructor
    · cases hactive : cna.tqueue.active with
      | false => simp [of, hactive]
      | true => simp [of, hactive, hfreeTx hactive]
    · cases hactive : cna.rqueue.active with
      | false => simp [of, hactive]
      | true => simp [of, hactive, hfreeRx hactive]

theorem initQueues_noRx (h : cna.locked = false) (htx : answers.allocTx = some qid)
    (hrx : answers.allocRx = none) :
    ∃ q, (of cna).initQueues answers mac = .ok (false, q) ∧
      (q.Idle ↔ cna.tqueue.active = false ∧ answers.freeTx = true ∧
        (cna.rqueue.active = true → answers.freeRx = true)) := by
  rw [initQueues, allocTxRxQueue, htx]
  have hlock : (of cna).cna.lock = .ok { cna with locked := true } := lock_of_unlocked h
  simp only [hlock, ok_bind, hrx]
  rw [freeTxRxQueue_eq rfl]
  refine ⟨_, rfl, ?_⟩
  constructor
  -- the new queue is active, so its release has to go well; one before it is lost
  · rintro ⟨⟨hlist, htx⟩, -, hrx⟩
    have hfree : answers.freeTx = true := by simpa [unlock] using htx
    refine ⟨?_, hfree, fun hactive => ?_⟩
    · simpa [unlock, of, hfree] using hlist
    · simpa [unlock, hactive] using hrx
  · rintro ⟨hidle, hfreeTx, hfreeRx⟩
    constructor
    · simp [unlock, of, hidle, hfreeTx]
    · cases hactive : cna.rqueue.active with
      | false => simp [of, unlock, hactive]
      | true => simp [of, unlock, hactive, hfreeRx hactive]

theorem allocTxRxQueue_done (h : cna.locked = false) (htx : answers.allocTx = some qid)
    (hrx : answers.allocRx = some rid) :
    (of cna).allocTxRxQueue answers = .ok (true, {
      cna := { cna with
        tqueue := ⟨qid, true⟩
        rqueue := { cna.rqueue with rxQueueId := rid, active := true } }
      tx := qid :: (of cna).tx
      rx := rid :: (of cna).rx }) := by
  have hlock : (of cna).cna.lock = .ok { cna with locked := true } := lock_of_unlocked h
  rw [allocTxRxQueue, htx]
  simp only [hlock, ok_bind, hrx]
  obtain ⟨dev, locked, tqueue, rqueue, vlan, prio, handler, handle⟩ := cna
  obtain rfl : locked = false := h
  rfl

theorem initQueues_ready (h : cna.locked = false) (hsets : cna.SetsFilter answers mac) :
    ∃ q, (of cna).initQueues answers mac = .ok (true, q) ∧ q.Ready mac := by
  obtain ⟨htx, hrx, hmac, ⟨f, hf, href⟩, hfid⟩ := hsets
  obtain ⟨qid, htx⟩ := Option.isSome_iff_exists.mp htx
  obtain ⟨rid, hrx⟩ := Option.isSome_iff_exists.mp hrx
  obtain ⟨fid, hfid⟩ := Option.isSome_iff_exists.mp hfid
  cases hfind : cna.rqueue.filter.findIdx? (·.ref = 0) with
  | none =>
    have hused := List.findIdx?_eq_none_iff.mp hfind f hf
    simp [href] at hused
  | some findex =>
  rw [initQueues, allocTxRxQueue_done h htx hrx]
  simp only [ok_bind, Bool.true_eq_false, if_false, lock_of_unlocked, h, setRxFilter,
    if_neg hmac, getFreeRxIndices, if_true, hfind, hfid]
  refine ⟨_, rfl, ⟨rfl, List.mem_cons_self⟩, ⟨rfl, List.mem_cons_self⟩, ?_⟩
  -- the slot that was free
  obtain ⟨pre, g, post, -, hfree, hmodify⟩ := modify_of_findIdx? hfind
  have hgref : g.ref = 0 := of_decide_eq_true hfree
  refine ⟨⟨fid, g.ref + 1, mac, g.applied + 1⟩, ?_, rfl, ?_, Nat.succ_pos _⟩
  · rw [hmodify]
    exact List.mem_append_right _ List.mem_cons_self
  · change g.ref + 1 ≠ 0
    omega

theorem initQueues_deadlock (h : cna.locked = false) (htx : answers.allocTx = some qid)
    (hrx : answers.allocRx = some rid) (hrefused : ¬cna.SetsFilter answers mac) :
    (of cna).initQueues answers mac = .error .deadlock := by
  have hfilter : mac = 0 ∨ cna.rqueue.filter.findIdx? (·.ref = 0) = none ∨
      answers.applyRxFilter = none := by
    by_contra hnone
    push Not at hnone
    obtain ⟨hmac, hfind, hfid⟩ := hnone
    obtain ⟨findex, hfind⟩ := Option.ne_none_iff_exists'.mp hfind
    obtain ⟨pre, f, post, hfs, hfree, -⟩ := modify_of_findIdx? hfind
    have hf : f ∈ cna.rqueue.filter := hfs ▸ List.mem_append_right _ List.mem_cons_self
    exact hrefused ⟨by simp [htx], by simp [hrx], hmac, ⟨f, hf, of_decide_eq_true hfree⟩,
      Option.isSome_iff_ne_none.mpr hfid⟩
  -- the set-up itself fails, whatever queues the driver has
  have hforget := (initQueues_forget answers (of cna) mac).trans
    (Cna.initQueues_deadlock h htx hrx hfilter)
  cases hinit : (of cna).initQueues answers mac with
  | error fault =>
    cases fault
    rfl
  | ok r =>
    rw [hinit] at hforget
    cases hforget

theorem not_ready_of_idle (h : q.Idle) : ¬q.Ready mac := fun hready =>
  Bool.false_ne_true (h.tx.2.symm.trans hready.tx.1)

end QueuedCna

section Calls

variable {answers : Answers} {cna : Cna} {mac : BitVec 48}

theorem initSound_of_failed {q : QueuedCna}
    (hinit : (QueuedCna.of cna).initQueues answers mac = .ok (false, q)) :
    InitSound answers cna mac ↔ q.Idle := by
  constructor
  · rintro ⟨ok, q', hq', -, hidle⟩
    obtain ⟨rfl, rfl⟩ := Prod.mk.inj (Except.ok.inj (hinit.symm.trans hq'))
    exact hidle rfl
  · intro hidle
    refine ⟨false, q, hinit, ⟨nofun, fun hready => ?_⟩, fun _ => hidle⟩
    exact absurd hready (QueuedCna.not_ready_of_idle hidle)

theorem initSound_iff (h : cna.locked = false) :
    InitSound answers cna mac ↔ InitFine answers cna mac := by
  unfold InitFine
  split
  · next htx =>
    obtain ⟨q, hinit, hidle⟩ := QueuedCna.initQueues_noTx h htx
    rw [initSound_of_failed hinit, hidle]
  · next htx hrx =>
    obtain ⟨q, hinit, hidle⟩ := QueuedCna.initQueues_noRx h htx hrx
    rw [initSound_of_failed hinit, hidle]
  · next htx hrx =>
    by_cases hsets : cna.SetsFilter answers mac
    · obtain ⟨q, hinit, hready⟩ := QueuedCna.initQueues_ready h hsets
      exact iff_of_true ⟨true, q, hinit, iff_of_true rfl hready, nofun⟩ hsets
    · refine iff_of_false ?_ hsets
      rintro ⟨ok, q, hinit, -⟩
      rw [QueuedCna.initQueues_deadlock h htx hrx hsets] at hinit
      cases hinit

/-! ## The clean-up -/

theorem freeTxRxQueue_reset (answers : Answers) (cna : Cna) (h : cna.locked = false) :
    ∃ ok, freeTxRxQueue answers cna true = .ok (ok, { cna with
      tqueue := { cna.tqueue with active := cna.tqueue.active && !answers.freeTx }
      rqueue := { cna.rqueue with active := false } }) := by
  obtain ⟨dev, locked, ⟨tid, tx⟩, ⟨rid, filter, rx⟩, vlan, prio, handler, handle⟩ := cna
  obtain rfl : locked = false := h
  -- either queue is active or not, and its release goes well or not
  cases tx <;> cases rx <;> cases hfreeTx : answers.freeTx <;> cases hfreeRx : answers.freeRx <;>
    simp [freeTxRxQueue, lock, unlock, bind, Except.bind, pure, Except.pure, hfreeTx, hfreeRx]

theorem cleanupQueues_eq (answers : Answers) (h : cna.locked = false) :
    ∃ ok, cna.cleanupQueues answers = .ok (ok, { cna with
      tqueue := { cna.tqueue with active := cna.tqueue.active && !answers.freeTx }
      rqueue := { cna.rqueue with
        filter :=
          if cna.rqueue.active then
            (cna.resetHardware.rqueue.filter.zipIdx).map (clearSlot answers true)
          else cna.resetHardware.rqueue.filter
        active := false } }) := by
  obtain ⟨ok, hclear⟩ := clearRxFilter_spec answers cna.resetHardware h true
  rw [cleanupQueues, clearProperties, hclear, ok_bind]
  simp only [Bool.true_eq_false, and_false, if_false]
  exact freeTxRxQueue_reset answers { cna.resetHardware with
    rqueue := { cna.resetHardware.rqueue with
      filter :=
        if cna.rqueue.active then
          (cna.resetHardware.rqueue.filter.zipIdx).map (clearSlot answers true)
        else cna.resetHardware.rqueue.filter } } h

theorem clearSlot_reset (answers : Answers) (p : RxFilterInfo × Nat) :
    (clearSlot answers true p).ref = 0 := by
  unfold clearSlot
  split
  · assumption
  · rfl

theorem cleanupSound_iff (h : cna.locked = false) :
    CleanupSound answers cna ↔ CleanupFine answers cna := by
  obtain ⟨ok, hclean⟩ := cleanupQueues_eq answers h
  -- without an active rx queue the filters are not gone through
  have hslots : (∀ f ∈ (if cna.rqueue.active then
        (cna.resetHardware.rqueue.filter.zipIdx).map (clearSlot answers true)
      else cna.resetHardware.rqueue.filter), f.ref = 0) ↔
      cna.rqueue.active = true ∨ ∀ f ∈ cna.rqueue.filter, f.ref = 0 := by
    cases hactive : cna.rqueue.active with
    | true =>
      refine iff_of_true (fun f hf => ?_) (.inl rfl)
      rw [if_pos rfl] at hf
      obtain ⟨p, -, rfl⟩ := List.mem_map.mp hf
      exact clearSlot_reset answers p
    | false => simp [resetHardware]
  have htx : (cna.tqueue.active && !answers.freeTx) = false ↔
      (cna.tqueue.active = true → answers.freeTx = true) := by
    cases cna.tqueue.active <;> simp
  constructor
  · rintro ⟨ok', cna', hclean', hidle, -, hfree⟩
    obtain ⟨-, rfl⟩ := Prod.mk.inj (Except.ok.inj (hclean.symm.trans hclean'))
    exact ⟨htx.mp hidle, hslots.mp hfree⟩
  · rintro ⟨hfreeTx, hfree⟩
    exact ⟨ok, _, hclean, htx.mpr hfreeTx, rfl, hslots.mpr hfree⟩

/-- **The queues of an adapter**: which calls set everything up or leave nothing. -/
theorem queue_calls_sound_iff (h : cna.locked = false) (call : QueueCall) :
    call.Sound answers cna ↔ call.Fine answers cna := by
  cases call with
  | init mac => exact initSound_iff h
  | reinit => exact initSound_iff h
  | cleanup => exact cleanupSound_iff h

end Calls

def bareCna : Cna where
  netdev := { name := "vmnic4".toList, moduleId := 7, pdev := 1, devAddr := 0x000c29000001 }

def queuedCna : Cna :=
  { bareCna with
    tqueue := ⟨1, true⟩
    rqueue := ⟨2, [⟨0, 1, 0x000c29000001, 1⟩, {}], true⟩ }

/-- A reset that goes well: the clean-up, and the set-up behind it. -/
theorem queue_calls_sound_reset :
    QueueCall.cleanup.Sound {} queuedCna ∧ QueueCall.reinit.Sound {} bareCna :=
  ⟨(queue_calls_sound_iff rfl .cleanup).mpr ⟨fun _ => rfl, .inl rfl⟩,
    (queue_calls_sound_iff rfl .reinit).mpr ⟨rfl, rfl, by decide, by decide, rfl⟩⟩

/-- Where the filter is refused, the release of the queues waits for the lock that the set-up holds;
    and where the release of the tx queue fails at a reset, it stays active. -/
theorem queues_deadlock :
    ¬ QueueCall.reinit.Sound { applyRxFilter := none } bareCna ∧
      ¬ QueueCall.cleanup.Sound { freeTx := false } queuedCna := by
  constructor
  · rintro ⟨ok, q, hinit, -⟩
    have hdeadlock : (QueuedCna.of bareCna).initQueues { applyRxFilter := none }
        bareCna.netdev.devAddr = .error .deadlock := rfl
    rw [hdeadlock] at hinit
    cases hinit
  · rintro ⟨ok, cna, hclean, hidle, -⟩
    have hleft : ∃ ok cna', queuedCna.cleanupQueues { freeTx := false } = .ok (ok, cna') ∧
        cna'.tqueue.active = true := ⟨_, _, rfl, rfl⟩
    obtain ⟨ok', cna', hclean', hactive⟩ := hleft
    obtain ⟨-, rfl⟩ := Prod.mk.inj (Except.ok.inj (hclean.symm.trans hclean'))
    exact Bool.false_ne_true (hidle.symm.trans hactive)

end VmkDrivers.Vmklinux
