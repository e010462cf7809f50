/-
  VmkDrivers.Vmklinux.WorkMemory

  What a work item takes from the memory it was initialised in
  (`linux_workqueue.c`, `workqueue.h`).

  `INIT_WORK` leaves `wq_data` as it was, and `INIT_DELAYED_WORK` what the timer
  is to do as well.  A step of the item here is a call, a step of a call of
  `vmklnx_cancel_work_sync` that is under way, or something that the timer or a
  worker does; with it goes what it does to queues and timers.

  Queueing the item stores the queue, and setting the timer what it does.  Only
  `vmklnx_cancel_work_sync` reads the last queue of an item that may have none,
  and takes the lock of whatever is there (`work_memory_garbage`).  Where the
  item was queued before, nothing of the memory is seen, and every lock taken is
  that of a queue that was assigned to it (`work_memory_iff`).
-/

import VmkDrivers.Vmklinux.DelayedWork

namespace VmkDrivers.Vmklinux

open VmkDrivers.Lib

/-- `VMK_INVALID_MODULE_ID`, `VMK_INVALID_TIMER` and `delayed_work_timer_fn` -/
def invalidModuleId : Nat := 0

def invalidTimer : Nat := 0

def delayedWorkTimerFn : Nat := 1

/-- `struct work_struct`; the entry is linked in the list of a queue, or to itself.  A queue is its
    address, and 0 is NULL. -/
structure WorkStruct where
  pending : Bool
  entry : Option Nat
  func : Nat
  wqData : Nat
  moduleId : Nat
deriving DecidableEq, Repr

structure TimerList where
  expires : BitVec 64
  function : Nat
  data : Nat
  vmkHandle : Nat
deriving DecidableEq, Repr

/-- A `work_struct`, or a `delayed_work` with its timer. -/
structure WorkItem where
  work : WorkStruct
  timer : Option TimerList
deriving DecidableEq, Repr

/-- `INIT_WORK` -/
def WorkStruct.init (work : WorkStruct) (func : Nat) : WorkStruct :=
  { work with entry := none, pending := false, func := func, moduleId := invalidModuleId }

/-- `init_timer` -/
def TimerList.init (timer : TimerList) : TimerList := { timer with vmkHandle := invalidTimer }

/-- `INIT_WORK`, or `INIT_DELAYED_WORK` where there is a timer. -/
def WorkItem.init (item : WorkItem) (func : Nat) : WorkItem where
  work := item.work.init func
  timer := item.timer.map TimerList.init

/-! ## Steps -/

inductive WorkOp where
  | lock (wq : Nat)
  | unlock (wq : Nat)
  | add (wq : Nat)
  | remove (wq : Nat)
  | wait (wq : Nat)
  | addTimer (moduleId function data : Nat) (timeout : BitVec 64)
  | removeTimer (handle : Nat)
  | sleep
  | call (moduleId func : Nat)
  | ret (r : Bool)
deriving DecidableEq, Repr

/-- Where a call of `vmklnx_cancel_work_sync` is: it waits for the lock, it sleeps on
    `wqPtr->waiting`, or it begins its loop again. -/
inductive CancelPhase where
  | lock (wqPtr : Nat)
  | wait (wqPtr : Nat)
  | again
deriving DecidableEq, Repr

structure CancelCall where
  timer : Bool
  didGrabPending : Bool := false
  didWait : Bool := false
  ret : Bool := false
  phase : CancelPhase := .again
deriving DecidableEq, Repr

/-- What is around the item: its address, the queues that are being destroyed, the timers of the
    vmkernel, how many trackers of a queue have the item, and the worker that has not cleared the
    pending bit. -/
structure WorkAround where
  address : Nat
  setExitFlag : Nat → Bool := fun _ => false
  jiffies : BitVec 64 := 0
  armed : Nat → Bool := fun _ => false
  executing : Nat → Nat := fun _ => 0
  starting : Option Nat := none
  cancel : Option CancelCall := none

structure ItemState where
  item : WorkItem
  around : WorkAround

inductive ItemEvent where
  | queueWork (wqPtr moduleId : Nat)
  | queueDelayedWork (wq : Nat) (delay : BitVec 64) (moduleId handle : Nat)
  | cancelWorkSync
  | cancelDelayedWorkSync
  | cancelDelayedWork
  | cancelGoesOn
  | timerFires
  | take (wqPtr : Nat)
  | callout
  | finish (wqPtr : Nat)
  | destroy (wqPtr : Nat)
  | jiffies (now : BitVec 64)
deriving DecidableEq, Repr

namespace ItemState

variable (s : ItemState)

def setWork (work : WorkStruct) : ItemState := { s with item := { s.item with work := work } }

def setCancel (call : Option CancelCall) : ItemState :=
  { s with around := { s.around with cancel := call } }

/-- `__queue_work` -/
def enqueue (wqPtr : Nat) : ItemState × List WorkOp :=
  (s.setWork { s.item.work with entry := some wqPtr, wqData := wqPtr },
    [.lock wqPtr, .add wqPtr, .unlock wqPtr])

def queueWork (wqPtr moduleId : Nat) : ItemState × List WorkOp :=
  if wqPtr = 0 then (s, [.ret false])
  else if s.around.setExitFlag wqPtr then (s, [.ret false])
  else if s.item.work.pending then (s, [.ret false])
  else
    let (s, steps) :=
      (s.setWork { s.item.work with pending := true, moduleId := moduleId }).enqueue wqPtr
    (s, steps ++ [.ret true])

/-- `queue_delayed_work` behind its test of the delay, with the handle of the new timer. -/
def setTimer (timer : TimerList) (wq : Nat) (delay : BitVec 64) (moduleId handle : Nat) :
    ItemState × List WorkOp :=
  if s.item.work.pending then (s, [.ret false])
  else
    -- `timer->data` and `timer->function` are stored anew
    let timer := { timer with
      expires := s.around.jiffies + delay
      data := s.around.address
      function := delayedWorkTimerFn }
    let timeout := addTimer timer.expires s.around.jiffies
    ({ item :=
        { work := { s.item.work with pending := true, wqData := wq, moduleId := moduleId }
          timer := some { timer with vmkHandle := handle } }
       around := { s.around with armed := Function.update s.around.armed handle true } },
      [.addTimer moduleId timer.function timer.data timeout, .ret true])

def queueDelayedWork (timer : TimerList) (wq : Nat) (delay : BitVec 64) (moduleId handle : Nat) :
    ItemState × List WorkOp :=
  if wq = 0 then (s, [.ret false])
  else if delay = 0 then s.queueWork wq moduleId
  else s.setTimer timer wq delay moduleId handle

def delTimerSync (timer : TimerList) : Bool × ItemState :=
  (s.around.armed timer.vmkHandle, { s with around := { s.around with
        armed := Function.update s.around.armed timer.vmkHandle false } })

def cancelDelayedWork (timer : TimerList) : ItemState × List WorkOp :=
  let (ret, s) := s.delTimerSync timer
  (if ret then s.setWork { s.item.work with pending := false } else s,
    [.removeTimer timer.vmkHandle, .ret ret])

/-- The end of the loop of `vmklnx_cancel_work_sync`, and behind it. -/
def cancelEnds (call : CancelCall) : ItemState × List WorkOp :=
  if call.didGrabPending then
    ((s.setWork { s.item.work with pending := false }).setCancel none, [.ret call.ret])
  else
    (s.setCancel (some { call with phase := .again }), if call.didWait then [] else [.sleep])

def cancelScans (call : CancelCall) (wqPtr : Nat) : ItemState × List WorkOp :=
  if s.around.executing wqPtr ≠ 0 then
    (s.setCancel (some { call with phase := .wait wqPtr }), [.wait wqPtr])
  else
    let (s, steps) := s.cancelEnds call
    (s, .unlock wqPtr :: steps)

/-- The loop of `vmklnx_cancel_work_sync` has the lock. -/
def cancelLocked (call : CancelCall) (wqPtr : Nat) : ItemState × List WorkOp :=
  -- "verify that the work queue is still valid"
  if wqPtr = s.item.work.wqData then
    if s.item.work.entry ≠ none ∧ s.item.work.pending then
      let (s, steps) := (s.setWork { s.item.work with entry := none }).cancelScans
        { call with didGrabPending := true, ret := true } wqPtr
      (s, .remove wqPtr :: steps)
    else s.cancelScans call wqPtr
  else
    let (s, steps) := s.cancelEnds call
    (s, .unlock wqPtr :: steps)

/-- "now look into the doings in the work queue" -/
def cancelLooks (call : CancelCall) : ItemState × List WorkOp :=
  let wqPtr := s.item.work.wqData
  if wqPtr ≠ 0 then (s.setCancel (some { call with phase := .lock wqPtr }), [.lock wqPtr])
  else s.cancelEnds call

/-- The loop of `vmklnx_cancel_work_sync`, up to the lock. -/
def cancelGrabs (call : CancelCall) : ItemState × List WorkOp :=
  let call := { call with didWait := false }
  if s.item.work.pending = false then
    (s.setWork { s.item.work with pending := true }).cancelLooks
      { call with didGrabPending := true }
  else
    match call.timer, s.item.timer with
    | true, some timer =>
      let (removed, s) := s.delTimerSync timer
      let (s, steps) := s.cancelLooks
        (if removed then { call with didGrabPending := true, ret := true } else call)
      (s, .removeTimer timer.vmkHandle :: steps)
    | _, _ => s.cancelLooks call

def cancelGoesOn (call : CancelCall) : ItemState × List WorkOp :=
  match call.phase with
  | .lock wqPtr => s.cancelLocked call wqPtr
  | .wait wqPtr =>
    let (s, steps) := s.cancelScans { call with didWait := true } wqPtr
    (s, .lock wqPtr :: steps)
  | .again => s.cancelGrabs call

def take (wqPtr : Nat) : ItemState × List WorkOp :=
  let s := s.setWork { s.item.work with entry := none }
  ({ s with around := { s.around with
      executing := Function.update s.around.executing wqPtr (s.around.executing wqPtr + 1)
      starting := some wqPtr } },
    [.lock wqPtr, .remove wqPtr, .unlock wqPtr])

def callout : ItemState × List WorkOp :=
  let s' := s.setWork { s.item.work with pending := false }
  ({ s' with around := { s'.around with starting := none } },
    [.call s.item.work.moduleId s.item.work.func])

def finish (wqPtr : Nat) : ItemState × List WorkOp :=
  ({ s with around := { s.around with
      executing := Function.update s.around.executing wqPtr (s.around.executing wqPtr - 1) } },
    [.lock wqPtr, .unlock wqPtr])

def next? : ItemEvent → Option (ItemState × List WorkOp)
  | .queueWork wqPtr moduleId => some (s.queueWork wqPtr moduleId)
  | .queueDelayedWork wq delay moduleId handle =>
    if s.around.armed handle ∨ handle = invalidTimer then none
    else s.item.timer.map fun timer => s.queueDelayedWork timer wq delay moduleId handle
  | .cancelWorkSync =>
    if s.around.cancel = none then some (s.cancelGrabs { timer := false }) else none
  | .cancelDelayedWorkSync =>
    if s.around.cancel = none ∧ s.item.timer.isSome then
      some (s.cancelGrabs { timer := true })
    else none
  | .cancelDelayedWork => s.item.timer.map s.cancelDelayedWork
  | .cancelGoesOn => s.around.cancel.map s.cancelGoesOn
  | .timerFires =>
    match s.item.timer with
    | some timer =>
      if s.around.armed timer.vmkHandle then
        some ((s.delTimerSync timer).2.enqueue s.item.work.wqData)
      else none
    | none => none
  | .take wqPtr =>
    if s.item.work.entry = some wqPtr ∧ s.around.starting = none then some (s.take wqPtr)
    else none
  | .callout => if s.around.starting = none then none else some s.callout
  | .finish wqPtr =>
    -- the worker that has not called the function yet does not come here
    if s.around.executing wqPtr ≤ (if s.around.starting = some wqPtr then 1 else 0) then none
    else some (s.finish wqPtr)
  | .destroy wqPtr =>
    some ({ s with around := { s.around with
      setExitFlag := Function.update s.around.setExitFlag wqPtr true } }, [])
  | .jiffies now => some ({ s with around := { s.around with jiffies := now } }, [])

end ItemState

abbrev WorkLabel := ItemEvent × List WorkOp

def ItemStep (s : ItemState) (l : WorkLabel) (t : ItemState) : Prop := s.next? l.1 = some (t, l.2)

def ItemState.init (address func : Nat) (item : WorkItem) : ItemState where
  item := item.init func
  around := { address := address }

/-! ## What is promised -/

def WorkLabel.assigned : WorkLabel → List Nat
  | (.queueWork wq _, steps) | (.queueDelayedWork wq _ _ _, steps) =>
    if .ret true ∈ steps then [wq] else []
  | _ => []

/-- A call of `cancel_work_sync` or `cancel_delayed_work_sync`. -/
def WorkLabel.CancelsSync : WorkLabel → Prop
  | (.cancelWorkSync, _) | (.cancelDelayedWorkSync, _) => True
  | _ => False

/-- The locks taken are those of queues that were assigned to the item, now or before. -/
def LocksAssigned (wqs : List Nat) : List WorkLabel → Prop
  | [] => True
  | l :: ls =>
    (∀ wq, .lock wq ∈ l.2 → wq ∈ l.assigned ++ wqs) ∧ LocksAssigned (l.assigned ++ wqs) ls

/-- The item was queued before it is cancelled with `cancel_work_sync` or
    `cancel_delayed_work_sync`. -/
def CancelsQueued (wqs : List Nat) : List WorkLabel → Prop
  | [] => True
  | l :: ls => (l.CancelsSync → wqs ≠ []) ∧ CancelsQueued (l.assigned ++ wqs) ls

/-! ## What is assigned -/

/-- The queues of the item are those that were assigned to it; before that its last queue is what
    the memory held, and there is no timer and no call of `vmklnx_cancel_work_sync`. -/
structure Known (held : Nat) (wqs : List Nat) (s : ItemState) : Prop where
  wqData : wqs ≠ [] → s.item.work.wqData ∈ wqs
  memory : wqs = [] → s.item.work.wqData = held
  entry : ∀ wq, s.item.work.entry = some wq → wq ∈ wqs
  executing : ∀ wq, s.around.executing wq ≠ 0 → wq ∈ wqs
  armed : ∀ timer, s.item.timer = some timer → s.around.armed timer.vmkHandle = true → wqs ≠ []
  cancel : ∀ call, s.around.cancel = some call → wqs ≠ [] ∧
    ∀ wq, call.phase = .lock wq ∨ call.phase = .wait wq → wq ∈ wqs

variable {s s' t : ItemState} {held : Nat} {wqs : List Nat} {wq : Nat} {call : CancelCall}

/-- What a step of the call leaves is known, and so are the locks that it takes. -/
def Known.Steps (held : Nat) (wqs : List Nat) (r : ItemState × List WorkOp) : Prop :=
  Known held wqs r.1 ∧ ∀ wq, .lock wq ∈ r.2 → wq ∈ wqs

theorem Known.Steps.cons {r : ItemState × List WorkOp} {step : WorkOp} (h : Known.Steps held wqs r)
    (hstep : ∀ wq, step = .lock wq → wq ∈ wqs) : Known.Steps held wqs (r.1, step :: r.2) := by
  refine ⟨h.1, fun wq hmem => ?_⟩
  rcases List.mem_cons.mp hmem with hmem | hmem
  · exact hstep wq hmem.symm
  · exact h.2 wq hmem

theorem Known.setWork (h : Known held wqs s) (work : WorkStruct)
    (hwq : work.wqData = s.item.work.wqData)
    (hentry : ∀ wq, work.entry = some wq → s.item.work.entry = some wq) :
    Known held wqs (s.setWork work) :=
  ⟨fun hne => hwq ▸ h.wqData hne, fun heq => hwq ▸ h.memory heq,
    fun wq hq => h.entry wq (hentry wq hq), h.executing, h.armed, h.cancel⟩

theorem Known.setCancel (h : Known held wqs s) (hne : wqs ≠ [])
    (hphase : ∀ wq, call.phase = .lock wq ∨ call.phase = .wait wq → wq ∈ wqs) :
    Known held wqs (s.setCancel (some call)) := by
  refine ⟨h.wqData, h.memory, h.entry, h.executing, h.armed, fun call' hcall' => ?_⟩
  cases hcall'
  exact ⟨hne, hphase⟩

theorem Known.cancelEnds (h : Known held wqs s) (hne : wqs ≠ []) (call : CancelCall) :
    Known.Steps held wqs (s.cancelEnds call) := by
  unfold ItemState.cancelEnds
  split
  · have hwork := h.setWork { s.item.work with pending := false } rfl fun _ => id
    exact ⟨⟨hwork.wqData, hwork.memory, hwork.entry, hwork.executing, hwork.armed, nofun⟩, by simp⟩
  · refine ⟨h.setCancel hne (by simp), fun wq hmem => ?_⟩
    split at hmem <;> simp at hmem

theorem Known.cancelScans (h : Known held wqs s) (hwq : wq ∈ wqs) (call : CancelCall) :
    Known.Steps held wqs (s.cancelScans call wq) := by
  have hne := List.ne_nil_of_mem hwq
  unfold ItemState.cancelScans
  split
  · refine ⟨h.setCancel hne fun wq' hphase => ?_, by simp⟩
    rcases hphase with hphase | hphase
    · simp at hphase
    · obtain rfl := CancelPhase.wait.inj hphase
      exact hwq
  · exact (h.cancelEnds hne call).cons nofun

theorem Known.cancelLocked (h : Known held wqs s) (hwq : wq ∈ wqs) (call : CancelCall) :
    Known.Steps held wqs (s.cancelLocked call wq) := by
  unfold ItemState.cancelLocked
  split
  · split
    · have hwork := h.setWork { s.item.work with entry := none } rfl nofun
      exact (hwork.cancelScans hwq { call with didGrabPending := true, ret := true }).cons nofun
    · exact h.cancelScans hwq call
  · exact (h.cancelEnds (List.ne_nil_of_mem hwq) call).cons nofun

theorem Known.cancelLooks (h : Known held wqs s) (hne : wqs ≠ []) (call : CancelCall) :
    Known.Steps held wqs (s.cancelLooks call) := by
  have hwq := h.wqData hne
  unfold ItemState.cancelLooks
  dsimp only
  split
  · refine ⟨h.setCancel hne fun wq hphase => ?_, fun wq hmem => ?_⟩
    · rcases hphase with hphase | hphase
      · exact CancelPhase.lock.inj hphase ▸ hwq
      · simp at hphase
    · obtain rfl := WorkOp.lock.inj (List.mem_singleton.mp hmem)
      exact hwq
  · exact h.cancelEnds hne call

theorem Known.delTimerSync (h : Known held wqs s) (timer : TimerList) :
    Known held wqs (s.delTimerSync timer).2 := by
  refine ⟨h.wqData, h.memory, h.entry, h.executing,
    fun timer' htimer harmed => h.armed timer' htimer ?_, h.cancel⟩
  by_cases heq : timer'.vmkHandle = timer.vmkHandle
  · simp [ItemState.delTimerSync, heq] at harmed
  · simpa [ItemState.delTimerSync, Function.update_of_ne heq] using harmed

theorem Known.cancelGrabs (h : Known held wqs s) (hne : wqs ≠ []) (call : CancelCall) :
    Known.Steps held wqs (s.cancelGrabs call) := by
  unfold ItemState.cancelGrabs
  dsimp only
  split
  · have hwork := h.setWork { s.item.work with pending := true } rfl fun _ => id
    exact hwork.cancelLooks hne _
  · split
    · next timer _ _ => exact ((h.delTimerSync timer).cancelLooks hne _).cons nofun
    · exact h.cancelLooks hne _

theorem Known.cancelGoesOn (h : Known held wqs s) (hcall : s.around.cancel = some call) :
    Known.Steps held wqs (s.cancelGoesOn call) := by
  obtain ⟨hne, hphase⟩ := h.cancel call hcall
  unfold ItemState.cancelGoesOn
  split
  · next wq heq => exact h.cancelLocked (hphase wq (.inl heq)) call
  · next wq heq =>
    have hwq := hphase wq (.inr heq)
    exact (h.cancelScans hwq { call with didWait := true }).cons fun wq' hlock =>
      WorkOp.lock.inj hlock ▸ hwq
  · exact h.cancelGrabs hne call

theorem Known.assign (h : Known held wqs s) (hwq : t.item.work.wqData = wq)
    (hentry : t.item.work.entry = some wq ∨ t.item.work.entry = s.item.work.entry)
    (hexecuting : t.around.executing = s.around.executing)
    (hcancel : t.around.cancel = s.around.cancel) : Known held (wq :: wqs) t := by
  refine ⟨fun _ => hwq ▸ List.mem_cons_self, nofun, fun wq' hq => ?_, fun wq' hne => ?_,
    fun _ _ _ => List.cons_ne_nil _ _, fun call hcall => ⟨List.cons_ne_nil _ _, fun wq' hphase => ?_⟩⟩
  -- the item is on this queue, or where it was
  · rcases hentry with hentry | hentry
    · obtain rfl := Option.some.inj (hentry.symm.trans hq)
      exact List.mem_cons_self
    · exact List.mem_cons_of_mem _ (h.entry wq' (hentry.symm.trans hq))
  · rw [hexecuting] at hne
    exact List.mem_cons_of_mem _ (h.executing wq' hne)
  · rw [hcancel] at hcall
    exact List.mem_cons_of_mem _ ((h.cancel call hcall).2 wq' hphase)

/-- What `queue_work` and `queue_delayed_work` do to what is known. -/
def Known.Queues (held : Nat) (wqs : List Nat) (wq : Nat) (r : ItemState × List WorkOp) : Prop :=
  Known.Steps held ((if .ret true ∈ r.2 then [wq] else []) ++ wqs) r

theorem Known.rejected (h : Known held wqs s) (wq : Nat) :
    Known.Queues held wqs wq (s, [.ret false]) := by
  refine ⟨?_, by simp⟩
  simpa using h

open ItemState

theorem Known.queueWork (h : Known held wqs s) (wq moduleId : Nat) :
    Known.Queues held wqs wq (s.queueWork wq moduleId) := by
  unfold ItemState.queueWork
  split
  · exact h.rejected wq
  split
  · exact h.rejected wq
  split
  · exact h.rejected wq
  · refine ⟨?_, by simp [enqueue]⟩
    rw [if_pos (by simp)]
    exact h.assign rfl (.inl rfl) rfl rfl

theorem Known.queueDelayedWork (h : Known held wqs s) (timer : TimerList) (wq : Nat)
    (delay : BitVec 64) (moduleId handle : Nat) :
    Known.Queues held wqs wq (s.queueDelayedWork timer wq delay moduleId handle) := by
  unfold ItemState.queueDelayedWork
  split
  · exact h.rejected wq
  split
  · exact h.queueWork wq moduleId
  unfold setTimer
  split
  · exact h.rejected wq
  · refine ⟨?_, by simp⟩
    rw [if_pos (by simp)]
    exact h.assign rfl (.inr rfl) rfl rfl

theorem Known.cancelDelayedWork (h : Known held wqs s) (timer : TimerList) :
    Known.Steps held wqs (s.cancelDelayedWork timer) := by
  have hs := h.delTimerSync timer
  refine ⟨?_, by simp [ItemState.cancelDelayedWork]⟩
  simp only [ItemState.cancelDelayedWork]
  split
  · exact hs.setWork _ rfl fun _ => id
  · exact hs

theorem Known.timerFires (h : Known held wqs s) (timer : TimerList) (hne : wqs ≠ []) :
    Known.Steps held wqs ((s.delTimerSync timer).2.enqueue s.item.work.wqData) := by
  have hs := h.delTimerSync timer
  have hwq := h.wqData hne
  refine ⟨⟨fun _ => hwq, fun heq => absurd heq hne, fun wq hq => ?_, hs.executing, hs.armed,
    hs.cancel⟩, fun wq hmem => ?_⟩
  · cases hq
    exact hwq
  · have hwq' : wq = s.item.work.wqData := by simpa [enqueue] using hmem
    exact hwq' ▸ hwq

theorem Known.executing_update (h : Known held wqs s) (hwq : wq ∈ wqs) (n : Nat) {wq' : Nat}
    (hne : Function.update s.around.executing wq n wq' ≠ 0) : wq' ∈ wqs := by
  by_cases heq : wq' = wq
  · exact heq ▸ hwq
  · rw [Function.update_of_ne heq] at hne
    exact h.executing wq' hne

theorem Known.take (h : Known held wqs s) (hentry : s.item.work.entry = some wq) :
    Known.Steps held wqs (s.take wq) := by
  have hwq := h.entry wq hentry
  refine ⟨⟨h.wqData, h.memory, nofun, fun _ => h.executing_update hwq _, h.armed, h.cancel⟩,
    fun wq' hmem => ?_⟩
  have hwq' : wq' = wq := by simpa [ItemState.take] using hmem
  exact hwq' ▸ hwq

theorem Known.finish (h : Known held wqs s) (hexecuting : s.around.executing wq ≠ 0) :
    Known.Steps held wqs (s.finish wq) := by
  have hwq := h.executing wq hexecuting
  refine ⟨⟨h.wqData, h.memory, h.entry, fun _ => h.executing_update hwq _, h.armed, h.cancel⟩,
    fun wq' hmem => ?_⟩
  have hwq' : wq' = wq := by simpa [ItemState.finish] using hmem
  exact hwq' ▸ hwq

variable {l : WorkLabel} {timer : TimerList}

theorem Known.step (h : Known held wqs s) (hsync : l.CancelsSync → wqs ≠ [])
    (hstep : ItemStep s l t) : Known.Steps held (l.assigned ++ wqs) (t, l.2) := by
  obtain ⟨e, steps⟩ := l
  cases e with
  | queueWork wq moduleId =>
    have hs := h.queueWork wq moduleId
    rwa [Option.some.inj hstep] at hs
  | queueDelayedWork wq delay moduleId handle =>
    obtain ⟨_, hstep⟩ := Option.ite_none_left_eq_some.mp hstep
    obtain ⟨timer, _, hnext⟩ := Option.map_eq_some_iff.mp hstep
    have hs := h.queueDelayedWork timer wq delay moduleId handle
    rwa [hnext] at hs
  -- these two read the last queue, and one was assigned
  | cancelWorkSync =>
    obtain ⟨_, hnext⟩ := Option.ite_none_right_eq_some.mp hstep
    exact Option.some.inj hnext ▸ h.cancelGrabs (hsync trivial) { timer := false }
  | cancelDelayedWorkSync =>
    obtain ⟨_, hnext⟩ := Option.ite_none_right_eq_some.mp hstep
    exact Option.some.inj hnext ▸ h.cancelGrabs (hsync trivial) { timer := true }
  | cancelDelayedWork =>
    obtain ⟨timer, _, hnext⟩ := Option.map_eq_some_iff.mp hstep
    exact hnext ▸ h.cancelDelayedWork timer
  | cancelGoesOn =>
    obtain ⟨call, hcall, hnext⟩ := Option.map_eq_some_iff.mp hstep
    exact hnext ▸ h.cancelGoesOn hcall
  | timerFires =>
    simp only [ItemStep, ItemState.next?] at hstep
    split at hstep
    · next timer htimer =>
      obtain ⟨harmed, hnext⟩ := Option.ite_none_right_eq_some.mp hstep
      -- a timer that is armed was set for a queue
      exact Option.some.inj hnext ▸ h.timerFires timer (h.armed timer htimer harmed)
    · cases hstep
  | take wq =>
    obtain ⟨hentry, hnext⟩ := Option.ite_none_right_eq_some.mp hstep
    exact Option.some.inj hnext ▸ h.take hentry.1
  -- what a worker does behind the queue, and what others do, takes no lock of the item
  | callout =>
    obtain ⟨_, hnext⟩ := Option.ite_none_left_eq_some.mp hstep
    obtain ⟨rfl, rfl⟩ := Prod.ext_iff.mp (Option.some.inj hnext)
    exact ⟨⟨h.wqData, h.memory, h.entry, h.executing, h.armed, h.cancel⟩, by simp [ItemState.callout]⟩
  | finish wq =>
    obtain ⟨hexecuting, hnext⟩ := Option.ite_none_left_eq_some.mp hstep
    exact Option.some.inj hnext ▸ h.finish (by omega)
  | destroy wq =>
    obtain ⟨rfl, rfl⟩ := Prod.ext_iff.mp (Option.some.inj hstep)
    exact ⟨⟨h.wqData, h.memory, h.entry, h.executing, h.armed, h.cancel⟩, nofun⟩
  | jiffies now =>
    obtain ⟨rfl, rfl⟩ := Prod.ext_iff.mp (Option.some.inj hstep)
    exact ⟨⟨h.wqData, h.memory, h.entry, h.executing, h.armed, h.cancel⟩, nofun⟩

/-! ## What the memory is seen by -/

/-- Two items that are the same, up to what the memory held: the last queue until one is assigned,
    and what the timer does. -/
structure Agree (wqs : List Nat) (s s' : ItemState) : Prop where
  around : s'.around = s.around
  work : s'.item.work = { s.item.work with wqData := s'.item.work.wqData }
  wqData : wqs ≠ [] → s'.item.work.wqData = s.item.work.wqData
  timer : s'.item.timer.map TimerList.vmkHandle = s.item.timer.map TimerList.vmkHandle

def Agree.Steps (wqs : List Nat) (r r' : ItemState × List WorkOp) : Prop :=
  r'.2 = r.2 ∧ Agree wqs r.1 r'.1

theorem Agree.Steps.cons {r r' : ItemState × List WorkOp} (h : Agree.Steps wqs r r')
    (step : WorkOp) : Agree.Steps wqs (r.1, step :: r.2) (r'.1, step :: r'.2) :=
  ⟨congrArg (step :: ·) h.1, h.2⟩

theorem Agree.pending (h : Agree wqs s s') : s'.item.work.pending = s.item.work.pending := by
  rw [h.work]

theorem Agree.entry (h : Agree wqs s s') : s'.item.work.entry = s.item.work.entry := by
  rw [h.work]

theorem Agree.work_eq (h : Agree wqs s s') (hne : wqs ≠ []) : s'.item.work = s.item.work := by
  rw [h.work, h.wqData hne]

theorem Agree.timer_some (h : Agree wqs s s') (htimer : s.item.timer = some timer) :
    ∃ timer', s'.item.timer = some timer' ∧ timer'.vmkHandle = timer.vmkHandle := by
  have htimer' := h.timer
  rw [htimer] at htimer'
  exact Option.map_eq_some_iff.mp htimer'

theorem Agree.setWork (h : Agree wqs s s') (f : WorkStruct → WorkStruct)
    (hf : ∀ work wq, f { work with wqData := wq } = { f work with wqData := wq }) :
    Agree wqs (s.setWork (f s.item.work)) (s'.setWork (f s'.item.work)) := by
  have hwork : f s'.item.work = { f s.item.work with wqData := s'.item.work.wqData } := by
    rw [h.work, hf]
  refine ⟨h.around, ?_, fun hne => ?_, h.timer⟩
  · simp only [ItemState.setWork, hwork]
  · simp only [ItemState.setWork, h.work_eq hne]

theorem Agree.setSame (h : Agree wqs s s') (work : WorkStruct) :
    Agree wqs (s.setWork work) (s'.setWork work) :=
  ⟨h.around, rfl, fun _ => rfl, h.timer⟩

theorem Agree.setCancel (h : Agree wqs s s') (call : Option CancelCall) :
    Agree wqs (s.setCancel call) (s'.setCancel call) :=
  ⟨by simp [ItemState.setCancel, h.around], h.work, h.wqData, h.timer⟩

theorem Agree.delTimerSync (h : Agree wqs s s') {timer' : TimerList}
    (hhandle : timer'.vmkHandle = timer.vmkHandle) :
    (s'.delTimerSync timer').1 = (s.delTimerSync timer).1 ∧
      Agree wqs (s.delTimerSync timer).2 (s'.delTimerSync timer').2 := by
  constructor
  · simp [ItemState.delTimerSync, h.around, hhandle]
  · exact ⟨by simp [ItemState.delTimerSync, h.around, hhandle], h.work, h.wqData, h.timer⟩

theorem Agree.cancelEnds (h : Agree wqs s s') (call : CancelCall) :
    Agree.Steps wqs (s.cancelEnds call) (s'.cancelEnds call) := by
  unfold ItemState.cancelEnds
  split
  · exact ⟨rfl, (h.setWork ({ · with pending := false }) fun _ _ => rfl).setCancel none⟩
  · exact ⟨rfl, h.setCancel _⟩

theorem Agree.cancelScans (h : Agree wqs s s') (call : CancelCall) (wq : Nat) :
    Agree.Steps wqs (s.cancelScans call wq) (s'.cancelScans call wq) := by
  simp only [ItemState.cancelScans, h.around]
  split
  · exact ⟨rfl, h.setCancel _⟩
  · exact (h.cancelEnds call).cons _

theorem Agree.cancelLocked (h : Agree wqs s s') (hne : wqs ≠ []) (call : CancelCall) (wq : Nat) :
    Agree.Steps wqs (s.cancelLocked call wq) (s'.cancelLocked call wq) := by
  simp only [ItemState.cancelLocked, h.work_eq hne]
  split
  · split
    · exact ((h.setSame _).cancelScans _ wq).cons _
    · exact h.cancelScans call wq
  · exact (h.cancelEnds call).cons _

theorem Agree.cancelLooks (h : Agree wqs s s') (hne : wqs ≠ []) (call : CancelCall) :
    Agree.Steps wqs (s.cancelLooks call) (s'.cancelLooks call) := by
  simp only [ItemState.cancelLooks, h.wqData hne]
  split
  · exact ⟨rfl, h.setCancel _⟩
  · exact h.cancelEnds call

theorem Agree.cancelGrabs (h : Agree wqs s s') (hne : wqs ≠ []) (call : CancelCall) :
    Agree.Steps wqs (s.cancelGrabs call) (s'.cancelGrabs call) := by
  simp only [ItemState.cancelGrabs, h.pending]
  split
  · exact (h.setWork ({ · with pending := true }) fun _ _ => rfl).cancelLooks hne _
  · cases call.timer with
    | false => exact h.cancelLooks hne _
    | true =>
      cases htimer : s.item.timer with
      | none =>
        have htimer' : s'.item.timer = none := by simpa [htimer] using h.timer
        rw [htimer']
        exact h.cancelLooks hne _
      | some timer =>
        obtain ⟨timer', htimer', hhandle⟩ := h.timer_some htimer
        obtain ⟨hremoved, hafter⟩ := h.delTimerSync hhandle
        simp only [htimer', hremoved, hhandle]
        exact (hafter.cancelLooks hne _).cons _

theorem Agree.cancelGoesOn (h : Agree wqs s s') (hne : wqs ≠ []) (call : CancelCall) :
    Agree.Steps wqs (s.cancelGoesOn call) (s'.cancelGoesOn call) := by
  unfold ItemState.cancelGoesOn
  split
  · exact h.cancelLocked hne call _
  · exact (h.cancelScans _ _).cons _
  · exact h.cancelGrabs hne call

/-- What `queue_work` and `queue_delayed_work` do to two items that agree. -/
def Agree.Queues (wqs : List Nat) (wq : Nat) (r r' : ItemState × List WorkOp) : Prop :=
  Agree.Steps ((if .ret true ∈ r.2 then [wq] else []) ++ wqs) r r'

theorem Agree.rejected (h : Agree wqs s s') (wq : Nat) :
    Agree.Queues wqs wq (s, [.ret false]) (s', [.ret false]) := by
  refine ⟨rfl, ?_⟩
  simpa using h

theorem Agree.queueWork (h : Agree wqs s s') (wq moduleId : Nat) :
    Agree.Queues wqs wq (s.queueWork wq moduleId) (s'.queueWork wq moduleId) := by
  simp only [ItemState.queueWork, h.around, h.pending]
  split
  · exact h.rejected wq
  split
  · exact h.rejected wq
  split
  · exact h.rejected wq
  · refine ⟨rfl, ?_⟩
    rw [if_pos (by simp)]
    refine ⟨h.around, ?_, fun _ => rfl, h.timer⟩
    simp only [enqueue, ItemState.setWork]
    rw [h.work]

theorem Agree.queueDelayedWork (h : Agree wqs s s') (timer timer' : TimerList) (wq : Nat)
    (delay : BitVec 64) (moduleId handle : Nat) :
    Agree.Queues wqs wq (s.queueDelayedWork timer wq delay moduleId handle)
      (s'.queueDelayedWork timer' wq delay moduleId handle) := by
  unfold ItemState.queueDelayedWork
  split
  · exact h.rejected wq
  split
  · exact h.queueWork wq moduleId
  simp only [setTimer, h.around, h.pending]
  split
  · exact h.rejected wq
  · refine ⟨rfl, ?_⟩
    rw [if_pos (by simp)]
    refine ⟨rfl, ?_, fun _ => rfl, rfl⟩
    rw [h.work]

theorem Agree.cancelDelayedWork (h : Agree wqs s s') {timer' : TimerList}
    (hhandle : timer'.vmkHandle = timer.vmkHandle) :
    Agree.Steps wqs (s.cancelDelayedWork timer) (s'.cancelDelayedWork timer') := by
  obtain ⟨hremoved, hafter⟩ := h.delTimerSync hhandle
  simp only [ItemState.cancelDelayedWork, hremoved, hhandle]
  refine ⟨rfl, ?_⟩
  split
  · exact hafter.setWork ({ · with pending := false }) fun _ _ => rfl
  · exact hafter

theorem Agree.timerFires (h : Agree wqs s s') (hne : wqs ≠ []) {timer' : TimerList}
    (hhandle : timer'.vmkHandle = timer.vmkHandle) :
    Agree.Steps wqs ((s.delTimerSync timer).2.enqueue s.item.work.wqData)
      ((s'.delTimerSync timer').2.enqueue s'.item.work.wqData) := by
  have hafter := (h.delTimerSync hhandle).2
  rw [h.wqData hne, enqueue, enqueue, hafter.work_eq hne]
  exact ⟨rfl, hafter.setSame _⟩

theorem Agree.take (h : Agree wqs s s') (wq : Nat) : Agree.Steps wqs (s.take wq) (s'.take wq) := by
  have hwork := h.setWork ({ · with entry := none }) fun _ _ => rfl
  refine ⟨rfl, ?_, hwork.work, hwork.wqData, hwork.timer⟩
  simp [ItemState.take, hwork.around]

theorem Agree.callout (h : Agree wqs s s') : Agree.Steps wqs s.callout s'.callout := by
  have hwork := h.setWork ({ · with pending := false }) fun _ _ => rfl
  refine ⟨?_, ?_, hwork.work, hwork.wqData, hwork.timer⟩
  · rw [ItemState.callout, h.work]
    rfl
  · simp [ItemState.callout, hwork.around]

theorem Agree.finish (h : Agree wqs s s') (wq : Nat) :
    Agree.Steps wqs (s.finish wq) (s'.finish wq) := by
  refine ⟨rfl, ?_, h.work, h.wqData, h.timer⟩
  simp [ItemState.finish, h.around]

theorem Agree.Steps.step {r r' : ItemState × List WorkOp} (h : Agree.Steps wqs r r')
    (hr : r = (t, l.2)) (hnext : s'.next? l.1 = some r') :
    ∃ t', ItemStep s' l t' ∧ Agree wqs t t' := by
  obtain ⟨hsteps, hagree⟩ := h
  rw [hr] at hsteps hagree
  refine ⟨r'.1, ?_, hagree⟩
  rw [ItemStep, hnext, ← hsteps]

theorem Agree.step (h : Agree wqs s s') (hknown : Known held wqs s)
    (hsync : l.CancelsSync → wqs ≠ []) (hstep : ItemStep s l t) :
    ∃ t', ItemStep s' l t' ∧ Agree (l.assigned ++ wqs) t t' := by
  obtain ⟨e, steps⟩ := l
  cases e with
  | queueWork wq moduleId =>
    have hnext := Option.some.inj hstep
    have hs := h.queueWork wq moduleId
    rw [hnext] at hs
    exact Agree.Steps.step hs rfl rfl
  | queueDelayedWork wq delay moduleId handle =>
    obtain ⟨hfree, hstep⟩ := Option.ite_none_left_eq_some.mp hstep
    obtain ⟨timer, htimer, hnext⟩ := Option.map_eq_some_iff.mp hstep
    -- the timers may differ in what they did, not in what is done with them
    obtain ⟨timer', htimer', _⟩ := h.timer_some htimer
    have hs := h.queueDelayedWork timer timer' wq delay moduleId handle
    rw [hnext] at hs
    refine Agree.Steps.step hs rfl ?_
    rw [ItemState.next?, h.around, if_neg hfree, htimer']
    rfl
  -- the last queue was assigned, so it is that of both
  | cancelWorkSync =>
    obtain ⟨hfree, hnext⟩ := Option.ite_none_right_eq_some.mp hstep
    refine (h.cancelGrabs (hsync trivial) { timer := false }).step (Option.some.inj hnext) ?_
    rw [ItemState.next?, h.around, if_pos hfree]
  | cancelDelayedWorkSync =>
    obtain ⟨⟨hfree, htimer⟩, hnext⟩ := Option.ite_none_right_eq_some.mp hstep
    refine (h.cancelGrabs (hsync trivial) { timer := true }).step (Option.some.inj hnext) ?_
    have htimer' : s'.item.timer.isSome := by
      rwa [← Option.isSome_map, h.timer, Option.isSome_map]
    rw [ItemState.next?, h.around, if_pos ⟨hfree, htimer'⟩]
  | cancelDelayedWork =>
    obtain ⟨timer, htimer, hnext⟩ := Option.map_eq_some_iff.mp hstep
    obtain ⟨timer', htimer', hhandle⟩ := h.timer_some htimer
    refine (h.cancelDelayedWork hhandle).step hnext ?_
    rw [ItemState.next?, htimer']
    rfl
  | cancelGoesOn =>
    obtain ⟨call, hcall, hnext⟩ := Option.map_eq_some_iff.mp hstep
    refine (h.cancelGoesOn (hknown.cancel call hcall).1 call).step hnext ?_
    rw [ItemState.next?, h.around, hcall]
    rfl
  -- the timer queues the item on its last queue
  | timerFires =>
    simp only [ItemStep, ItemState.next?] at hstep
    split at hstep
    · next timer htimer =>
      obtain ⟨harmed, hnext⟩ := Option.ite_none_right_eq_some.mp hstep
      obtain ⟨timer', htimer', hhandle⟩ := h.timer_some htimer
      refine (h.timerFires (hknown.armed timer htimer harmed) hhandle).step
        (Option.some.inj hnext) ?_
      simp only [ItemState.next?, htimer', h.around, hhandle, harmed, if_true]
    · cases hstep
  | take wq =>
    obtain ⟨hentry, hnext⟩ := Option.ite_none_right_eq_some.mp hstep
    refine (h.take wq).step (Option.some.inj hnext) ?_
    rw [ItemState.next?, h.entry, h.around, if_pos hentry]
  | callout =>
    obtain ⟨hstarting, hnext⟩ := Option.ite_none_left_eq_some.mp hstep
    refine h.callout.step (Option.some.inj hnext) ?_
    rw [ItemState.next?, h.around, if_neg hstarting]
  | finish wq =>
    obtain ⟨hexecuting, hnext⟩ := Option.ite_none_left_eq_some.mp hstep
    refine (h.finish wq).step (Option.some.inj hnext) ?_
    rw [ItemState.next?, h.around, if_neg hexecuting]
  | destroy wq =>
    obtain ⟨rfl, rfl⟩ := Prod.ext_iff.mp (Option.some.inj hstep)
    exact ⟨_, rfl, by simp [h.around], h.work, h.wqData, h.timer⟩
  | jiffies now =>
    obtain ⟨rfl, rfl⟩ := Prod.ext_iff.mp (Option.some.inj hstep)
    exact ⟨_, rfl, by simp [h.around], h.work, h.wqData, h.timer⟩

/-! ## Runs -/

theorem Known.init (address func : Nat) (item : WorkItem) :
    Known item.work.wqData [] (.init address func item) :=
  ⟨fun h => absurd rfl h, fun _ => rfl, nofun, fun _ h => absurd rfl h, nofun, nofun⟩

theorem Agree.init (address func : Nat) {item item' : WorkItem}
    (htimer : item'.timer.isSome = item.timer.isSome) :
    Agree [] (.init address func item) (.init address func item') := by
  refine ⟨rfl, rfl, fun h => absurd rfl h, ?_⟩
  simp only [ItemState.init, WorkItem.init, Option.map_map]
  cases hitem : item.timer <;> cases hitem' : item'.timer <;> simp [hitem, hitem'] at htimer ⊢
  rfl

variable {ls : List WorkLabel}

theorem Known.locksAssigned (hrun : Run ItemStep s ls t) (h : Known held wqs s)
    (hqueued : CancelsQueued wqs ls) : LocksAssigned wqs ls := by
  induction hrun generalizing wqs with
  | nil s => trivial
  | cons hstep _ ih =>
    obtain ⟨hsync, hqueued⟩ := hqueued
    obtain ⟨hknown, hlocks⟩ := h.step hsync hstep
    exact ⟨hlocks, ih hknown hqueued⟩

theorem Agree.run (hrun : Run ItemStep s ls t) (h : Agree wqs s s') (hknown : Known held wqs s)
    (hqueued : CancelsQueued wqs ls) : ∃ t', Run ItemStep s' ls t' := by
  induction hrun generalizing wqs s' with
  | nil s => exact ⟨s', .nil s'⟩
  | cons hstep _ ih =>
    obtain ⟨hsync, hqueued⟩ := hqueued
    obtain ⟨u', hstep', hagree⟩ := h.step hknown hsync hstep
    obtain ⟨t', hrun'⟩ := ih hagree (hknown.step hsync hstep).1 hqueued
    exact ⟨t', .cons hstep' hrun'⟩

theorem cancelLooks_lock (hwq : s.item.work.wqData ≠ 0) (call : CancelCall) :
    .lock s.item.work.wqData ∈ (s.cancelLooks call).2 := by
  simp [cancelLooks, hwq]

theorem cancelGrabs_lock (hwq : s.item.work.wqData ≠ 0) (call : CancelCall) :
    .lock s.item.work.wqData ∈ (s.cancelGrabs call).2 := by
  unfold cancelGrabs
  dsimp only
  split
  · exact cancelLooks_lock (s := s.setWork { s.item.work with pending := true }) hwq _
  · split
    · next timer _ _ =>
      exact List.mem_cons_of_mem _ (cancelLooks_lock (s := (s.delTimerSync timer).2) hwq _)
    · exact cancelLooks_lock hwq _

theorem WorkLabel.assigned_of_cancelsSync (hsync : l.CancelsSync) : l.assigned = [] := by
  obtain ⟨e, steps⟩ := l
  cases e <;> first | rfl | exact hsync.elim

theorem ItemStep.lock_of_cancelsSync (hstep : ItemStep s l t) (hsync : l.CancelsSync)
    (hwq : s.item.work.wqData ≠ 0) : .lock s.item.work.wqData ∈ l.2 := by
  obtain ⟨e, steps⟩ := l
  cases e with
  | cancelWorkSync =>
    obtain ⟨_, hnext⟩ := Option.ite_none_right_eq_some.mp hstep
    have hlock := cancelGrabs_lock hwq { timer := false }
    rwa [Option.some.inj hnext] at hlock
  | cancelDelayedWorkSync =>
    obtain ⟨_, hnext⟩ := Option.ite_none_right_eq_some.mp hstep
    have hlock := cancelGrabs_lock hwq { timer := true }
    rwa [Option.some.inj hnext] at hlock
  | _ => exact hsync.elim

theorem Known.cancelsQueued (hheld : held ≠ 0) (hrun : Run ItemStep s ls t)
    (h : Known held wqs s) (hlocks : LocksAssigned wqs ls) : CancelsQueued wqs ls := by
  induction hrun generalizing wqs with
  | nil s => trivial
  | @cons s _ _ l _ hstep _ ih =>
    obtain ⟨hlock, hlocks⟩ := hlocks
    have hsync : l.CancelsSync → wqs ≠ [] := by
      rintro hsync rfl
      -- nothing was assigned, so the last queue is what the memory held
      have hwq : s.item.work.wqData ≠ 0 := (h.memory rfl).trans_ne hheld
      have hmem := hlock _ (hstep.lock_of_cancelsSync hsync hwq)
      rw [WorkLabel.assigned_of_cancelsSync hsync] at hmem
      exact List.not_mem_nil hmem
    exact ⟨hsync, ih (h.step hsync hstep).1 hlocks⟩

/-- The same steps are made whatever the memory held, and no lock is taken of a queue that was not
    assigned to the item, exactly if `cancel_work_sync` and `cancel_delayed_work_sync` are called
    for an item that was queued. -/
theorem work_memory_iff {address func : Nat} {item : WorkItem}
    (hrun : Run ItemStep (.init address func item) ls t) :
    ((∀ item' : WorkItem, item'.timer.isSome = item.timer.isSome →
        ∃ t', Run ItemStep (.init address func item') ls t') ∧
      LocksAssigned [] ls) ↔ CancelsQueued [] ls := by
  have hinit := Known.init address func item
  constructor
  · rintro ⟨hsame, hlocks⟩
    -- a memory that held an address
    let item' : WorkItem := { item with work := { item.work with wqData := 1 } }
    obtain ⟨t', hrun'⟩ := hsame item' rfl
    have hinit' : Known 1 [] (.init address func item') := Known.init address func item'
    exact hinit'.cancelsQueued Nat.one_ne_zero hrun' hlocks
  · intro hqueued
    exact ⟨fun item' htimer => (Agree.init address func htimer).run hrun hinit hqueued,
      hinit.locksAssigned hrun hqueued⟩

/-- A `delayed_work` in memory that held `wqData`. -/
def heldWork (wqData : Nat) : WorkItem where
  work := { pending := true, entry := some 9, func := 9, wqData := wqData, moduleId := 9 }
  timer := some { expires := 9, function := 9, data := 9, vmkHandle := 9 }

def queuedRun : List WorkLabel :=
  [(.queueWork 5 3, [.lock 5, .add 5, .unlock 5, .ret true]),
    (.take 5, [.lock 5, .remove 5, .unlock 5]), (.callout, [.call 3 2]),
    (.finish 5, [.lock 5, .unlock 5]), (.cancelWorkSync, [.lock 5]),
    (.cancelGoesOn, [.unlock 5, .ret false])]

theorem work_memory_queued :
    (∀ item' : WorkItem, item'.timer.isSome = true →
        ∃ t', Run ItemStep (.init 16 2 item') queuedRun t') ∧ LocksAssigned [] queuedRun := by
  have hrun : Run ItemStep (.init 16 2 (heldWork 7)) queuedRun _ :=
    .cons rfl (.cons rfl (.cons rfl (.cons rfl (.cons rfl (.single rfl)))))
  refine (work_memory_iff hrun).mpr ?_
  simp [queuedRun, CancelsQueued, WorkLabel.assigned, WorkLabel.CancelsSync]

/-- `INIT_DELAYED_WORK`, and `cancel_delayed_work_sync`, as in an error path: where the memory held
    1, the lock at 1 is taken, and where it was zero, no lock is. -/
theorem work_memory_garbage :
    (∃ t, Run ItemStep (.init 16 2 (heldWork 1)) [(.cancelDelayedWorkSync, [.lock 1])] t) ∧
      (¬ ∃ t, Run ItemStep (.init 16 2 (heldWork 0)) [(.cancelDelayedWorkSync, [.lock 1])] t) ∧
      ¬ LocksAssigned [] [(.cancelDelayedWorkSync, [.lock 1])] := by
  refine ⟨⟨_, .single rfl⟩, ?_, ?_⟩
  · rintro ⟨t, hrun⟩
    cases hrun with
    | cons hstep _ =>
      have hsteps : some [WorkOp.ret false] = some [.lock 1] := congrArg (Option.map Prod.snd) hstep
      simp at hsteps
  · rintro ⟨hlocks, _⟩
    exact List.not_mem_nil (hlocks 1 List.mem_cons_self)

end VmkDrivers.Vmklinux
