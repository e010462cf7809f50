/-
  VmkDrivers.Vmklinux.Workqueue

  The workqueues of vmklinux (`linux_workqueue.c`): a list of work items that
  worlds of the vmkernel helper take off and run, at most `maxDispatch` at a
  time.

  Any number of worlds are under way in these functions.  A step is one section
  under `wqLock`, or what a world does between two of them.  A world that waits
  in `vmk_WorldWait` may go on at any time.  The build is the one with
  `VMX86_DEBUG`, where each `VMK_ASSERT` is checked.  The queue is not destroyed,
  the counters do not overflow, and a work function leaves interrupts enabled;
  what it does to the queue is done by the calls it makes.

  A queueing is numbered by the value `qstat_incr(queued)` had before it, its
  ticket, and what becomes of each ticket is written down.
-/

import VmkDrivers.Lib.Activities

namespace VmkDrivers.Vmklinux

open VmkDrivers.Lib

variable {W : Type}

/-! ## The queue -/

inductive Item (W : Type) where
  | work (w : W)
  | plunger (n : Nat)
deriving DecidableEq, Repr

structure Entry (W : Type) where
  item : Item W
  ticket : Nat
deriving DecidableEq, Repr

/-- `struct workqueue_struct` with its helper requests and the work structs. -/
structure Workqueue (W : Type) where
  head : List (Entry W) := []
  qLen : Int := 0
  curPosted : Int := 0
  curDispatch : Int := 0
  maxDispatch : Nat
  waiting : Int := 0
  /-- The lists of trackers, which are numbered. -/
  trackFree : List Nat
  trackList : List Nat := []
  trackFlushList : List Nat := []
  executing : Nat → Option (Entry W) := fun _ => none
  /-- `delayTimer` is pending. -/
  delayTimer : Bool := false
  /-- `flushMutex` is held. -/
  flushMutex : Bool := false
  /-- Requests the helper has taken on and not begun. -/
  requests : Nat := 0
  pending : Item W → Bool := fun _ => false
  /-- `work->wq_data` is this queue. -/
  bound : W → Bool := fun _ => false
  /-- The timer of a delayed work is pending. -/
  timer : W → Bool := fun _ => false
  /-- The completion of a plunger. -/
  completion : Nat → Bool := fun _ => false
  /-- The flushes that made a plunger. -/
  plungers : Nat := 0
  queued : Nat := 0
  /-- The ticket of a plunger that has been queued. -/
  placed : Nat → Option Nat := fun _ => none
  /-- The tickets whose function was called, in this order. -/
  calls : List Nat := []
  /-- The tickets whose function returned, which `vmklnx_qstats.callouts` counts. -/
  finished : List Nat := []
  /-- The tickets whose item was taken off by `vmklnx_cancel_work_sync`. -/
  cancelled : List Nat := []

/-- `vmklnx_Helper_worlds`, between `VMKLNX_MIN_QHELPERS` and `VMKLNX_MAX_QHELPERS`. -/
def helperWorlds (pcpus : Nat) : Nat := if pcpus < 16 then 16 else if pcpus > 32 then 32 else pcpus

def createWorkqueue (singlethread : Bool) (pcpus : Nat) : Workqueue W :=
  let maxDispatch := if singlethread then 1 else helperWorlds pcpus / 2
  { maxDispatch, trackFree := (List.range maxDispatch).reverse }

/-! ## Worlds -/

/-- What a world under way has still to do.  `flush` is the flush that a dispatch is part of. -/
inductive World (W : Type) where
  /-- `__queue_work` -/
  | queue (i : Item W) (flush : Option Nat)
  /-- The loop of `vmklnx_workqueue_dispatch`. -/
  | post (postDeficit : Nat) (flush : Option Nat)
  /-- `mod_timer` of it. -/
  | arm (postDeficit : Nat) (flush : Option Nat)
  /-- "Restore curPosted." -/
  | restore (postDeficit : Nat) (flush : Option Nat)
  | timeout
  /-- `vmklnx_workqueue_callout`, and from where it has an item: before its pending bit is cleared,
      in its function, in `complete` of `vmklnx_plunger_complete`, and behind. -/
  | callout
  | take (e : Entry W) (tracker : Nat)
  | call (e : Entry W) (tracker : Nat)
  | complete (n : Nat) (e : Entry W) (tracker : Nat)
  | done (e : Entry W) (tracker : Nat)
  /-- `queue_delayed_work`, with the pending bit. -/
  | delay (w : W)
  /-- The loop of `vmklnx_cancel_work_sync`, called with a timer or not: its start, its timer, its
      section, from a wait, and its end. -/
  | cancel (w : W) (timer : Bool)
  | cancelTimer (w : W)
  | look (w : W) (timer didGrabPending : Bool)
  | lookAgain (w : W) (timer didGrabPending : Bool)
  | cancelEnd (w : W) (timer didGrabPending : Bool)
  /-- `flush_workqueue`: the mutex, the completion, the section, from a wait, and its end. -/
  | flush
  | await (n : Nat)
  | drain (n : Nat)
  | drainAgain (n : Nat)
  | unlock (n : Nat)
deriving DecidableEq, Repr

inductive WorkAssert where
  | qLen
  | curPosted
  | curDispatch
  | maxDispatch
  | entry
  | pending
  | trackFree
  | executing
  | tracked
  | callouts
  | trackFlushList
  | timer
  | didGrabPending
deriving DecidableEq, Repr

def vmkAssert (cond : Prop) [Decidable cond] (a : WorkAssert) : Except WorkAssert Unit :=
  if cond then .ok () else .error a

namespace Workqueue

variable [DecidableEq W] (q : Workqueue W)

def OnQueue (i : Item W) : Prop := i ∈ q.head.map (·.item)

instance (i : Item W) : Decidable (q.OnQueue i) := inferInstanceAs (Decidable (i ∈ _))

/-- `__qlen(&wqPtr->head) == wqPtr->qLen` -/
def LenOk : Prop := (q.head.length : Int) = q.qLen

instance : Decidable q.LenOk := inferInstanceAs (Decidable (_ = _))

def setPending (i : Item W) (b : Bool) : Workqueue W :=
  { q with pending := Function.update q.pending i b }

def resume (flush : Option Nat) : List (World W) := flush.elim [] fun n => [.await n]

/-- `vmklnx_workqueue_dispatch`, up to where the lock is dropped. -/
def dispatch (flush : Option Nat) : Except WorkAssert (Workqueue W × List (World W)) := do
  vmkAssert q.LenOk .qLen
  vmkAssert (0 ≤ q.curPosted) .curPosted
  vmkAssert (0 ≤ q.curDispatch) .curDispatch
  vmkAssert (q.curPosted + q.curDispatch ≤ q.maxDispatch) .maxDispatch
  let postDeficit := min (q.maxDispatch - (q.curDispatch + q.curPosted)) (q.qLen - q.curPosted)
  if postDeficit ≤ 0 then return (q, resume flush)
  else
    return ({ q with curPosted := q.curPosted + postDeficit }, [.post postDeficit.toNat flush])

/-- The loop of `vmklnx_workqueue_dispatch`, where `vmk_HelperSubmitRequest` may fail. -/
def post (postDeficit : Nat) (flush : Option Nat) (submitted : Bool) :
    Workqueue W × List (World W) :=
  match postDeficit with
  | 0 => (q, resume flush)
  | left + 1 =>
    if submitted then ({ q with requests := q.requests + 1 }, [.post left flush])
    else (q, [.arm (left + 1) flush])

def enqueue (i : Item W) : Workqueue W :=
  { q with
    head := q.head ++ [⟨i, q.queued⟩]
    qLen := q.qLen + 1
    bound := match i with
      | .work w => Function.update q.bound w true
      | .plunger _ => q.bound
    queued := q.queued + 1
    placed := match i with
      | .work _ => q.placed
      | .plunger n => Function.update q.placed n (some q.queued) }

def queueWork (i : Item W) (flush : Option Nat) :
    Except WorkAssert (Workqueue W × List (World W)) := do
  vmkAssert (¬q.OnQueue i) .entry
  vmkAssert (q.pending i = true) .pending
  vmkAssert q.LenOk .qLen
  vmkAssert (¬q.OnQueue i) .entry
  let q := q.enqueue i
  vmkAssert (q.qLen > 0) .qLen
  q.dispatch flush

def pop (rest : List (Entry W)) : Workqueue W :=
  { q with head := rest, curDispatch := q.curDispatch + 1, qLen := q.qLen - 1 }

def track (e : Entry W) (tracker : Nat) (free : List Nat) : Workqueue W :=
  { q with
    trackFree := free
    executing := Function.update q.executing tracker (some e)
    trackList := tracker :: q.trackList }

/-- The first section of `vmklnx_workqueue_callout`. -/
def callout : Except WorkAssert (Workqueue W × List (World W)) := do
  vmkAssert q.LenOk .qLen
  vmkAssert (q.curPosted > 0) .curPosted
  let q : Workqueue W := { q with curPosted := q.curPosted - 1 }
  match q.head with
  | [] => return (q, [])
  -- enough items of the queue are being called
  | e :: rest =>
    if q.curDispatch ≥ q.maxDispatch then return (q, [])
    else
      vmkAssert (q.pending e.item = true) .pending
      vmkAssert (q.qLen > 0) .qLen
      let q := q.pop rest
      vmkAssert q.LenOk .qLen
      match q.trackFree with
      | [] => throw .trackFree
      -- the tracker says which item is called
      | tr :: free =>
        vmkAssert (q.executing tr = none) .executing
        let q := q.track e tr free
        vmkAssert ((q.trackList.length : Int) + q.trackFlushList.length = q.curDispatch) .tracked
        vmkAssert ((q.trackFree.length : Int) = q.maxDispatch - q.curDispatch) .tracked
        return (q, [.take e tr])

def take (e : Entry W) (tracker : Nat) : Except WorkAssert (Workqueue W × List (World W)) := do
  let q := q.setPending e.item false
  vmkAssert (q.finished.length < q.queued) .callouts
  return ({ q with calls := q.calls ++ [e.ticket] }, [.call e tracker])

def finish (e : Entry W) (tracker : Nat) : Workqueue W × List (World W) :=
  ({ q with finished := q.finished ++ [e.ticket] }, [.done e tracker])

def spliced : Workqueue W :=
  { q with trackList := [], trackFlushList := q.trackList ++ q.trackFlushList }

/-- The section of `vmklnx_plunger_complete`. -/
def splice (n : Nat) (e : Entry W) (tracker : Nat) :
    Except WorkAssert (Workqueue W × List (World W)) := do
  let q := q.spliced
  vmkAssert (q.trackFlushList ≠ []) .trackFlushList
  return (q, [.complete n e tracker])

def release (tracker : Nat) : Workqueue W :=
  { q with
    curDispatch := q.curDispatch - 1
    trackFree := tracker :: q.trackFree
    trackList := q.trackList.erase tracker
    trackFlushList := q.trackFlushList.erase tracker
    executing := Function.update q.executing tracker none }

/-- `queue_delayed_work`, when the pending bit is set. -/
def delay (w : W) : Except WorkAssert (Workqueue W × List (World W)) := do
  vmkAssert (q.timer w = false) .timer
  vmkAssert (¬q.OnQueue (.work w)) .entry
  return ({ q with
    bound := Function.update q.bound w true
    timer := Function.update q.timer w true }, [])

def Running (w : W) : Prop :=
  ∃ tr ∈ q.trackList ++ q.trackFlushList, (q.executing tr).map (·.item) = some (.work w)

instance (w : W) : Decidable (q.Running w) :=
  inferInstanceAs (Decidable (∃ tr ∈ _, _))

/-- `scan the trackList for our work structure` -/
def scan (w : W) (timer didGrabPending : Bool) : Workqueue W × List (World W) :=
  if q.Running w then
    ({ q with waiting := q.waiting + 1 }, [.lookAgain w timer didGrabPending])
  else (q, [.cancelEnd w timer didGrabPending])

def unqueue (e : Entry W) : Workqueue W :=
  { q with head := q.head.erase e, qLen := q.qLen - 1, cancelled := q.cancelled ++ [e.ticket] }

/-- The section of `vmklnx_cancel_work_sync`, if the item has a queue. -/
def look (w : W) (timer didGrabPending : Bool) :
    Except WorkAssert (Workqueue W × List (World W)) :=
  if q.bound w = false then return (q, [.cancelEnd w timer didGrabPending])
  else
    match q.head.find? (·.item = .work w) with
    | none => return q.scan w timer didGrabPending
    | some e =>
      -- it is on the queue, so its bit is taken over with it
      if q.pending (.work w) = true then do
        let q := q.unqueue e
        vmkAssert (didGrabPending = false) .didGrabPending
        vmkAssert q.LenOk .qLen
        return q.scan w timer true
      else return q.scan w timer didGrabPending

/-- The section of `flush_workqueue`. -/
def drain (n : Nat) : Workqueue W × List (World W) :=
  if q.trackFlushList = [] then (q, [.unlock n])
  else ({ q with waiting := q.waiting + 1 }, [.drainAgain n])

/-- How a world goes on.  `submitted` is the answer of the helper. -/
def move (q : Workqueue W) (world : World W) (submitted : Bool) :
    Option (Except WorkAssert (Workqueue W × List (World W))) :=
  match world with
  | .queue i flush => some (q.queueWork i flush)
  | .post postDeficit flush => some (.ok (q.post postDeficit flush submitted))
  | .arm postDeficit flush => some (.ok ({ q with delayTimer := true }, [.restore postDeficit flush]))
  | .restore postDeficit flush =>
    some (.ok ({ q with curPosted := q.curPosted - postDeficit }, resume flush))
  | .timeout => some (q.dispatch none)
  | .callout => some q.callout
  | .take e tracker => some (q.take e tracker)
  | .call e tracker =>
    match e.item with
    | .work _ => some (.ok (q.finish e tracker))
    | .plunger n => some (q.splice n e tracker)
  | .complete n e tracker =>
    some (.ok ({ q with completion := Function.update q.completion n true }.finish e tracker))
  -- the second section of `vmklnx_workqueue_callout`
  | .done _ tracker => some ((q.release tracker).dispatch none)
  | .delay w => some (q.delay w)
  | .cancel w timer =>
    if q.pending (.work w) = false then
      some (.ok (q.setPending (.work w) true, [.look w timer true]))
    else some (.ok (q, [if timer then .cancelTimer w else .look w timer false]))
  | .cancelTimer w =>
    -- `del_timer_sync`, which also waits for an expiry that is under way
    if q.timer w = true then
      some do
        vmkAssert (q.pending (.work w) = true) .pending
        return ({ q with timer := Function.update q.timer w false }, [.look w true true])
    else some (.ok (q, [.look w true false]))
  | .look w timer didGrabPending => some (q.look w timer didGrabPending)
  | .lookAgain w timer didGrabPending =>
    some (.ok ({ q with waiting := q.waiting - 1 }.scan w timer didGrabPending))
  | .cancelEnd w timer didGrabPending =>
    if didGrabPending then some (.ok (q.setPending (.work w) false, []))
    else some (.ok (q, [.cancel w timer]))
  | .flush =>
    if q.flushMutex then none
    else
      some (.ok ({ q with flushMutex := true, plungers := q.plungers + 1 }.setPending
        (.plunger q.plungers) true, [.queue (.plunger q.plungers) (some q.plungers)]))
  | .await n => if q.completion n then some (.ok (q, [.drain n])) else none
  | .drain n => some (.ok (q.drain n))
  | .drainAgain n => some (.ok ({ q with waiting := q.waiting - 1 }.drain n))
  | .unlock _ => some (.ok ({ q with flushMutex := false }, []))

end Workqueue

inductive WorkEvent (W : Type) where
  | queueWork (w : W)
  | queueDelayedWork (w : W)
  | cancelWorkSync (w : W) (timer : Bool)
  | flushWorkqueue
  | delayedWorkTimer (w : W)
  | delayTimer
  | helper
deriving DecidableEq, Repr

namespace Workqueue

variable [DecidableEq W]

def begin (q : Workqueue W) : WorkEvent W → Option (Workqueue W × List (World W))
  | .queueWork w =>
    if q.pending (.work w) then some (q, [])
    else some (q.setPending (.work w) true, [.queue (.work w) none])
  | .queueDelayedWork w =>
    if q.pending (.work w) then some (q, [])
    else some (q.setPending (.work w) true, [.delay w])
  | .cancelWorkSync w timer => some (q, [.cancel w timer])
  | .flushWorkqueue => some (q, [.flush])
  | .delayedWorkTimer w =>
    if q.timer w then
      some ({ q with timer := Function.update q.timer w false }, [.queue (.work w) none])
    else none
  | .delayTimer => if q.delayTimer then some ({ q with delayTimer := false }, [.timeout]) else none
  | .helper =>
    if q.requests = 0 then none else some ({ q with requests := q.requests - 1 }, [.callout])

end Workqueue

/-- The functions of `linux_workqueue.c` as activities on a queue. -/
def workqueueProgram (W : Type) [DecidableEq W] :
    Program (Workqueue W) (World W) (WorkEvent W) Bool WorkAssert where
  begin := Workqueue.begin
  move := Workqueue.move

abbrev WorkState (W : Type) := Except WorkAssert (Pool (Workqueue W) (World W))

abbrev WorkStep {W : Type} [DecidableEq W] :
    WorkState W → PoolEvent (World W) (WorkEvent W) Bool → WorkState W → Prop :=
  (workqueueProgram W).Step

def WorkState.created (singlethread : Bool) (pcpus : Nat) : WorkState W :=
  .ok ⟨createWorkqueue singlethread pcpus, 0⟩

end VmkDrivers.Vmklinux
