/-
  VmkDrivers.Vmklinux.Rcu

  The RCU of vmklinux (`linux_rcu.c`, `rcupdate.h`): one count of the read-side
  critical sections of a module, and a list of callbacks, each with the
  generation it was registered in.

  Any number of readers and callers are under way, with the tasklet and the
  handlers of the delay timer.  A step is one atomic operation or one read of a
  shared variable; what is done under `rdp->lock` between two of them is one
  step.  The world in the lock section is kept with the lock.  The build is the
  one with `VMX86_DEBUG`.

  The generation is the number of its increments, which the code has in 64 bits.
  A callback is numbered by those linked before it, its ticket, and a read-side
  critical section by those opened before it.
-/

import VmkDrivers.Lib.Activities

namespace VmkDrivers.Vmklinux

open VmkDrivers.Lib

def rcuBatchBefore (a b : BitVec 64) : Bool := (a - b).slt 0

/-- A head in `vmklnx_call_rcu`, called by `vmklnx_synchronize_rcu` or a client. -/
structure RcuCall where
  head : Nat
  sync : Bool
deriving DecidableEq, Repr

/-- Where the world with `rdp->lock` is. -/
inductive RcuSection where
  /-- `vmklnx_call_rcu`: the generation is read, the head is linked, nobody is reading. -/
  | stamped (c : RcuCall)
  | linked (c : RcuCall)
  | bump (c : RcuCall)
  /-- `vmklnx_rcu_read_unlock` and `vmklnx_rcu_delay_timer`: nobody is reading. -/
  | unlock
  | timer
deriving DecidableEq, Repr

/-- What `vmklnx_rcu_callback` was called by. -/
inductive RcuContext where
  | tasklet
  | timer
  | cleanup
deriving DecidableEq, Repr

inductive RcuWorld where
  /-- `vmklnx_call_rcu` before the lock, and behind it: the timer or the tasklet. -/
  | callRcu (c : RcuCall)
  | schedule (timer : Bool) (sync : Option Nat)
  /-- `wait_for_completion` of `vmklnx_synchronize_rcu` -/
  | await (ticket : Nat)
  /-- `vmklnx_rcu_read_unlock`, when it was the last. -/
  | checkLen
  | relock
  /-- `vmklnx_rcu_delay_timer`, and its `mod_timer`. -/
  | delayTimer
  | rearm
  /-- `vmklnx_rcu_callback`: the start of its loop, with a head it has taken, and in a function. -/
  | walk (ctx : RcuContext)
  | invoke (ctx : RcuContext) (head : Nat)
  | running (ctx : RcuContext) (ticket : Nat) (sync : Bool)
  | cleanup
  | cleanupLen
  | kill
  | delTimer
deriving DecidableEq, Repr

/-- `struct vmklnx_rcu_data` with the heads, the tasklet and the timer. -/
structure RcuData where
  nxtlist : Option Nat := none
  /-- The head whose `next` this points to, or none for `nxtlist` itself. -/
  nxttail : Option Nat := none
  next : Nat → Option Nat := fun _ => none
  /-- `head->generation` -/
  stamp : Nat → Nat := fun _ => 0
  /-- `head->func`: `wakeme_after_rcu`, or a function of the client. -/
  sync : Nat → Bool := fun _ => false
  qLen : Int := 0
  generation : Nat := 0
  nestingLevel : Int := 0
  completed : Nat := 0
  lock : Option RcuSection := none
  /-- `TASKLET_STATE_SCHED` and `TASKLET_STATE_RUN` -/
  scheduled : Bool := false
  run : Bool := false
  /-- `delayTimer` is pending, and its handlers that are under way. -/
  delayTimer : Bool := false
  handlers : Nat := 0
  /-- The completion of a `vmklnx_synchronize_rcu`, by the ticket of its head. -/
  completion : Nat → Bool := fun _ => false
  /-- The heads that are handed over and whose function has not been called. -/
  owned : Nat → Bool := fun _ => false
  /-- The read-side critical sections that are open, and how many there have been. -/
  sections : Finset Nat := ∅
  opened : Nat := 0
  /-- The callbacks that have been linked, the ticket of a head, and the sections that were open. -/
  tickets : Nat := 0
  ticket : Nat → Nat := fun _ => 0
  openAt : Nat → Finset Nat := fun _ => ∅
  /-- The tickets whose `vmklnx_synchronize_rcu` returned. -/
  synced : List Nat := []
  /-- The tickets whose function was called, and those whose function returned. -/
  started : List Nat := []
  returned : List Nat := []
  /-- `vmklnx_rcu_cleanup` has begun, and has returned. -/
  dying : Bool := false
  cleaned : Bool := false

inductive RcuAssert where
  | nxttail
deriving DecidableEq, Repr

namespace RcuData

variable (r : RcuData)

/-- `rcu_batch_before(first->generation, atomic64_read(&rdp->generation))` -/
def agedEnough (head : Nat) : Bool :=
  rcuBatchBefore (BitVec.ofNat 64 (r.stamp head)) (BitVec.ofNat 64 r.generation)

/-- `*rdp->nxttail = head; rdp->nxttail = &head->next; ++rdp->qLen;` -/
def link (c : RcuCall) : RcuData :=
  { r with
    nxtlist := if r.nxttail = none then some c.head else r.nxtlist
    next := r.nxttail.elim r.next fun t => Function.update r.next t (some c.head)
    nxttail := some c.head
    qLen := r.qLen + 1
    tickets := r.tickets + 1
    ticket := Function.update r.ticket c.head r.tickets
    openAt := Function.update r.openAt r.tickets r.sections }

/-- `atomic64_inc(&rdp->generation)` and the unlock. -/
def bump : RcuData := { r with generation := r.generation + 1, lock := none }

def unlinkFirst (first : Nat) : RcuData :=
  { r with
    nxtlist := r.next first
    nxttail := if r.nxttail = some first then none else r.nxttail
    qLen := r.qLen - 1 }

/-- `vmklnx_rcu_callback` returns. -/
def leave (ctx : RcuContext) : RcuData × List RcuWorld :=
  let r := { r with completed := r.completed + 1 }
  match ctx with
  | .tasklet => ({ r with run := false }, [])
  | .timer => ({ r with handlers := r.handlers - 1 }, [])
  | .cleanup => (r, [.kill])

/-- The loop of `vmklnx_rcu_callback`, up to where the lock is dropped. -/
def callback (ctx : RcuContext) : Except RcuAssert (RcuData × List RcuWorld) :=
  match r.nxtlist with
  | none => if r.nxttail = none then .ok (r.leave ctx) else .error .nxttail
  | some first =>
    if r.agedEnough first then .ok (r.unlinkFirst first, [.invoke ctx first])
    else .ok (r.leave ctx)

/-- `vmklnx_call_rcu`, up to the lock. -/
def callRcu (c : RcuCall) : RcuData × List RcuWorld :=
  ({ r with
    next := Function.update r.next c.head none
    sync := Function.update r.sync c.head c.sync
    owned := Function.update r.owned c.head true }, [.callRcu c])

/-- What `vmklnx_synchronize_rcu` waits for. -/
def waiter (c : RcuCall) : Option Nat := if c.sync then some (r.ticket c.head) else none

def goOn : RcuSection → RcuData × List RcuWorld
  | .stamped c => ({ r.link c with lock := some (.linked c) }, [])
  | .linked c =>
    if r.nestingLevel = 0 then ({ r with lock := some (.bump c) }, [])
    else ({ r with lock := none }, [.schedule true (r.waiter c)])
  | .bump c => (r.bump, [.schedule false (r.waiter c)])
  | .unlock => (r.bump, [])
  | .timer => (r.bump, [.walk .timer])

end RcuData

inductive RcuEvent where
  | readLock
  | readUnlock (s : Nat)
  | callRcu (head : Nat)
  | synchronizeRcu (head : Nat)
  | tasklet
  | delayTimer
  | goOn
  | cleanup
deriving DecidableEq, Repr

namespace RcuData

def begin (r : RcuData) : RcuEvent → Option (RcuData × List RcuWorld)
  | .readLock =>
    some ({ r with
      nestingLevel := r.nestingLevel + 1
      sections := insert r.opened r.sections
      opened := r.opened + 1 }, [])
  | .readUnlock s =>
    if s ∈ r.sections then
      -- `atomic64_dec_and_test`
      some ({ r with nestingLevel := r.nestingLevel - 1, sections := r.sections.erase s },
        if r.nestingLevel - 1 = 0 then [.checkLen] else [])
    else none
  | .callRcu head => if r.owned head then none else some (r.callRcu ⟨head, false⟩)
  | .synchronizeRcu head => if r.owned head then none else some (r.callRcu ⟨head, true⟩)
  | .tasklet =>
    if r.scheduled && !r.run then
      some ({ r with scheduled := false, run := true }, [.walk .tasklet])
    else none
  | .delayTimer =>
    if r.delayTimer then
      some ({ r with delayTimer := false, handlers := r.handlers + 1 }, [.delayTimer])
    else none
  | .goOn => r.lock.map r.goOn
  | .cleanup => some ({ r with dying := true }, [.cleanup])

def move (r : RcuData) : RcuWorld → Unit → Option (Except RcuAssert (RcuData × List RcuWorld))
  | .callRcu c, _ =>
    if r.lock = none then
      some (.ok ({ r with
        stamp := Function.update r.stamp c.head r.generation
        lock := some (.stamped c) }, []))
    else none
  | .schedule timer sync, _ =>
    let r := if timer then { r with delayTimer := true } else { r with scheduled := true }
    some (.ok (r, sync.toList.map .await))
  | .await ticket, _ =>
    if r.completion ticket then some (.ok ({ r with synced := r.synced ++ [ticket] }, []))
    else none
  | .checkLen, _ => some (.ok (r, if r.qLen > 0 then [.relock] else []))
  | .relock, _ =>
    if r.lock = none then
      -- re-test with the lock held
      some (.ok (if r.nestingLevel = 0 then { r with lock := some .unlock } else r, []))
    else none
  | .delayTimer, _ =>
    if r.lock = none then
      if r.nestingLevel = 0 then some (.ok ({ r with lock := some .timer }, []))
      else some (.ok (r, [.rearm]))
    else none
  | .rearm, _ => some (.ok ({ r with delayTimer := true, handlers := r.handlers - 1 }, []))
  | .walk ctx, _ => if r.lock = none then some (r.callback ctx) else none
  | .invoke ctx head, _ =>
    some (.ok ({ r with
      owned := Function.update r.owned head false
      started := r.started ++ [r.ticket head] }, [.running ctx (r.ticket head) (r.sync head)]))
  | .running ctx ticket sync, _ =>
    -- `complete` of `wakeme_after_rcu`
    some (.ok ({ r with
      completion := if sync then Function.update r.completion ticket true else r.completion
      returned := r.returned ++ [ticket] }, [.walk ctx]))
  | .cleanup, _ => some (.ok ({ r with generation := r.generation + 1 }, [.cleanupLen]))
  | .cleanupLen, _ => some (.ok (r, [if r.qLen > 0 then .walk .cleanup else .kill]))
  | .kill, _ => if r.scheduled || r.run then none else some (.ok (r, [.delTimer]))
  | .delTimer, _ =>
    -- `del_timer_sync`, which waits for a handler that is under way
    if r.delayTimer || r.handlers = 0 then
      some (.ok ({ r with delayTimer := false, cleaned := true }, []))
    else none

end RcuData

/-- The functions of `linux_rcu.c` as activities on one `vmklnx_rcu_data`. -/
def rcuProgram : Program RcuData RcuWorld RcuEvent Unit RcuAssert where
  begin := RcuData.begin
  move := RcuData.move

abbrev RcuState := Except RcuAssert (Pool RcuData RcuWorld)

abbrev RcuStep : RcuState → PoolEvent RcuWorld RcuEvent Unit → RcuState → Prop := rcuProgram.Step

/-- `vmklnx_rcu_init` -/
def RcuState.init : RcuState := .ok ⟨{}, 0⟩

end VmkDrivers.Vmklinux
