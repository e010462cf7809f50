/-
  VmkDrivers.Wfs.EventPool

  The event buffers of `ixgbe_wfs_raps.c`.  One `next` pointer threads a buffer
  through the free list (`fsmEvBuf_head`/`_tail`) or the pending queue
  (`raps_ctrl.fsm_event_head`/`_tail`), and `next_eb` threads the list
  `fsmEvBufs` of all allocated buffers.

  `EvBufPool` is the pointer structure with the functions of the source;
  `EvQueue` is what it is for, a bounded queue of events.  Both are an
  `EventStore`, the interface the state machine needs, so that the code above
  is written once.  `Layout` describes the pointers of a pool by the lists of
  buffers they thread.
-/

import VmkDrivers.Lib.IntrusiveQueue
import VmkDrivers.Wfs.Fsm

namespace VmkDrivers.Wfs

open VmkDrivers.Lib

def evbufMinNum : Nat := 64
def evbufMaxNum : Nat := 256

/-- A store of event buffers as the state machine uses it. -/
class EventStore (π : Type) where
  /-- Take a buffer, fill it and append it to the pending queue; `none` when
      `wfs_fsm_alloc_event` returns NULL.  The flag is the outcome of a `kmalloc`. -/
  enqueue : π → Bool → EventRec → Option π
  /-- Handle the pending events in order, recycling every buffer, and empty the queue. -/
  walk {σ : Type} : (σ → EventRec → Except Fault σ) → σ → π → Except Fault (σ × π)
  /-- Zero the queue pointers, as the `memset` of `raps_ctrl` does. -/
  forget : π → π

def pendingEvents {π : Type} [EventStore π] (q : π) : List EventRec :=
  match EventStore.walk (fun l eb => .ok (l ++ [eb])) [] q with
  | .ok (l, _) => l
  | .error _ => []

/-! ## Buffers and pointers -/

/-- `wfs_fsm_event_buffer`. -/
structure EvBuf where
  next : Option Nat := none
  nextEb : Option Nat := none
  ev : EventRec := ⟨0, .discover, {}⟩

/-- The buffers of an adapter.  The address of a buffer is its number in allocation
    order; no buffer is freed while the adapter is bound. -/
structure EvBufPool where
  mem : Nat → EvBuf := fun _ => {}
  /-- List of allocated buffers. -/
  fsmEvBufs : Option Nat := none
  fsmEvBufHead : Option Nat := none
  fsmEvBufTail : Option Nat := none
  fsmEvBufCount : Nat := 0
  fsmEventHead : Option Nat := none
  fsmEventTail : Option Nat := none

namespace EvBufPool

def nextOf (mem : Nat → EvBuf) (a : Nat) : Option Nat := (mem a).next

def setNext (mem : Nat → EvBuf) (n : Nat) (v : Option Nat) : Nat → EvBuf :=
  Function.update mem n { mem n with next := v }

/-- `wfs_fsm_close_event`: append a buffer to the free list. -/
def wfsFsmCloseEvent (p : EvBufPool) (n : Nat) : EvBufPool :=
  let mem := setNext p.mem n none
  match p.fsmEvBufTail with
  | some t => { p with mem := setNext mem t (some n), fsmEvBufTail := some n }
  | none => { p with mem := mem, fsmEvBufHead := some n, fsmEvBufTail := some n }

def wfsFsmAllocEvent (p : EvBufPool) (kmalloc : Bool) : Option (Nat × EvBufPool) :=
  match p.fsmEvBufHead with
  -- the free list first
  | some n =>
    let head := (p.mem n).next
    some (n, { p with
      fsmEvBufHead := head
      fsmEvBufTail := if head = none then none else p.fsmEvBufTail })
  | none =>
    -- then memory, up to the number of buffers
    if p.fsmEvBufCount < evbufMaxNum then
      if kmalloc then
        let n := p.fsmEvBufCount
        some (n, { p with
          mem := Function.update p.mem n { p.mem n with nextEb := p.fsmEvBufs }
          fsmEvBufs := some n
          fsmEvBufCount := p.fsmEvBufCount + 1 })
      else none
    else none

/-- The part of `ixgbe_wfs_fsm_set_event` that fills a buffer and appends it to the
    pending queue. -/
def linkEvent (p : EvBufPool) (n : Nat) (ev : EventRec) : EvBufPool :=
  let mem := Function.update p.mem n { p.mem n with ev := ev, next := none }
  match p.fsmEventTail with
  | some t => { p with mem := setNext mem t (some n), fsmEventTail := some n }
  | none => { p with mem := mem, fsmEventHead := some n, fsmEventTail := some n }

def enqueue (p : EvBufPool) (kmalloc : Bool) (ev : EventRec) : Option EvBufPool :=
  match p.wfsFsmAllocEvent kmalloc with
  | none => none
  | some (n, p) => some (p.linkEvent n ev)

/-- The loop of `wfs_fsm_run` over the pending queue: `next` is read before the body runs
    and the buffer is recycled after it.  A queue that is not cyclic has at most
    `fsmEvBuf_count` buffers. -/
def walkLoop {σ : Type} (body : σ → EventRec → Except Fault σ) :
    Nat → Option Nat → σ → EvBufPool → Except Fault (σ × EvBufPool)
  | _, none, s, p => .ok (s, p)
  | 0, some _, _, _ => .error .diverges
  | fuel + 1, some eb, s, p => do
    let nexteb := (p.mem eb).next
    let s ← body s (p.mem eb).ev
    walkLoop body fuel nexteb s (p.wfsFsmCloseEvent eb)

def walk {σ : Type} (body : σ → EventRec → Except Fault σ) (s : σ) (p : EvBufPool) :
    Except Fault (σ × EvBufPool) := do
  let (s, p) ← walkLoop body p.fsmEvBufCount p.fsmEventHead s p
  pure (s, { p with fsmEventHead := none, fsmEventTail := none })

def forget (p : EvBufPool) : EvBufPool :=
  { p with fsmEventHead := none, fsmEventTail := none }

instance : EventStore EvBufPool where
  enqueue := enqueue
  walk := walk
  forget := forget

/-- The allocation loop of `ixgbe_wfs_fsm_init`; the flag is whether it ran to the end. -/
def initAlloc (kmalloc : Nat → Bool) : Nat → EvBufPool → EvBufPool × Bool
  | 0, p => (p, true)
  | k + 1, p =>
    match p.wfsFsmAllocEvent (kmalloc (evbufMinNum - (k + 1))) with
    | none => (p, false)
    | some (_, p) => initAlloc kmalloc k p

/-- The second loop of `ixgbe_wfs_fsm_init`: put every allocated buffer on the free list. -/
def initClose : Nat → Option Nat → EvBufPool → EvBufPool
  | _, none, p => p
  | 0, some _, p => p
  | fuel + 1, some eb, p =>
    let p' := p.wfsFsmCloseEvent eb
    initClose fuel (p'.mem eb).nextEb p'

/-- `ixgbe_wfs_fsm_init` on the zeroed adapter, as far as the buffers go, with the outcome
    of the `i`-th allocation; the flag is whether it returned 0. -/
def ixgbeWfsFsmInit (kmalloc : Nat → Bool) : EvBufPool × Bool :=
  match initAlloc kmalloc evbufMinNum {} with
  | (p, false) => (p, false)
  | (p, true) => (initClose p.fsmEvBufCount p.fsmEvBufs p, true)

end EvBufPool

/-! ## The queue -/

/-- A queue of events over a bounded number of buffers: `count` have been allocated so far
    and `free` of them are not in use. -/
structure EvQueue where
  pending : List EventRec
  free : Nat
  count : Nat

namespace EvQueue

def enqueue (q : EvQueue) (kmalloc : Bool) (ev : EventRec) : Option EvQueue :=
  if 0 < q.free then some { q with pending := q.pending ++ [ev], free := q.free - 1 }
  else if q.count < evbufMaxNum ∧ kmalloc = true then
    some { q with pending := q.pending ++ [ev], count := q.count + 1 }
  else none

def walk {σ : Type} (body : σ → EventRec → Except Fault σ) (s : σ) (q : EvQueue) :
    Except Fault (σ × EvQueue) := do
  let s ← q.pending.foldlM body s
  pure (s, { q with pending := [], free := q.free + q.pending.length })

instance : EventStore EvQueue where
  enqueue := enqueue
  walk := walk
  forget q := { q with pending := [] }

end EvQueue

/-! ## The pointers of a pool -/

namespace EvBufPool

/-- The pointers of `p` thread the buffers `free` and `pend` in this order, `fsmEvBufs`
    threads all allocated buffers, and every allocated buffer is in exactly one of
    `free`, `pend` and the rest `lost`. -/
structure Layout (p : EvBufPool) (free pend lost : List Nat) : Prop where
  freeQ : IsQueue (nextOf p.mem) p.fsmEvBufHead p.fsmEvBufTail free
  pendQ : IsQueue (nextOf p.mem) p.fsmEventHead p.fsmEventTail pend
  allocs : Chain (fun a => (p.mem a).nextEb) p.fsmEvBufs (List.range p.fsmEvBufCount).reverse
  perm : (free ++ pend ++ lost).Perm (List.range p.fsmEvBufCount)
  count_le : p.fsmEvBufCount ≤ evbufMaxNum

variable (mem : Nat → EvBuf)

theorem nextOf_setNext (n : Nat) (v : Option Nat) :
    nextOf (setNext mem n v) = Function.update (nextOf mem) n v := by
  funext a
  by_cases h : a = n
  · subst h; simp [nextOf, setNext]
  · simp [nextOf, setNext, Function.update_of_ne h]

@[simp] theorem setNext_ev (n : Nat) (v : Option Nat) (a : Nat) :
    (setNext mem n v a).ev = (mem a).ev := by
  by_cases h : a = n
  · subst h; simp [setNext]
  · simp [setNext, Function.update_of_ne h]

@[simp] theorem setNext_nextEb (n : Nat) (v : Option Nat) (a : Nat) :
    (setNext mem n v a).nextEb = (mem a).nextEb := by
  by_cases h : a = n
  · subst h; simp [setNext]
  · simp [setNext, Function.update_of_ne h]

namespace Layout

variable {p : EvBufPool} {free pend lost : List Nat} {a : Nat}

theorem nodup (h : Layout p free pend lost) : (free ++ pend ++ lost).Nodup :=
  h.perm.nodup_iff.mpr List.nodup_range

theorem not_free_of_pend (h : Layout p free pend lost) (ha : a ∈ pend) : a ∉ free := by
  have hnd := h.nodup
  rw [List.nodup_append, List.nodup_append] at hnd
  exact fun hf => hnd.1.2.2 a hf a ha rfl

theorem not_queued_of_lost (h : Layout p free pend lost) (ha : a ∈ lost) : a ∉ free ∧ a ∉ pend := by
  have hnd := h.nodup
  rw [List.nodup_append] at hnd
  exact ⟨fun hf => hnd.2.2 a (by simp [hf]) a ha rfl, fun hp => hnd.2.2 a (by simp [hp]) a ha rfl⟩

theorem lt_count (h : Layout p free pend lost) (ha : a ∈ free ++ pend ++ lost) :
    a < p.fsmEvBufCount := List.mem_range.mp (h.perm.mem_iff.mp ha)

theorem length_eq (h : Layout p free pend lost) :
    free.length + pend.length + lost.length = p.fsmEvBufCount := by
  have := h.perm.length_eq
  simpa [List.length_append, Nat.add_assoc] using this

end Layout

variable (p : EvBufPool)

theorem close_eq (n : Nat) :
    p.wfsFsmCloseEvent n = { p with
      mem := (p.wfsFsmCloseEvent n).mem
      fsmEvBufHead := pushHead p.fsmEvBufHead p.fsmEvBufTail n
      fsmEvBufTail := some n } := by
  unfold wfsFsmCloseEvent pushHead
  cases p.fsmEvBufTail <;> rfl

theorem close_next (n : Nat) :
    nextOf (p.wfsFsmCloseEvent n).mem = pushNext (nextOf p.mem) p.fsmEvBufTail n := by
  unfold wfsFsmCloseEvent pushNext
  cases p.fsmEvBufTail <;> simp [nextOf_setNext]

@[simp] theorem close_ev (n a : Nat) : ((p.wfsFsmCloseEvent n).mem a).ev = (p.mem a).ev := by
  unfold wfsFsmCloseEvent
  cases p.fsmEvBufTail <;> simp

@[simp] theorem close_nextEb (n a : Nat) :
    ((p.wfsFsmCloseEvent n).mem a).nextEb = (p.mem a).nextEb := by
  unfold wfsFsmCloseEvent
  cases p.fsmEvBufTail <;> simp

theorem linkEvent_eq (n : Nat) (ev : EventRec) :
    p.linkEvent n ev = { p with
      mem := (p.linkEvent n ev).mem
      fsmEventHead := pushHead p.fsmEventHead p.fsmEventTail n
      fsmEventTail := some n } := by
  unfold linkEvent pushHead
  cases p.fsmEventTail <;> rfl

private theorem nextOf_fill (mem : Nat → EvBuf) (n : Nat) (ev : EventRec) :
    nextOf (Function.update mem n { mem n with ev := ev, next := none }) =
      Function.update (nextOf mem) n none := by
  funext a
  by_cases h : a = n
  · subst h; simp [nextOf]
  · simp [nextOf, Function.update_of_ne h]

theorem linkEvent_next (n : Nat) (ev : EventRec) :
    nextOf (p.linkEvent n ev).mem = pushNext (nextOf p.mem) p.fsmEventTail n := by
  unfold linkEvent pushNext
  cases p.fsmEventTail <;> simp [nextOf_setNext, nextOf_fill]

theorem linkEvent_ev (n : Nat) (ev : EventRec) (a : Nat) :
    ((p.linkEvent n ev).mem a).ev = if a = n then ev else (p.mem a).ev := by
  unfold linkEvent
  by_cases h : a = n
  · subst h; cases p.fsmEventTail <;> simp
  · cases p.fsmEventTail <;> simp [h]

@[simp] theorem linkEvent_nextEb (n : Nat) (ev : EventRec) (a : Nat) :
    ((p.linkEvent n ev).mem a).nextEb = (p.mem a).nextEb := by
  unfold linkEvent
  by_cases h : a = n
  · subst h; cases p.fsmEventTail <;> simp
  · cases p.fsmEventTail <;> simp [Function.update_of_ne h]

end EvBufPool

end VmkDrivers.Wfs
