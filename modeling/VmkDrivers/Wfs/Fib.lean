/-
  VmkDrivers.Wfs.Fib

  The forwarding table of `ixgbe_wfs_fib.c`: a red-black tree of nodes keyed
  by VLAN id and MAC address, with the free nodes on a list of their own.

  A node is named by its number in allocation order.  The kernel's red-black
  tree is a `Balancer`, so a tree is only known up to its in-order sequence.

  `my_search` compares the nodes with a `struct fib_key` on its stack that
  nobody fills in; the two arguments are not used.  What happens to be in
  that key is the argument `key` of the model, one for each call.
-/

import VmkDrivers.Lib.IntrusiveQueue
import VmkDrivers.Lib.SearchTree
import VmkDrivers.Lib.Transition
import VmkDrivers.Wfs.Defs

namespace VmkDrivers.Wfs

open VmkDrivers.Lib

def fibSizeMax : Nat := 4096
def fibSizeMin : Nat := 256

/-! ## Keys -/

structure FibKey where
  vid : UInt16
  mac : Mac
deriving DecidableEq

/-- `memcmp` of two buffers of one length. -/
def memcmp : List UInt8 → List UInt8 → Int
  | a :: as, b :: bs => if a < b then -1 else if b < a then 1 else memcmp as bs
  | _, _ => 0

def keycmp (key1 key2 : FibKey) : Int :=
  if key1.vid < key2.vid then -1
  else if key1.vid > key2.vid then 1
  else memcmp key1.mac.toList key2.mac.toList

/-! ## Nodes -/

/-- `struct fib_node`; the `rb_node` inside it is its place in a `Tree`. -/
structure FibNode where
  key : FibKey := ⟨0, Vector.replicate 6 0⟩
  ip : UInt32 := 0
  wfsid : UInt8 := 0
  timeTag : UInt8 := 0
  nextAlloc : Option Nat := none
  nextFree : Option Nat := none

structure Fib where
  mem : Nat → FibNode := fun _ => {}
  fibRoot : Lib.Tree Nat := .nil
  /-- List of allocated nodes. -/
  fibns : Option Nat := none
  fibnHead : Option Nat := none
  fibnTail : Option Nat := none
  currentTimeTag : UInt8 := 0
  fibAllocSize : Nat := 0
  fibSize : Int := 0
  /-- `fib_timer` is pending. -/
  fibTimer : Bool := false

namespace Fib

def nextOf (mem : Nat → FibNode) (a : Nat) : Option Nat := (mem a).nextFree

def setNext (mem : Nat → FibNode) (n : Nat) (v : Option Nat) : Nat → FibNode :=
  Function.update mem n { mem n with nextFree := v }

def setNode (s : Fib) (n : Nat) (node : FibNode) : Fib :=
  { s with mem := Function.update s.mem n node }

def fibnFree (s : Fib) (n : Nat) : Fib :=
  let mem := setNext s.mem n none
  match s.fibnTail with
  | some t => { s with mem := setNext mem t (some n), fibnTail := some n }
  | none => { s with mem := mem, fibnHead := some n, fibnTail := some n }

def fibnAlloc (s : Fib) (kmalloc : Bool) : Option (Nat × Fib) :=
  match s.fibnHead with
  -- the free list first
  | some n =>
    let head := (s.mem n).nextFree
    some (n, { s with
      fibnHead := head
      fibnTail := if head = none then none else s.fibnTail })
  | none =>
    -- then memory, up to the size of the table
    if s.fibAllocSize < fibSizeMax then
      if kmalloc then
        let n := s.fibAllocSize
        some (n, { s with
          mem := Function.update s.mem n { s.mem n with nextAlloc := s.fibns }
          fibns := some n
          fibAllocSize := s.fibAllocSize + 1 })
      else none
    else none

/-! ## Search and insertion -/

/-- `my_search`, with the contents `key` of its local variable. -/
def mySearch (s : Fib) (key : FibKey) (root : Lib.Tree Nat) (_vid : UInt16) (_mac : Mac) :
    Option Nat :=
  root.search fun n => keycmp key (s.mem n).key

section Tree

variable (rb : Balancer Nat)

/-- `my_insert`: the new tree and the node with the key of `fibn`, which is `fibn` unless
    the tree had one already. -/
def myInsert (s : Fib) (root : Lib.Tree Nat) (fibn : Nat) : Fib × Lib.Tree Nat × Nat :=
  match root.descend (fun n => keycmp (s.mem fibn).key (s.mem n).key) fibn with
  | .inl n =>
    -- the key is there: the node takes over the station, and the tree stays
    if (s.mem n).wfsid ≠ (s.mem fibn).wfsid then
      (s.setNode n { s.mem n with
        timeTag := (s.mem fibn).timeTag, wfsid := (s.mem fibn).wfsid }, root, n)
    else (s, root, n)
  | .inr root' => (s, rb.insertColor fibn root', fibn)

/-- The loop that moves the nodes of `fib_root`, the last one first, over to a new tree and
    recycles those to `drop`.  Every turn erases a node, so the number of nodes bounds
    the turns. -/
def rebuildLoop (drop : FibNode → Bool) :
    Nat → Fib → Lib.Tree Nat → Except Fault (Fib × Lib.Tree Nat)
  | fuel, s, root =>
    match s.fibRoot.last with
    | none => .ok (s, root)
    | some n =>
      match fuel with
      | 0 => .error .diverges
      | fuel + 1 =>
        let s := { s with fibRoot := rb.erase n s.fibRoot }
        if drop (s.mem n) then rebuildLoop drop fuel (s.fibnFree n) root
        else
          let (s, root, _) := myInsert rb s root n
          rebuildLoop drop fuel { s with fibSize := s.fibSize + 1 } root

def rebuild (drop : FibNode → Bool) (s : Fib) : Except Fault (Fib × Lib.Tree Nat) :=
  rebuildLoop rb drop s.fibRoot.inorder.length { s with fibSize := 0 } .nil

/-- "fib still full, try to trim down a little bit": free the last nodes of the new tree. -/
def trimLoop : Nat → Fib → Lib.Tree Nat → Except Fault (Fib × Lib.Tree Nat)
  | 0, s, root => .ok (s, root)
  | i + 1, s, root =>
    match root.last with
    | none => .error .nullDeref
    | some n =>
      trimLoop i { s.fibnFree n with fibSize := s.fibSize - 1 } (rb.erase n root)

def trimDone (s : Fib) : Except Fault Fib :=
  if s.fibTimer then .error (.bugOn .timerPending)
  else .ok { s with currentTimeTag := s.currentTimeTag + 1, fibTimer := true }

def myTrimTree (s : Fib) : Except Fault Fib :=
  if s.fibSize < fibSizeMax then trimDone s
  else do
    let (s, root) ← rebuild rb (fun n => n.timeTag ≠ s.currentTimeTag) s
    let (s, root) ←
      if s.fibSize = fibSizeMax then trimLoop rb (fibSizeMax - fibSizeMin) s root
      else .ok (s, root)
    trimDone { s with fibRoot := root }

/-! ## Interface functions -/

def ixgbeWfsFibLookup (s : Fib) (key : FibKey) (vid : UInt16) (mac : Mac) : UInt8 :=
  match s.mySearch key s.fibRoot (vid &&& 0xfff) mac with
  | some n => (s.mem n).wfsid
  | none => wfsidAll

def ixgbeWfsFibDelete (s : Fib) (key : FibKey) (vid : UInt16) (mac : Mac) : Fib :=
  match s.mySearch key s.fibRoot (vid &&& 0xfff) mac with
  | some n =>
    let s := { s with fibRoot := rb.erase n s.fibRoot }
    { s.fibnFree n with fibSize := s.fibSize - 1 }
  | none => s

def ixgbeWfsFibDeleteWfsid (s : Fib) (wfsid : UInt8) : Except Fault Fib :=
  if wfsid < wfsidMin ∨ wfsid > wfsidMax then .error (.bugOn .fibWfsid)
  else do
    let (s, root) ← rebuild rb (fun n => n.wfsid = wfsid) s
    pure { s with fibRoot := root }

def allocOrTrim (s : Fib) (kmalloc kmalloc' : Bool) : Except Fault (Nat × Fib) :=
  match s.fibnAlloc kmalloc with
  | some r => .ok r
  | none => do
    let s ← myTrimTree rb s
    match s.fibnAlloc kmalloc' with
    | some r => .ok r
    | none => .error .nullDeref

def ixgbeWfsFibUpdate (s : Fib) (key : FibKey) (kmalloc kmalloc' : Bool) (vid : UInt16)
    (mac : Mac) (ip : UInt32) (wfsid : UInt8) : Except Fault Fib :=
  if wfsid < wfsidMin ∨ wfsid > wfsidMax then .error (.bugOn .fibWfsid)
  else
    match s.mySearch key s.fibRoot (vid &&& 0xfff) mac with
    | some fibn =>
      .ok (s.setNode fibn { s.mem fibn with ip, wfsid, timeTag := s.currentTimeTag })
    | none => do
      let (n, s) ← allocOrTrim rb s kmalloc kmalloc'
      let s := s.setNode n { s.mem n with
        key := ⟨vid &&& 0xfff, mac⟩, ip, wfsid, timeTag := s.currentTimeTag }
      let (s, root, fibn) := myInsert rb s s.fibRoot n
      let s := { s with fibRoot := root }
      -- the key was there after all
      if n ≠ fibn then pure (s.fibnFree n) else pure { s with fibSize := s.fibSize + 1 }

/-- `timer_action`, after the timer fired. -/
def timerAction (s : Fib) : Except Fault Fib := myTrimTree rb { s with fibTimer := false }

end Tree

/-! ## Initialisation -/

/-- The allocation loop of `ixgbe_wfs_fib_init`; the flag is whether it ran to the end. -/
def initAlloc (kmalloc : Nat → Bool) : Nat → Fib → Fib × Bool
  | 0, s => (s, true)
  | k + 1, s =>
    match s.fibnAlloc (kmalloc (fibSizeMin - (k + 1))) with
    | none => (s, false)
    | some (_, s) => initAlloc kmalloc k s

/-- The second loop of `ixgbe_wfs_fib_init`. -/
def initFree : Nat → Option Nat → Fib → Fib
  | _, none, s => s
  | 0, some _, s => s
  | fuel + 1, some n, s =>
    let s' := s.fibnFree n
    initFree fuel (s'.mem n).nextAlloc s'

/-- `ixgbe_wfs_fib_init` with the outcome of the `i`-th allocation; the flag is whether it
    returned 0. -/
def ixgbeWfsFibInit (kmalloc : Nat → Bool) : Fib × Bool :=
  match initAlloc kmalloc fibSizeMin {} with
  | (s, false) => (s, false)
  | (s, true) => ({ initFree s.fibAllocSize s.fibns s with fibTimer := true }, true)

end Fib

/-! ## Calls -/

/-- A call of the table's interface, with what it takes from the outside: the contents of
    the local key of `my_search` and allocation outcomes. -/
inductive FibOp where
  | update (key : FibKey) (kmalloc kmalloc' : Bool) (vid : UInt16) (mac : Mac) (ip : UInt32)
      (wfsid : UInt8)
  | lookup (key : FibKey) (vid : UInt16) (mac : Mac)
  | delete (key : FibKey) (vid : UInt16) (mac : Mac)
  | deleteWfsid (wfsid : UInt8)
  | timer

def FibOp.step (rb : Balancer Nat) (op : FibOp) (s : Fib) : Except Fault (Fib × Option UInt8) :=
  match op with
  | .update key k k' vid mac ip wfsid => do
    pure (← s.ixgbeWfsFibUpdate rb key k k' vid mac ip wfsid, none)
  | .lookup key vid mac => .ok (s, some (s.ixgbeWfsFibLookup key vid mac))
  | .delete key vid mac => .ok (s.ixgbeWfsFibDelete rb key vid mac, none)
  | .deleteWfsid wfsid => do pure (← s.ixgbeWfsFibDeleteWfsid rb wfsid, none)
  | .timer => do pure (← s.timerAction rb, none)

def FibStep (rb : Balancer Nat) (s : Fib) (op : FibOp) (t : Fib) : Prop :=
  ∃ res, op.step rb s = .ok (t, res)

theorem FibStep.unique {rb : Balancer Nat} {s t t' : Fib} {op : FibOp} (h : FibStep rb s op t)
    (h' : FibStep rb s op t') : t = t' := by
  obtain ⟨res, h⟩ := h
  obtain ⟨res', h'⟩ := h'
  rw [h] at h'
  simp only [Except.ok.injEq, Prod.mk.injEq] at h'
  exact h'.1

end VmkDrivers.Wfs
