/-
  VmkDrivers.Wfs.FibNodes

  The nodes of the forwarding table over whole runs.

  The allocation list `fibns` is written by `fibn_alloc` only: everything else
  moves nodes between the tree and the free list and leaves their
  `next_alloc` alone (`allocView`).  Together with `FibOk` this says where
  every allocated node is after any sequence of calls.

  `timer_action` does not start when `fib_timer` fires, so other calls can
  come in between; those are the ones whose `my_trim_tree` finds the timer
  not pending.
-/

import VmkDrivers.Wfs.FibFull

namespace VmkDrivers.Wfs

open VmkDrivers.Lib

namespace Fib

/-! ## Statements -/

/-- Each node on the allocation list is in exactly one of the tree and the free list, the free
    list is well formed, the counters are right, and the tree is in order. -/
def NodesConserved (s : Fib) : Prop :=
  ∃ allocs free,
    Chain (fun a => (s.mem a).nextAlloc) s.fibns allocs ∧ allocs.Nodup ∧
    IsQueue (nextOf s.mem) s.fibnHead s.fibnTail free ∧
    (∀ n ∈ allocs, (n ∈ s.fibRoot.inorder ∧ n ∉ free) ∨ (n ∉ s.fibRoot.inorder ∧ n ∈ free)) ∧
    (∀ n, n ∈ s.fibRoot.inorder ∨ n ∈ free → n ∈ allocs) ∧
    s.fibSize = s.fibRoot.inorder.length ∧
    s.fibSize + free.length = s.fibAllocSize ∧ s.fibAllocSize = allocs.length ∧
    s.fibAllocSize ≤ fibSizeMax ∧
    s.fibRoot.inorder.Pairwise fun a b => keycmp (s.mem a).key (s.mem b).key < 0

end Fib

inductive FibEvent where
  | call (op : FibOp)
  /-- `fib_timer` fires: it is no longer pending. -/
  | fire
  /-- `timer_action` gets `fib_lock`. -/
  | action

def FibEventStep (rb : Balancer Nat) (s : Fib) (ev : FibEvent) (t : Fib) : Prop :=
  match ev with
  | .call op => FibStep rb s op t
  | .fire => s.fibTimer = true ∧ t = { s with fibTimer := false }
  | .action => Fib.myTrimTree rb s = .ok t

namespace Fib

/-! ## The allocation list -/

def allocView (s : Fib) : Option Nat × Nat × (Nat → Option Nat) :=
  (s.fibns, s.fibAllocSize, fun a => (s.mem a).nextAlloc)

theorem fibnFree_allocView (s : Fib) (n : Nat) : (s.fibnFree n).allocView = s.allocView := by
  have hnext : (fun a => ((s.fibnFree n).mem a).nextAlloc) = fun a => (s.mem a).nextAlloc :=
    funext (fibnFree_field FibNode.nextAlloc (fun _ _ => rfl) s n)
  unfold allocView
  rw [hnext, fibnFree_eq]

theorem setNode_allocView (s : Fib) {n : Nat} {node : FibNode}
    (h : node.nextAlloc = (s.mem n).nextAlloc) : (s.setNode n node).allocView = s.allocView := by
  have hnext : (fun a => ((s.setNode n node).mem a).nextAlloc) = fun a => (s.mem a).nextAlloc :=
    funext (update_field FibNode.nextAlloc h)
  unfold allocView
  rw [hnext]
  rfl

/-- What moving nodes between trees and the free list leaves alone, whatever it sees of the
    table. -/
structure KeptByMoves {β : Type} (view : Fib → β) : Prop where
  root : ∀ s root size, view { s with fibRoot := root, fibSize := size } = view s
  free : ∀ s n, view (s.fibnFree n) = view s
  set : ∀ s n node, node.nextAlloc = (s.mem n).nextAlloc → view (s.setNode n node) = view s

theorem keptByMoves_allocView : KeptByMoves allocView where
  root _ _ _ := rfl
  free := fibnFree_allocView
  set s _ _ h := setNode_allocView s h

theorem keptByMoves_timeTag : KeptByMoves Fib.currentTimeTag where
  root _ _ _ := rfl
  free s n := by rw [fibnFree_eq]
  set _ _ _ _ := rfl

variable (rb : Balancer Nat)

section Kept

variable {β : Type} {view : Fib → β} {drop : FibNode → Bool}

theorem myInsert_kept (hk : KeptByMoves view) (s : Fib) (root : Lib.Tree Nat) (n : Nat) :
    view (myInsert rb s root n).1 = view s := by
  unfold myInsert
  split
  · split
    · exact hk.set s _ _ rfl
    · rfl
  · rfl

theorem rebuildLoop_kept (hk : KeptByMoves view) {fuel : Nat} {s t : Fib}
    {root root' : Lib.Tree Nat} (h : rebuildLoop rb drop fuel s root = .ok (t, root')) :
    view t = view s := by
  induction fuel generalizing s root with
  | zero =>
    rw [rebuildLoop] at h
    split at h
    · simp only [Except.ok.injEq, Prod.mk.injEq] at h
      rw [h.1]
    · cases h
  | succ fuel ih =>
    rw [rebuildLoop] at h
    split at h
    · simp only [Except.ok.injEq, Prod.mk.injEq] at h
      rw [h.1]
    · next n hlast =>
      -- the node taken out goes to the free list or to the new tree
      have herase := hk.root s (rb.erase n s.fibRoot) s.fibSize
      simp only at h
      split at h
      · exact (ih h).trans ((hk.free _ n).trans herase)
      · have hsize := hk.root (myInsert rb { s with fibRoot := rb.erase n s.fibRoot } root n).1
          (myInsert rb { s with fibRoot := rb.erase n s.fibRoot } root n).1.fibRoot
          ((myInsert rb { s with fibRoot := rb.erase n s.fibRoot } root n).1.fibSize + 1)
        exact (ih h).trans (hsize.trans ((myInsert_kept rb hk _ root n).trans herase))

theorem trimLoop_kept (hk : KeptByMoves view) {i : Nat} {s t : Fib} {root root' : Lib.Tree Nat}
    (h : trimLoop rb i s root = .ok (t, root')) : view t = view s := by
  induction i generalizing s root with
  | zero =>
    simp only [trimLoop, Except.ok.injEq, Prod.mk.injEq] at h
    rw [h.1]
  | succ i ih =>
    rw [trimLoop] at h
    split at h
    · cases h
    · next n hlast =>
      have hsize := hk.root (s.fibnFree n) (s.fibnFree n).fibRoot (s.fibSize - 1)
      exact (ih h).trans (hsize.trans (hk.free s n))

theorem rebuild_kept (hk : KeptByMoves view) {s t : Fib} {root : Lib.Tree Nat}
    (h : rebuild rb drop s = .ok (t, root)) : view t = view s := by
  exact (rebuildLoop_kept rb hk h).trans (hk.root s s.fibRoot 0)

end Kept

theorem trimDone_allocView {s t : Fib} (h : trimDone s = .ok t) : t.allocView = s.allocView := by
  unfold trimDone at h
  split at h
  · exact nomatch h
  · rw [← Except.ok.inj h]
    rfl

theorem myTrimTree_allocView {s t : Fib} (h : myTrimTree rb s = .ok t) :
    t.allocView = s.allocView := by
  unfold myTrimTree at h
  split at h
  · exact trimDone_allocView h
  · cases hrun : rebuild rb (fun n => n.timeTag ≠ s.currentTimeTag) s with
    | error f =>
      simp only [hrun, bind, Except.bind] at h
      exact nomatch h
    | ok r =>
      have hrebuild := rebuild_kept rb keptByMoves_allocView hrun
      simp only [hrun, bind, Except.bind] at h
      by_cases hfull : r.1.fibSize = fibSizeMax
      · rw [if_pos hfull] at h
        cases htrim : trimLoop rb (fibSizeMax - fibSizeMin) r.1 r.2 with
        | error f => simp [htrim] at h
        | ok r' =>
          simp only [htrim] at h
          have hloop := trimLoop_kept rb keptByMoves_allocView htrim
          exact (trimDone_allocView h).trans (hloop.trans hrebuild)
      · rw [if_neg hfull] at h
        exact (trimDone_allocView h).trans hrebuild

/-- The allocation list holds the nodes from the last one allocated down to the first. -/
structure AllocList (s : Fib) : Prop where
  fibns : s.fibns = prevNode s.fibAllocSize
  next : ∀ i < s.fibAllocSize, (s.mem i).nextAlloc = prevNode i

variable {s t : Fib}

theorem AllocList.same (h : AllocList s) (hs : t.allocView = s.allocView) : AllocList t := by
  simp only [allocView, Prod.mk.injEq] at hs
  obtain ⟨hfibns, hsize, hnext⟩ := hs
  refine ⟨?_, fun i hi => ?_⟩
  · rw [hfibns, hsize]
    exact h.fibns
  · rw [hsize] at hi
    exact (congrFun hnext i).trans (h.next i hi)

/-- **`fibn_alloc`** puts a new node at the head of the list. -/
theorem AllocList.alloc (h : AllocList s) {kmalloc : Bool} {n : Nat}
    (ha : s.fibnAlloc kmalloc = some (n, t)) : AllocList t := by
  unfold fibnAlloc at ha
  split at ha
  · simp only [Option.some.injEq, Prod.mk.injEq] at ha
    rw [← ha.2]
    exact h.same rfl
  · split at ha
    · split at ha
      · simp only [Option.some.injEq, Prod.mk.injEq] at ha
        rw [← ha.2]
        refine ⟨rfl, fun i hi => ?_⟩
        by_cases hlast : i = s.fibAllocSize
        · subst hlast
          show (Function.update s.mem s.fibAllocSize _ s.fibAllocSize).nextAlloc = _
          rw [Function.update_self]
          exact h.fibns
        · have hlt : i < s.fibAllocSize := by
            have : i < s.fibAllocSize + 1 := hi
            omega
          show (Function.update s.mem s.fibAllocSize _ i).nextAlloc = _
          rw [Function.update_of_ne hlast]
          exact h.next i hlt
      · exact nomatch ha
    · exact nomatch ha

theorem AllocList.chain (h : AllocList s) :
    Chain (fun a => (s.mem a).nextAlloc) s.fibns (nodesBelow s.fibAllocSize) := by
  rw [h.fibns]
  have hbelow : ∀ k ≤ s.fibAllocSize,
      Chain (fun a => (s.mem a).nextAlloc) (prevNode k) (nodesBelow k) := by
    intro k hk
    induction k with
    | zero => exact rfl
    | succ k ih =>
      refine ⟨rfl, ?_⟩
      simp only
      rw [h.next k (by omega)]
      exact ih (by omega)
  exact hbelow _ le_rfl

theorem mem_nodesBelow {k n : Nat} : n ∈ nodesBelow k ↔ n < k := by
  induction k with
  | zero => simp [nodesBelow]
  | succ k ih =>
    rw [nodesBelow, List.mem_cons, ih]
    omega

theorem nodup_nodesBelow (k : Nat) : (nodesBelow k).Nodup := by
  induction k with
  | zero => exact .nil
  | succ k ih =>
    rw [nodesBelow, List.nodup_cons, mem_nodesBelow]
    exact ⟨by omega, ih⟩

/-- **Conservation** is the invariant of the table with that of the allocation list. -/
theorem FibOk.nodesConserved (h : FibOk s) (ha : AllocList s) : NodesConserved s := by
  obtain ⟨free, hlay⟩ := h.layout
  rw [List.nil_append] at hlay
  have hmem : ∀ n, n ∈ free ++ s.fibRoot.inorder ↔ n < s.fibAllocSize := fun n => by
    rw [hlay.perm.mem_iff, List.mem_range]
  have hlen := hlay.length_eq
  have hsize := h.size
  refine ⟨nodesBelow s.fibAllocSize, free, ha.chain, nodup_nodesBelow _, hlay.freeQ, ?_, ?_,
    hsize, by omega, (length_nodesBelow _).symm, hlay.bound, h.sorted⟩
  · intro n hn
    rcases List.mem_append.mp ((hmem n).mpr (mem_nodesBelow.mp hn)) with hfree | htree
    · exact .inr ⟨fun htree => hlay.not_free htree hfree, hfree⟩
    · exact .inl ⟨htree, hlay.not_free htree⟩
  · intro n hn
    exact mem_nodesBelow.mpr ((hmem n).mp (List.mem_append.mpr hn.symm))

/-! ## Calls -/

theorem AllocList.allocOrTrim (h : AllocList s) {k k' : Bool} {n : Nat}
    (ha : Fib.allocOrTrim rb s k k' = .ok (n, t)) : AllocList t := by
  unfold Fib.allocOrTrim at ha
  cases halloc : s.fibnAlloc k with
  | some r =>
    rw [halloc] at ha
    cases ha
    exact h.alloc halloc
  | none =>
    cases htrim : myTrimTree rb s with
    | error f => simp [halloc, htrim, bind, Except.bind] at ha
    | ok u =>
      cases halloc' : u.fibnAlloc k' with
      | none => simp [halloc, htrim, halloc', bind, Except.bind] at ha
      | some r =>
        simp only [halloc, htrim, halloc', bind, Except.bind] at ha
        cases ha
        exact (h.same (myTrimTree_allocView rb htrim)).alloc halloc'

theorem update_allocView {key : FibKey} {k k' : Bool} {vid : UInt16} {mac : Mac} {ip : UInt32}
    {wfsid : UInt8} (hu : s.ixgbeWfsFibUpdate rb key k k' vid mac ip wfsid = .ok t) :
    t.allocView = s.allocView ∨
      ∃ n u, Fib.allocOrTrim rb s k k' = .ok (n, u) ∧ t.allocView = u.allocView := by
  unfold ixgbeWfsFibUpdate at hu
  split at hu
  · exact nomatch hu
  · split at hu
    · rw [← Except.ok.inj hu]
      exact .inl (setNode_allocView s rfl)
    · cases halloc : Fib.allocOrTrim rb s k k' with
      | error f => simp [halloc, bind, Except.bind] at hu
      | ok r =>
        obtain ⟨n, u⟩ := r
        simp only [halloc, bind, Except.bind] at hu
        -- the node is filled in and goes to the tree, or back to the free list
        have hins : ∀ node : FibNode, node.nextAlloc = (u.mem n).nextAlloc →
            (myInsert rb (u.setNode n node) u.fibRoot n).1.allocView = u.allocView :=
          fun node hnode =>
            (myInsert_kept rb keptByMoves_allocView _ u.fibRoot n).trans (setNode_allocView u hnode)
        refine .inr ⟨n, u, rfl, ?_⟩
        split at hu
        · rw [← Except.ok.inj hu]
          exact (fibnFree_allocView _ n).trans (hins _ rfl)
        · rw [← Except.ok.inj hu]
          exact hins _ rfl

theorem AllocList.update (h : AllocList s) {key : FibKey} {k k' : Bool} {vid : UInt16}
    {mac : Mac} {ip : UInt32} {wfsid : UInt8}
    (hu : s.ixgbeWfsFibUpdate rb key k k' vid mac ip wfsid = .ok t) : AllocList t := by
  rcases update_allocView rb hu with hview | ⟨n, u, halloc, hview⟩
  · exact h.same hview
  · exact (h.allocOrTrim rb halloc).same hview

theorem AllocList.of_step {op : FibOp} (h : AllocList s) (hstep : FibStep rb s op t) :
    AllocList t := by
  obtain ⟨res, hstep⟩ := hstep
  cases op with
  | update key k k' vid mac ip wfsid =>
    cases hu : s.ixgbeWfsFibUpdate rb key k k' vid mac ip wfsid with
    | error f =>
      rw [FibOp.step, hu] at hstep
      cases hstep
    | ok u =>
      rw [FibOp.step, hu] at hstep
      cases hstep
      exact h.update rb hu
  | lookup key vid mac =>
    cases hstep
    exact h
  | delete key vid mac =>
    cases hstep
    unfold ixgbeWfsFibDelete
    split
    · next n hn => exact h.same (fibnFree_allocView { s with fibRoot := rb.erase n s.fibRoot } n)
    · exact h
  | deleteWfsid wfsid =>
    simp only [FibOp.step, ixgbeWfsFibDeleteWfsid] at hstep
    split at hstep
    · cases hstep
    · cases hrun : rebuild rb (fun n => decide (n.wfsid = wfsid)) s with
      | error f => simp [hrun, bind, Except.bind] at hstep
      | ok r =>
        simp only [hrun, bind, Except.bind] at hstep
        cases hstep
        have hview := rebuild_kept rb keptByMoves_allocView hrun
        exact h.same hview
  | timer =>
    cases hu : s.timerAction rb with
    | error f =>
      rw [FibOp.step, hu] at hstep
      cases hstep
    | ok u =>
      rw [FibOp.step, hu] at hstep
      cases hstep
      have hview := myTrimTree_allocView rb hu
      exact h.same hview

/-! ## Runs -/

theorem FibOk.of_timer (h : FibOk s) (timer : Bool) : FibOk { s with fibTimer := timer } := by
  obtain ⟨free, hlay⟩ := h.layout
  exact ⟨⟨free, hlay.congr rfl rfl rfl rfl⟩, h.sorted, h.size⟩

/-- **One step.** Calls and both halves of the timer keep the nodes where they should be. -/
theorem conserved_of_step {ev : FibEvent} (h : FibOk s ∧ AllocList s)
    (hstep : FibEventStep rb s ev t) : FibOk t ∧ AllocList t := by
  obtain ⟨hok, hallocs⟩ := h
  cases ev with
  | call op => exact ⟨hok.of_step rb hstep, hallocs.of_step rb hstep⟩
  | fire =>
    obtain ⟨_, rfl⟩ := hstep
    exact ⟨hok.of_timer false, hallocs.same rfl⟩
  | action =>
    have hrun : myTrimTree rb s = .ok t := hstep
    exact ⟨hok.of_trim rb hrun, hallocs.same (myTrimTree_allocView rb hrun)⟩

theorem initFree_allocView (fuel : Nat) (p : Option Nat) (s : Fib) :
    (initFree fuel p s).allocView = s.allocView := by
  induction fuel generalizing p s with
  | zero => cases p <;> rfl
  | succ fuel ih =>
    cases p with
    | none => rfl
    | some n => exact (ih _ _).trans (fibnFree_allocView s n)

theorem allocList_init {kmalloc : Nat → Bool} (h : (ixgbeWfsFibInit kmalloc).2 = true) :
    AllocList (ixgbeWfsFibInit kmalloc).1 := by
  have hempty : Allocated {} 0 := ⟨⟨.nil _, .refl _, Nat.zero_le _⟩, rfl, rfl, rfl, by omega⟩
  unfold ixgbeWfsFibInit at h ⊢
  split
  · next u hu =>
    rw [hu] at h
    exact nomatch h
  · next u hu =>
    have halloc := hempty.initAlloc hu
    have hsize := halloc.fibAllocSize
    have hlist : AllocList u := ⟨hsize ▸ halloc.fibns, hsize ▸ halloc.next⟩
    exact hlist.same (initFree_allocView _ _ u)

theorem conserved_of_events {kmalloc : Nat → Bool} {evs : List FibEvent}
    (hinit : (ixgbeWfsFibInit kmalloc).2 = true)
    (hrun : Run (FibEventStep rb) (ixgbeWfsFibInit kmalloc).1 evs t) : FibOk t ∧ AllocList t := by
  have hstart : FibOk (ixgbeWfsFibInit kmalloc).1 ∧ AllocList (ixgbeWfsFibInit kmalloc).1 :=
    ⟨(init_spec (Prod.ext rfl hinit)).1, allocList_init hinit⟩
  exact hrun.invariant (fun _ _ _ h hstep => conserved_of_step rb h hstep) hstart

/-- **FIB nodes.** After `ixgbe_wfs_fib_init` let calls and the timer come in any order: each
    allocated node is in exactly one of the tree and the free list, both are well formed, and
    the counters are right. -/
theorem fib_nodes_conserved_of_run {kmalloc : Nat → Bool} {evs : List FibEvent}
    (hinit : (ixgbeWfsFibInit kmalloc).2 = true)
    (hrun : Run (FibEventStep rb) (ixgbeWfsFibInit kmalloc).1 evs t) : NodesConserved t := by
  obtain ⟨hok, halloc⟩ := conserved_of_events rb hinit hrun
  exact hok.nodesConserved halloc

/-! ## A run -/

end Fib

def FibEvent.next? (rb : Balancer Nat) (s : Fib) : FibEvent → Option Fib
  | .call op => (op.step rb s).toOption.map Prod.fst
  | .fire => if s.fibTimer then some { s with fibTimer := false } else none
  | .action => (Fib.myTrimTree rb s).toOption

theorem FibEvent.next?_eq_some_iff (rb : Balancer Nat) (s : Fib) (ev : FibEvent) (t : Fib) :
    ev.next? rb s = some t ↔ FibEventStep rb s ev t := by
  cases ev with
  | call op =>
    simp only [next?, FibEventStep, FibStep]
    cases op.step rb s with
    | error f => simp [Except.toOption]
    | ok r => simp [Except.toOption, Prod.ext_iff]
  | fire =>
    simp only [next?, FibEventStep]
    split
    · next htimer => simp [htimer, eq_comm]
    · next htimer => simp [htimer]
  | action =>
    simp only [next?, FibEventStep]
    cases Fib.myTrimTree rb s <;> simp [Except.toOption]

namespace Fib

def agingRun : List FibEvent :=
  let mac : Mac := Vector.replicate 6 2
  [.call (.update ⟨5, mac⟩ true true 5 mac 0 1), .call (.update ⟨6, mac⟩ true true 6 mac 0 2),
    .fire, .call (.deleteWfsid 1), .action, .call (.lookup ⟨6, mac⟩ 6 mac)]

theorem fib_nodes_conserved_agingRun :
    ∃ t, Run (FibEventStep .plain) (ixgbeWfsFibInit fun _ => true).1 agingRun t ∧
      NodesConserved t := by
  have hdone : (Run.exec (fun s ev => FibEvent.next? .plain s ev)
      (ixgbeWfsFibInit fun _ => true).1 agingRun).isSome = true := by
    decide +kernel
  obtain ⟨t, ht⟩ := Option.isSome_iff_exists.mp hdone
  have hrun : Run (FibEventStep .plain) (ixgbeWfsFibInit fun _ => true).1 agingRun t :=
    (Run.exec_eq_some_iff (FibEvent.next?_eq_some_iff .plain)).mp ht
  exact ⟨t, hrun, fib_nodes_conserved_of_run .plain init_of_kmalloc hrun⟩

end Fib

end VmkDrivers.Wfs
