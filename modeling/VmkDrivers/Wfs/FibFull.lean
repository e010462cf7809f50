/-
  VmkDrivers.Wfs.FibFull

  The forwarding table when it runs out of nodes.

  A new key then makes `my_trim_tree` free some, which re-arms `fib_timer`
  and so stops the kernel if the timer is pending.  `Fib.Takes` says when an
  update finds a node; the invariant of the table holds in every state
  that calls can reach, full or not.
-/

import VmkDrivers.Wfs.FibRefine

namespace VmkDrivers.Wfs

open VmkDrivers.Lib

namespace Fib

variable (rb : Balancer Nat) {s : Fib} {t : Fib}

/-! ## Trimming -/

theorem trimLoop_spec {i : Nat} {root : Lib.Tree Nat} (h : FibOk { s with fibRoot := root })
    (hi : i ≤ root.inorder.length) :
    ∃ t root', trimLoop rb i s root = .ok (t, root') ∧ FibOk { t with fibRoot := root' } ∧
      t.outside = s.outside ∧ root'.inorder.length + i = root.inorder.length := by
  induction i generalizing s root with
  | zero => exact ⟨s, root, rfl, h, rfl, rfl⟩
  | succ i ih =>
    have hne : root.inorder ≠ [] := List.ne_nil_of_length_pos (by omega)
    obtain ⟨n, hlast⟩ := Option.ne_none_iff_exists'.mp
      (fun hnone => hne (List.getLast?_eq_none_iff.mp hnone))
    have hmem : n ∈ root.inorder := List.mem_of_getLast? hlast
    have hfree : FibOk
        { s.fibnFree n with fibRoot := rb.erase n root, fibSize := s.fibSize - 1 } := by
      rw [← fibnFree_set]
      exact (h.erase rb hmem).1.fibnFree.1
    rw [← Lib.Tree.last_eq] at hlast
    have herase := rb.erase_inorder n root hmem (nodup_of_pairwise h.sorted)
    have hlen : (rb.erase n root).inorder.length = root.inorder.length - 1 := by
      rw [herase, List.length_erase_of_mem hmem]
    have hle : i ≤ (rb.erase n root).inorder.length := by omega
    obtain ⟨t, root', hrun, hok, hout, hlen'⟩ :=
      ih (s := { s.fibnFree n with fibSize := s.fibSize - 1 }) hfree hle
    refine ⟨t, root', ?_, hok, hout.trans (fibnFree_outside s n), by omega⟩
    rw [trimLoop, hlast]
    exact hrun

/-- `fibn_alloc` has a node to hand out. -/
def HasNode (s : Fib) (kmalloc : Bool) : Prop :=
  s.fibnHead ≠ none ∨ (s.fibAllocSize < fibSizeMax ∧ kmalloc = true)

instance (s : Fib) (kmalloc : Bool) : Decidable (s.HasNode kmalloc) :=
  inferInstanceAs (Decidable (_ ∨ _))

theorem hasNode_iff (kmalloc : Bool) : s.HasNode kmalloc ↔ ∃ r, s.fibnAlloc kmalloc = some r := by
  unfold HasNode fibnAlloc
  cases hhead : s.fibnHead with
  | some n => exact iff_of_true (.inl (by simp)) ⟨_, rfl⟩
  | none =>
    by_cases hsize : s.fibAllocSize < fibSizeMax <;> cases kmalloc <;> simp [hsize]

theorem hasNode_of_length_lt (h : FibOk s) (hlt : s.fibRoot.inorder.length < s.fibAllocSize)
    (kmalloc : Bool) : s.HasNode kmalloc := by
  obtain ⟨free, hlay⟩ := h.layout
  refine .inl fun hnone => ?_
  have hlen := hlay.length_eq
  rw [hlay.freeQ.head_eq_none_iff.mp hnone, List.length_nil, List.nil_append] at hlen
  omega

theorem trimDone_armed (htimer : s.fibTimer = true) :
    trimDone s = .error (.bugOn .timerPending) := by
  rw [trimDone, if_pos htimer]

theorem trimDone_spec (h : FibOk s) (htimer : s.fibTimer = false) :
    ∃ t, trimDone s = .ok t ∧ FibOk t ∧ ∀ k, t.HasNode k ↔ s.HasNode k := by
  obtain ⟨free, hlay⟩ := h.layout
  refine ⟨{ s with currentTimeTag := s.currentTimeTag + 1, fibTimer := true }, ?_,
    ⟨⟨free, hlay.congr rfl rfl rfl rfl⟩, h.sorted, h.size⟩, fun k => Iff.rfl⟩
  rw [trimDone, htimer]
  rfl

theorem trim_loops (h : FibOk s) (hfull : (fibSizeMax : Int) ≤ s.fibSize) :
    ∃ t, myTrimTree rb s = trimDone t ∧ FibOk t ∧ t.fibTimer = s.fibTimer ∧
      ∀ k, t.HasNode k := by
  have hdrop : ∀ a b : FibNode, a.wfsid = b.wfsid → a.timeTag = b.timeTag →
      decide (a.timeTag ≠ s.currentTimeTag) = decide (b.timeTag ≠ s.currentTimeTag) := by
    intro a b _ hab
    rw [hab]
  obtain ⟨t, root, hrun, _, hout, hok, hroot⟩ := rebuild_spec rb hdrop h
  obtain ⟨free, hlay⟩ := h.layout
  have hsize := h.size
  have hlen := hlay.length_eq
  have hbound := hlay.bound
  rw [List.nil_append] at hlen
  have hle : root.inorder.length ≤ s.fibRoot.inorder.length := by
    rw [hroot]
    exact List.length_filter_le _ _
  have htsize : t.fibSize = root.inorder.length := hok.size
  have halloc : t.fibAllocSize = s.fibAllocSize := congrArg Prod.snd hout
  have hrest : myTrimTree rb s =
      if t.fibSize = fibSizeMax then
        (trimLoop rb (fibSizeMax - fibSizeMin) t root).bind fun r =>
          trimDone { r.1 with fibRoot := r.2 }
      else trimDone { t with fibRoot := root } := by
    rw [myTrimTree, if_neg (by omega)]
    simp only [hrun, bind, Except.bind]
  rw [hrest]
  by_cases heq : t.fibSize = fibSizeMax
  · -- no node was stale
    have hmin : fibSizeMax - fibSizeMin ≤ root.inorder.length := by omega
    obtain ⟨u, root', htrim, hok', hout', hlen'⟩ := trimLoop_spec rb hok hmin
    rw [if_pos heq, htrim]
    refine ⟨{ u with fibRoot := root' }, rfl, hok', congrArg Prod.fst (hout'.trans hout),
      hasNode_of_length_lt hok' ?_⟩
    have halloc' : u.fibAllocSize = s.fibAllocSize := congrArg Prod.snd (hout'.trans hout)
    have hpos : 0 < fibSizeMax - fibSizeMin := by decide
    show root'.inorder.length < u.fibAllocSize
    omega
  · rw [if_neg heq]
    refine ⟨{ t with fibRoot := root }, rfl, hok, congrArg Prod.fst hout,
      hasNode_of_length_lt hok ?_⟩
    show root.inorder.length < t.fibAllocSize
    omega

/-- **`my_trim_tree`** leaves a free node behind if the table was full. -/
theorem myTrimTree_spec (h : FibOk s) (htimer : s.fibTimer = false) :
    ∃ t, myTrimTree rb s = .ok t ∧ FibOk t ∧
      ∀ k, t.HasNode k ↔ (fibSizeMax : Int) ≤ s.fibSize ∨ s.HasNode k := by
  by_cases hfull : (fibSizeMax : Int) ≤ s.fibSize
  · obtain ⟨t, htrim, hok, ht, hnode⟩ := trim_loops rb h hfull
    obtain ⟨u, hdone, hok', hnode'⟩ := trimDone_spec hok (ht.trans htimer)
    exact ⟨u, htrim.trans hdone, hok', fun k => iff_of_true ((hnode' k).mpr (hnode k)) (.inl hfull)⟩
  · obtain ⟨t, hdone, hok, hnode⟩ := trimDone_spec h htimer
    refine ⟨t, by rw [myTrimTree, if_pos (by omega), hdone], hok, fun k => ?_⟩
    rw [hnode, or_iff_right hfull]

theorem myTrimTree_armed (h : FibOk s) (htimer : s.fibTimer = true) :
    myTrimTree rb s = .error (.bugOn .timerPending) := by
  by_cases hfull : (fibSizeMax : Int) ≤ s.fibSize
  · obtain ⟨t, htrim, _, ht, _⟩ := trim_loops rb h hfull
    exact htrim.trans (trimDone_armed (ht.trans htimer))
  · rw [myTrimTree, if_pos (by omega)]
    exact trimDone_armed htimer

theorem FibOk.of_trim (h : FibOk s) (hrun : myTrimTree rb s = .ok t) : FibOk t := by
  cases htimer : s.fibTimer with
  | true =>
    rw [myTrimTree_armed rb h htimer] at hrun
    cases hrun
  | false =>
    obtain ⟨u, hu, hok, -⟩ := myTrimTree_spec rb h htimer
    rw [hu] at hrun
    exact Except.ok.inj hrun ▸ hok

/-! ## Updates -/

theorem Holding.of_fibnAlloc {n : Nat} {k : Bool} (h : FibOk s)
    (halloc : s.fibnAlloc k = some (n, t)) : Holding t [n] := by
  obtain ⟨free, hlay⟩ := h.layout
  obtain ⟨hcarry, hroot, hsize, free', hlay'⟩ := hlay.alloc halloc
  refine ⟨⟨free', ?_⟩, ?_, ?_⟩
  · rw [hroot]
    exact hlay'
  · rw [hroot, hcarry.keyLt]
    exact h.sorted
  · rw [hroot, hsize]
    exact h.size

def CanAlloc (s : Fib) (kmalloc kmalloc' : Bool) : Prop :=
  s.HasNode kmalloc ∨ (s.fibTimer = false ∧ ((fibSizeMax : Int) ≤ s.fibSize ∨ s.HasNode kmalloc'))

instance (s : Fib) (k k' : Bool) : Decidable (s.CanAlloc k k') :=
  inferInstanceAs (Decidable (_ ∨ _ ∧ (_ ∨ _)))

/-- **A node for a new key**, or else a crash. -/
theorem allocOrTrim_spec (h : FibOk s) (k k' : Bool) :
    (s.CanAlloc k k' ∧ ∃ n t, allocOrTrim rb s k k' = .ok (n, t) ∧ Holding t [n]) ∨
      (¬s.CanAlloc k k' ∧ ∃ f, f ≠ .diverges ∧ allocOrTrim rb s k k' = .error f) := by
  unfold allocOrTrim CanAlloc
  cases halloc : s.fibnAlloc k with
  | some r =>
    refine .inl ⟨.inl ?_, r.1, r.2, rfl, .of_fibnAlloc h halloc⟩
    exact (hasNode_iff k).mpr ⟨r, halloc⟩
  | none =>
    have hno : ¬s.HasNode k := by
      rw [hasNode_iff, halloc]
      rintro ⟨r, hr⟩
      exact nomatch hr
    rw [or_iff_right hno]
    cases htimer : s.fibTimer with
    | true =>
      refine .inr ⟨(fun hno' => nomatch hno'.1), .bugOn .timerPending, by decide, ?_⟩
      simp only [myTrimTree_armed rb h htimer, bind, Except.bind]
    | false =>
      obtain ⟨t, htrim, hok, hnode⟩ := myTrimTree_spec rb h htimer
      rw [← hnode, hasNode_iff, and_iff_right rfl]
      simp only [htrim, bind, Except.bind]
      cases halloc' : t.fibnAlloc k' with
      | some r => exact .inl ⟨⟨r, rfl⟩, r.1, r.2, rfl, .of_fibnAlloc hok halloc'⟩
      | none => exact .inr ⟨(fun ⟨r, hr⟩ => nomatch hr), .nullDeref, by decide, rfl⟩

/-- The table can take an update: its wfsid is one, and the key found in the local variable
    of the search is in the table or there is a node for a new one. -/
def Takes (s : Fib) (key : FibKey) (k k' : Bool) (wfsid : UInt8) : Prop :=
  ValidWfsid wfsid ∧ (s.content key ≠ none ∨ s.CanAlloc k k')

/-- **An update** runs through if the table can take it, and crashes otherwise. -/
theorem update_takes (h : FibOk s) (key : FibKey) (k k' : Bool) (vid : UInt16) (mac : Mac)
    (ip : UInt32) (wfsid : UInt8) :
    (s.Takes key k k' wfsid ∧
        ∃ t, s.ixgbeWfsFibUpdate rb key k k' vid mac ip wfsid = .ok t ∧ FibOk t) ∨
      (¬s.Takes key k k' wfsid ∧
        ∃ f, f ≠ .diverges ∧ s.ixgbeWfsFibUpdate rb key k k' vid mac ip wfsid = .error f) := by
  by_cases hw : ValidWfsid wfsid
  · cases hn : s.mySearch key s.fibRoot (vid &&& 0xfff) mac with
    | some n =>
      obtain ⟨t, ht, hok, _⟩ := update_of_found rb h k k' ip hw hn
      refine .inl ⟨⟨hw, .inl ?_⟩, t, ht, hok⟩
      rw [(mySearch_some h hn).2.2]
      exact Option.some_ne_none _
    | none =>
      have hmiss := mySearch_none h hn
      rcases allocOrTrim_spec rb h k k' with ⟨hcan, n, t, halloc, hheld⟩ | ⟨hcan, f, hf, halloc⟩
      · obtain ⟨u, hu, hok, _⟩ := update_of_alloc rb ip hw hn halloc hheld
        exact .inl ⟨⟨hw, .inr hcan⟩, u, hu, hok⟩
      · refine .inr ⟨fun ht => ht.2.elim (fun hne => hne hmiss) hcan, f, hf, ?_⟩
        rw [ixgbeWfsFibUpdate, if_neg hw, hn]
        simp only [halloc, bind, Except.bind]
  · refine .inr ⟨fun ht => hw ht.1, .bugOn .fibWfsid, by decide, ?_⟩
    rw [ixgbeWfsFibUpdate, if_pos (not_not.mp hw)]

/-! ## Reachable tables -/

/-- **Every call that returns** keeps the table in order, full or not. -/
theorem FibOk.of_step {op : FibOp} (h : FibOk s) (hstep : FibStep rb s op t) : FibOk t := by
  obtain ⟨res, hstep⟩ := hstep
  cases op with
  | update key k k' vid mac ip wfsid =>
    rcases update_takes rb h key k k' vid mac ip wfsid with ⟨_, u, hu, hok⟩ | ⟨_, f, _, hf⟩
    · rw [FibOp.step, hu] at hstep
      cases hstep
      exact hok
    · rw [FibOp.step, hf] at hstep
      exact nomatch hstep
  | lookup key vid mac =>
    cases hstep
    exact h
  | delete key vid mac =>
    cases hstep
    exact (delete_spec rb h key vid mac).1
  | deleteWfsid wfsid =>
    by_cases hw : ValidWfsid wfsid
    · obtain ⟨u, hu, hok, _⟩ := deleteWfsid_spec rb h hw
      rw [FibOp.step, hu] at hstep
      cases hstep
      exact hok
    · rw [FibOp.step, ixgbeWfsFibDeleteWfsid, if_pos (not_not.mp hw)] at hstep
      exact nomatch hstep
  | timer =>
    obtain ⟨free, hlay⟩ := h.layout
    have hfired : FibOk { s with fibTimer := false } :=
      ⟨⟨free, hlay.congr rfl rfl rfl rfl⟩, h.sorted, h.size⟩
    obtain ⟨u, hu, hok, _⟩ := myTrimTree_spec rb hfired rfl
    rw [FibOp.step, timerAction, hu] at hstep
    cases hstep
    exact hok

/-- **Every table** that calls can reach after `ixgbe_wfs_fib_init` is in order. -/
theorem fibOk_of_run {kmalloc : Nat → Bool} {ops : List FibOp}
    (hinit : (ixgbeWfsFibInit kmalloc).2 = true)
    (hrun : Run (FibStep rb) (ixgbeWfsFibInit kmalloc).1 ops t) : FibOk t :=
  hrun.invariant (fun _ _ _ h hstep => h.of_step rb hstep)
    (init_spec (Prod.ext rfl hinit)).1

end Fib

end VmkDrivers.Wfs
