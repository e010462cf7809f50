/-
  VmkDrivers.Wfs.FibMissing

  An update that gets no node.

  When `fibn_alloc` fails, `ixgbe_wfs_fib_update` trims the table and tries
  once more, without a look at what it gets.  Trimming frees nodes of a full
  table only, and `add_timer` stops the kernel if the timer is pending.  So
  the recovery works exactly for a full table whose timer has fired
  (`updateSafe_iff`); with 256 entries and no memory for another node the
  update writes through a null pointer (`updateSafe_fill`).
-/

import VmkDrivers.Wfs.FibTimer

namespace VmkDrivers.Wfs

open VmkDrivers.Lib

namespace Fib

variable (rb : Balancer Nat) {s t : Fib} {key : FibKey} {wfsid : UInt8}

/-! ## The statement -/

/-- The update does not write through a null pointer, and if its first `fibn_alloc` fails,
    `my_trim_tree` frees a node that the second one hands out, or nothing happens. -/
def UpdateSafe (s : Fib) (key : FibKey) (k k' : Bool) (vid : UInt16) (mac : Mac) (ip : UInt32)
    (wfsid : UInt8) : Prop :=
  s.ixgbeWfsFibUpdate rb key k k' vid mac ip wfsid ≠ .error .nullDeref ∧
  (ValidWfsid wfsid → s.mySearch key s.fibRoot (vid &&& 0xfff) mac = none → s.fibnAlloc k = none →
    (∃ t, myTrimTree rb s = .ok t ∧ t.fibnHead ≠ none ∧ ∃ r, t.fibnAlloc k' = some r) ∨
      s.ixgbeWfsFibUpdate rb key k k' vid mac ip wfsid = .ok s)

/-- The update needs no new node, or finds one at once, or can get one from a full table. -/
def NodeAtHand (s : Fib) (key : FibKey) (k : Bool) (wfsid : UInt8) : Prop :=
  ¬ValidWfsid wfsid ∨ s.content key ≠ none ∨ s.HasNode k ∨
    s.fibSize = fibSizeMax ∧ s.fibTimer = false

theorem fibSize_le (h : FibOk s) : s.fibSize ≤ fibSizeMax := by
  obtain ⟨free, hlay⟩ := h.layout
  have hlen := hlay.length_eq
  have hbound := hlay.bound
  have hsize := h.size
  rw [List.nil_append] at hlen
  omega

theorem fibnAlloc_eq_none (k : Bool) : s.fibnAlloc k = none ↔ ¬s.HasNode k := by
  rw [hasNode_iff]
  cases s.fibnAlloc k with
  | none => exact iff_of_true rfl nofun
  | some r => exact iff_of_false nofun fun hno => hno ⟨r, rfl⟩

theorem trim_frees_iff (h : FibOk s) {k : Bool} (hno : ¬s.HasNode k) (k' : Bool) :
    (∃ t, myTrimTree rb s = .ok t ∧ t.fibnHead ≠ none ∧ ∃ r, t.fibnAlloc k' = some r) ↔
      s.fibSize = fibSizeMax ∧ s.fibTimer = false := by
  constructor
  · rintro ⟨t, htrim, hhead, -⟩
    cases htimer : s.fibTimer with
    | true =>
      rw [myTrimTree_armed rb h htimer] at htrim
      cases htrim
    | false =>
      obtain ⟨u, htrim', -, hnode⟩ := myTrimTree_spec rb h htimer
      obtain rfl : u = t := Except.ok.inj (htrim'.symm.trans htrim)
      have hle := fibSize_le h
      rcases (hnode k).mp (.inl hhead) with hfull | hhas
      · exact ⟨by omega, rfl⟩
      · exact absurd hhas hno
  · rintro ⟨hfull, htimer⟩
    obtain ⟨t, htrim, -, hnode⟩ := myTrimTree_spec rb h htimer
    have hall : ∀ b, t.HasNode b := fun b => (hnode b).mpr (.inl (by omega))
    refine ⟨t, htrim, ?_, (hasNode_iff k').mp (hall k')⟩
    rcases hall false with hhead | ⟨-, hmem⟩
    · exact hhead
    · cases hmem

theorem mySearch_eq_none (h : FibOk s) (hkey : s.content key = none) (vid : UInt16) (mac : Mac) :
    s.mySearch key s.fibRoot vid mac = none := by
  refine Option.eq_none_iff_forall_ne_some.mpr fun n hn => ?_
  rw [(mySearch_some h hn).2.2] at hkey
  cases hkey

theorem update_null (h : FibOk s) {k k' : Bool} (hw : ValidWfsid wfsid)
    (hkey : s.content key = none) (hno : ¬s.HasNode k) (hno' : ¬s.HasNode k')
    (hsize : s.fibSize < fibSizeMax) (htimer : s.fibTimer = false) (vid : UInt16) (mac : Mac)
    (ip : UInt32) : s.ixgbeWfsFibUpdate rb key k k' vid mac ip wfsid = .error .nullDeref := by
  obtain ⟨t, htrim, -, hnode⟩ := myTrimTree_spec rb h htimer
  have hnone' : ¬t.HasNode k' := by
    rw [hnode k', not_or]
    exact ⟨by omega, hno'⟩
  have halloc : allocOrTrim rb s k k' = .error .nullDeref := by
    rw [allocOrTrim, (fibnAlloc_eq_none k).mpr hno, htrim]
    simp only [bind, Except.bind, (fibnAlloc_eq_none k').mpr hnone']
  rw [ixgbeWfsFibUpdate, if_neg hw, mySearch_eq_none h hkey]
  simp only [halloc, bind, Except.bind]

theorem update_ne_abandoned (h : FibOk s) {k k' : Bool} {vid : UInt16} {mac : Mac} {ip : UInt32}
    (hw : ValidWfsid wfsid) (hno : ¬(s.content key ≠ none ∨ s.HasNode k)) :
    s.ixgbeWfsFibUpdate rb key k k' vid mac ip wfsid ≠ .ok s := by
  intro hupdate
  have htimer := (update_timer rb h hupdate).2 hno
  rw [update_armed rb h hw hno htimer] at hupdate
  cases hupdate

/-- **One update** of a table in order is safe exactly if it has a node at hand. -/
theorem updateSafe_of_ok (h : FibOk s) (key : FibKey) (k k' : Bool) (vid : UInt16) (mac : Mac)
    (ip : UInt32) (wfsid : UInt8) :
    UpdateSafe rb s key k k' vid mac ip wfsid ↔ NodeAtHand s key k wfsid := by
  unfold NodeAtHand
  by_cases hw : ValidWfsid wfsid
  · rw [or_iff_right (not_not.mpr hw)]
    by_cases hnode : s.content key ≠ none ∨ s.HasNode k
    · -- a node is there, so nothing is trimmed
      refine iff_of_true ⟨?_, fun _ hmiss hnone => ?_⟩ (hnode.imp_right .inl)
      · obtain ⟨t, ht, -⟩ := update_of_node rb h hw hnode k' vid mac ip
        rw [ht]
        simp
      · rcases hnode with hkey | hhas
        · exact absurd (mySearch_none h hmiss) hkey
        · exact absurd hhas ((fibnAlloc_eq_none k).mp hnone)
    · obtain ⟨hkey, hno⟩ := not_or.mp hnode
      rw [or_iff_right hkey, or_iff_right hno, ← trim_frees_iff rb h hno k']
      constructor
      · rintro ⟨-, hrecovers⟩
        have hmiss := mySearch_eq_none h (not_not.mp hkey) (vid &&& 0xfff) mac
        rcases hrecovers hw hmiss ((fibnAlloc_eq_none k).mpr hno) with hfrees | habandoned
        · exact hfrees
        · exact absurd habandoned (update_ne_abandoned rb h hw hnode)
      · intro hfrees
        refine ⟨fun hnull => ?_, fun _ _ _ => .inl hfrees⟩
        obtain ⟨hfull, htimer⟩ := (trim_frees_iff rb h hno k').mp hfrees
        have htakes : s.Takes key k k' wfsid := ⟨hw, .inr (.inr ⟨htimer, .inl (by omega)⟩)⟩
        rcases update_takes rb h key k k' vid mac ip wfsid with ⟨-, t, ht, -⟩ | ⟨hnot, -⟩
        · rw [ht] at hnull
          cases hnull
        · exact hnot htakes
  · refine iff_of_true ⟨?_, fun hw' => absurd hw' hw⟩ (.inl hw)
    rw [ixgbeWfsFibUpdate, if_pos (not_not.mp hw)]
    simp

theorem fibOk_of_events {kmalloc : Nat → Bool} {evs : List FibEvent}
    (hinit : (ixgbeWfsFibInit kmalloc).2 = true)
    (hrun : Run (FibEventStep rb) (ixgbeWfsFibInit kmalloc).1 evs t) : FibOk t :=
  (conserved_of_events rb hinit hrun).1

/-- **Learning uses no missing node** exactly if the key found in the local variable of the
    search is in the table, or there is a node, or the table is full and its timer not
    pending: in every state that calls and the timer reach, whatever `kmalloc` does. -/
theorem updateSafe_iff {kmalloc : Nat → Bool} {evs : List FibEvent}
    (hinit : (ixgbeWfsFibInit kmalloc).2 = true)
    (hrun : Run (FibEventStep rb) (ixgbeWfsFibInit kmalloc).1 evs s) (key : FibKey) (k k' : Bool)
    (vid : UInt16) (mac : Mac) (ip : UInt32) (wfsid : UInt8) :
    UpdateSafe rb s key k k' vid mac ip wfsid ↔ NodeAtHand s key k wfsid :=
  updateSafe_of_ok rb (fibOk_of_events rb hinit hrun) key k k' vid mac ip wfsid

/-! ## All nodes in use -/

theorem fibnAlloc_false {n : Nat} (h : s.fibnAlloc false = some (n, t)) :
    t.fibAllocSize = s.fibAllocSize := by
  unfold fibnAlloc at h
  split at h
  · obtain ⟨-, rfl⟩ := Prod.mk.inj (Option.some.inj h)
    rfl
  · simp at h

theorem update_free (h : FibOk s) (hnode : s.HasNode false) (hw : ValidWfsid wfsid)
    (hmiss : s.content key = none) (vid : UInt16) (mac : Mac) (ip : UInt32) :
    ∃ t, s.ixgbeWfsFibUpdate rb key false false vid mac ip wfsid = .ok t ∧ FibOk t ∧
      t.content = Function.update s.content ⟨vid &&& 0xfff, mac⟩ (some wfsid) ∧
      t.fibTimer = s.fibTimer ∧ t.fibAllocSize = s.fibAllocSize := by
  obtain ⟨⟨n, u⟩, halloc⟩ := (hasNode_iff false).mp hnode
  obtain ⟨free, hlay⟩ := h.layout
  obtain ⟨hcarry, hroot, -⟩ := hlay.alloc halloc
  have hn := mySearch_eq_none h hmiss (vid &&& 0xfff) mac
  have htaken : allocOrTrim rb s false false = .ok (n, u) := by
    rw [allocOrTrim, halloc]
  obtain ⟨t, ht, hok, hcontent⟩ :=
    update_of_alloc rb ip hw hn htaken (.of_fibnAlloc h halloc)
  rw [hcarry.content_eq hroot] at hcontent
  refine ⟨t, ht, hok, hcontent, (update_timer rb h ht).1 (.inr hnode), ?_⟩
  rcases update_allocView rb ht with hview | ⟨n', u', halloc', hview⟩
  · exact congrArg (fun v => v.2.1) hview
  · rw [htaken] at halloc'
    cases halloc'
    exact (congrArg (fun v => v.2.1) hview).trans (fibnAlloc_false halloc)

/-- The table after `ixgbe_wfs_fib_init` and `k` addresses, without memory for more nodes. -/
structure Filled (s : Fib) (k : Nat) : Prop where
  fib : FibOk s
  timer : s.fibTimer = true
  allocSize : s.fibAllocSize = fibSizeMin
  content : ∀ key, s.content key ≠ none ↔ key ∈ learnedKeys k

/-- The `i`-th address is learned without memory for another node. -/
def fillOp (i : Nat) : FibEvent := .call (.update zeroKey false false 5 (learnedMac i) 0 1)

namespace Filled

variable {k : Nat}

theorem length_eq (h : Filled s k) (hk : k ≤ fibSizeMax) : s.fibRoot.inorder.length = k :=
  length_of_learned h.fib h.content hk

theorem miss (h : Filled s k) : s.content zeroKey = none :=
  not_not.mp fun hne => zeroKey_not_mem k ((h.content zeroKey).mp hne)

theorem learn (h : Filled s k) (hk : k < fibSizeMin) :
    ∃ t, FibEventStep rb s (fillOp k) t ∧ Filled t (k + 1) := by
  have hmax : fibSizeMin ≤ fibSizeMax := by decide
  have hlt : s.fibRoot.inorder.length < s.fibAllocSize := by
    rw [h.length_eq (by omega), h.allocSize]
    exact hk
  have hw : ValidWfsid 1 := by decide
  obtain ⟨t, ht, hok, hcontent, htimer, hsize⟩ :=
    update_free rb h.fib (hasNode_of_length_lt h.fib hlt false) hw h.miss 5 (learnedMac k) 0
  change t.content = Function.update s.content (learnedKey k) (some 1) at hcontent
  have hstep : FibEventStep rb s (fillOp k) t := by
    refine ⟨none, ?_⟩
    rw [FibOp.step, ht]
    rfl
  refine ⟨t, hstep, hok, htimer.trans h.timer, hsize.trans h.allocSize, fun key => ?_⟩
  rw [hcontent, mem_learnedKeys_succ, ← h.content]
  by_cases hkey : key = learnedKey k
  · rw [hkey, Function.update_self]
    exact iff_of_true (Option.some_ne_none _) (.inl rfl)
  · rw [Function.update_of_ne hkey, or_iff_right hkey]

theorem no_node (h : Filled s fibSizeMin) : ¬s.HasNode false := by
  obtain ⟨free, hlay⟩ := h.fib.layout
  have hlen := hlay.length_eq
  rw [List.nil_append, h.length_eq (by decide), h.allocSize] at hlen
  have hfree : free = [] := List.length_eq_zero_iff.mp (by omega)
  rintro (hhead | ⟨-, hmem⟩)
  · exact hhead (hlay.freeQ.head_eq_none_iff.mpr hfree)
  · cases hmem

end Filled

theorem fill_run {k : Nat} (hk : k ≤ fibSizeMin) :
    ∃ s, Run (FibEventStep rb) (ixgbeWfsFibInit fun _ => true).1 ((List.range k).map fillOp) s ∧
      Filled s k := by
  induction k with
  | zero =>
    obtain ⟨hok, hempty⟩ := init_spec (Prod.ext rfl init_of_kmalloc)
    refine ⟨_, .nil _, hok, by decide +kernel, by decide +kernel, fun key => ?_⟩
    rw [hempty]
    simp [learnedKeys]
  | succ k ih =>
    obtain ⟨s, hrun, hs⟩ := ih (by omega)
    obtain ⟨t, hstep, ht⟩ := hs.learn rb hk
    refine ⟨t, ?_, ht⟩
    rw [List.range_succ, List.map_append]
    exact hrun.append (.single hstep)

/-- With 256 entries learned, the timer fired and no memory left, the next address is written
    through a null pointer. -/
theorem updateSafe_fill :
    ∃ s, Run (FibEventStep .plain) (ixgbeWfsFibInit fun _ => true).1
        ((List.range fibSizeMin).map fillOp ++ [.fire]) s ∧
      s.ixgbeWfsFibUpdate .plain zeroKey false false 5 (learnedMac fibSizeMin) 0 1 =
        .error .nullDeref ∧
      ¬UpdateSafe .plain s zeroKey false false 5 (learnedMac fibSizeMin) 0 1 := by
  obtain ⟨s, hrun, hs⟩ := fill_run .plain le_rfl
  have hfire : FibEventStep .plain s .fire { s with fibTimer := false } := ⟨hs.timer, rfl⟩
  have hok : FibOk { s with fibTimer := false } := hs.fib.of_timer false
  have hno : ¬HasNode { s with fibTimer := false } false := hs.no_node
  have hsize : ({ s with fibTimer := false } : Fib).fibSize < fibSizeMax := by
    have heq := hs.fib.size
    rw [hs.length_eq (by decide)] at heq
    rw [heq]
    decide
  have hw : ValidWfsid 1 := by decide
  have hnull := update_null .plain hok hw hs.miss hno hno hsize rfl 5 (learnedMac fibSizeMin) 0
  exact ⟨_, hrun.append (.single hfire), hnull, fun hsafe => hsafe.1 hnull⟩

/-- The same address is learned as long as a node is free. -/
theorem updateSafe_first :
    UpdateSafe .plain (ixgbeWfsFibInit fun _ => true).1 zeroKey false false 5 (learnedMac 0) 0 1 :=
  (updateSafe_iff .plain init_of_kmalloc (.nil _) zeroKey false false 5 (learnedMac 0) 0 1).mpr
    (.inr (.inr (.inl (by decide +kernel))))

end Fib

end VmkDrivers.Wfs
