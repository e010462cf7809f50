/-
  VmkDrivers.Wfs.FibRefine

  The forwarding table as a finite map.

  `Fib.content` is the map from keys to station ids the nodes of the tree
  stand for.  Each call of the interface is an operation on it, but on the
  wrong key: `my_search` looks for whatever its uninitialised local key
  holds.  So a lookup, an update or a delete is the operation it should be
  exactly when that makes no difference to the map (`FibOp.Keyed`), and the
  table refines the map of all calls on exactly the runs whose calls all are.
-/

import VmkDrivers.Wfs.FibLayout

namespace VmkDrivers.Wfs

open VmkDrivers.Lib

namespace Fib

/-! ## The map -/

def content (s : Fib) : FibKey → Option UInt8 :=
  tableOf (fun n => (s.mem n).key) (fun n => (s.mem n).wfsid) s.fibRoot.inorder

/-- The table is in order, with the nodes `held` by the function that works on it. -/
structure Holding (s : Fib) (held : List Nat) : Prop where
  layout : ∃ free, Layout s free (held ++ s.fibRoot.inorder)
  sorted : s.fibRoot.inorder.Pairwise s.KeyLt
  size : s.fibSize = s.fibRoot.inorder.length

abbrev FibOk (s : Fib) : Prop := Holding s []

variable {s t : Fib} {held : List Nat} {root : Lib.Tree Nat} {key : FibKey} {vid : UInt16}
  {mac : Mac} {n : Nat} {drop : FibNode → Bool} {wfsid : UInt8}

theorem Holding.keys_nodup (h : Holding s held) :
    (s.fibRoot.inorder.map fun n => (s.mem n).key).Nodup := Fib.keys_nodup h.sorted

theorem Holding.length_le (h : FibOk s) {keys : Finset FibKey}
    (hkeys : ∀ k, s.content k ≠ none → k ∈ keys) : s.fibRoot.inorder.length ≤ keys.card := by
  rw [← List.length_map (f := fun n => (s.mem n).key), ← List.toFinset_card_of_nodup h.keys_nodup]
  apply Finset.card_le_card
  intro k hk
  obtain ⟨n, hn, rfl⟩ := List.mem_map.mp (List.mem_toFinset.mp hk)
  apply hkeys
  intro hnone
  exact tableOf_eq_none_iff.mp hnone n hn rfl

/-- **`my_search`** finds the node with the key that happens to be in its local variable. -/
theorem mySearch_eq (h : root.inorder.Pairwise s.KeyLt) (key : FibKey) (vid : UInt16) (mac : Mac) :
    s.mySearch key root vid mac = root.inorder.find? fun n => (s.mem n).key = key := by
  rw [mySearch, Lib.Tree.search_eq_find? (s.isCut_keycmp key) h]
  congr 1
  funext n
  rw [decide_eq_decide, (keycmp_spec key _).2.1]
  exact eq_comm

theorem mySearch_some (h : FibOk s) (hn : s.mySearch key s.fibRoot vid mac = some n) :
    n ∈ s.fibRoot.inorder ∧ (s.mem n).key = key ∧ s.content key = some (s.mem n).wfsid := by
  rw [mySearch_eq h.sorted] at hn
  refine ⟨List.mem_of_find?_eq_some hn, by simpa using List.find?_some hn, ?_⟩
  rw [content, tableOf, hn]
  rfl

theorem mySearch_none (h : FibOk s) (hn : s.mySearch key s.fibRoot vid mac = none) :
    s.content key = none := by
  rw [mySearch_eq h.sorted] at hn
  rw [content, tableOf, hn]
  rfl

/-! ## Insertion -/

theorem pairwise_insert {l r : List Nat} (h : (l ++ r).Pairwise s.KeyLt) (hl : ∀ b ∈ l, s.KeyLt b n)
    (hr : ∀ b ∈ r, s.KeyLt n b) : (l ++ n :: r).Pairwise s.KeyLt := by
  rw [List.pairwise_append] at h ⊢
  obtain ⟨hl', hr', hlr⟩ := h
  refine ⟨hl', List.pairwise_cons.mpr ⟨hr, hr'⟩, ?_⟩
  intro a ha b hb
  rcases List.mem_cons.mp hb with rfl | hb
  · exact hl a ha
  · exact hlr a ha b hb

variable (rb : Balancer Nat)

/-- **`my_insert`** finds a node with the key of the new one, or links the new one in its
    place. -/
theorem myInsert_spec (h : root.inorder.Pairwise s.KeyLt) :
    (∃ m t, m ∈ root.inorder ∧ (s.mem m).key = (s.mem n).key ∧ myInsert rb s root n = (t, root, m) ∧
      ((s.mem m).wfsid = (s.mem n).wfsid ∧ t = s ∨ (s.mem m).wfsid ≠ (s.mem n).wfsid ∧
          t = s.setNode m { s.mem m with
            timeTag := (s.mem n).timeTag, wfsid := (s.mem n).wfsid })) ∨
    (∃ l r root', root.inorder = l ++ r ∧ root'.inorder = l ++ n :: r ∧
      myInsert rb s root n = (s, root', n) ∧ (∀ b ∈ l, s.KeyLt b n) ∧ ∀ b ∈ r, s.KeyLt n b) := by
  have hcut := s.isCut_keycmp (s.mem n).key
  unfold myInsert
  cases hd : root.descend (fun m => keycmp (s.mem n).key (s.mem m).key) n with
  | inl m =>
    left
    have hfound := Lib.Tree.search_of_descend_inl hd
    rw [Lib.Tree.search_eq_find? hcut h] at hfound
    have hkey : keycmp (s.mem n).key (s.mem m).key = 0 := by
      simpa using List.find?_some hfound
    have hmem := List.mem_of_find?_eq_some hfound
    have heq : (s.mem m).key = (s.mem n).key := ((keycmp_spec _ _).2.1.mp hkey).symm
    simp only
    split
    · next hother => exact ⟨m, _, hmem, heq, rfl, .inr ⟨hother, rfl⟩⟩
    · next hsame => exact ⟨m, s, hmem, heq, rfl, .inl ⟨not_not.mp hsame, rfl⟩⟩
  | inr root' =>
    right
    obtain ⟨l, r, hlr, hlnr, hl, hr⟩ := Lib.Tree.inorder_of_descend_inr hcut h hd
    refine ⟨l, r, rb.insertColor n root', hlr, ?_, rfl, ?_, hr⟩
    · rw [rb.insertColor_inorder]
      exact hlnr
    · intro b hb
      have hpos := hl b hb
      exact (keycmp_spec _ _).1.mpr ((keycmp_spec _ _).2.2.mp hpos)

/-! ## Moving nodes to a new tree -/

theorem fibnFree_set (s : Fib) (n : Nat) (root : Lib.Tree Nat) (z : Int) :
    Fib.fibnFree { s with fibRoot := root, fibSize := z } n =
      { s.fibnFree n with fibRoot := root, fibSize := z } := by
  unfold Fib.fibnFree
  cases s.fibnTail <;> rfl

def payload (node : FibNode) : FibNode := { node with nextFree := none }

theorem carries_of_payload (h : ∀ a, payload (t.mem a) = payload (s.mem a)) :
    Carries s t where
  key a := by
    change (payload (t.mem a)).key = (payload (s.mem a)).key
    rw [h a]
  wfsid a := by
    change (payload (t.mem a)).wfsid = (payload (s.mem a)).wfsid
    rw [h a]
  timeTag a := by
    change (payload (t.mem a)).timeTag = (payload (s.mem a)).timeTag
    rw [h a]

theorem payload_fibnFree (s : Fib) (n a : Nat) :
    payload ((s.fibnFree n).mem a) = payload (s.mem a) :=
  fibnFree_field payload (fun _ _ => rfl) s n a

/-- **The loop of `my_trim_tree` and `ixgbe_wfs_fib_delete_wfsid`** keeps the nodes that are
    not dropped, in their order, and appends the others to the free list, the last one
    first. -/
theorem rebuildLoop_spec
    (hdrop : ∀ a b : FibNode, a.wfsid = b.wfsid → a.timeTag = b.timeTag → drop a = drop b)
    {fuel : Nat} {free : List Nat} (hfuel : s.fibRoot.inorder.length ≤ fuel)
    (hqueue : IsQueue (nextOf s.mem) s.fibnHead s.fibnTail free)
    (hused : ∀ n ∈ s.fibRoot.inorder, n ∉ free)
    (hsorted : (s.fibRoot.inorder ++ root.inorder).Pairwise s.KeyLt) :
    ∃ t root', rebuildLoop rb drop fuel s root = .ok (t, root') ∧
      (∀ a, payload (t.mem a) = payload (s.mem a)) ∧ t.outside = s.outside ∧
      IsQueue (nextOf t.mem) t.fibnHead t.fibnTail
        (free ++ (s.fibRoot.inorder.filter fun n => drop (s.mem n)).reverse) ∧
      root'.inorder = s.fibRoot.inorder.filter (fun n => !drop (s.mem n)) ++ root.inorder ∧
      t.fibSize = s.fibSize + (s.fibRoot.inorder.filter fun n => !drop (s.mem n)).length := by
  induction fuel generalizing s root free with
  | zero =>
    have hnil : s.fibRoot.inorder = [] := List.length_eq_zero_iff.mp (by omega)
    have hlast : s.fibRoot.last = none := by rw [Lib.Tree.last_eq, hnil]; rfl
    rw [hnil]
    rw [rebuildLoop, hlast]
    refine ⟨s, root, rfl, fun _ => rfl, rfl, ?_, rfl, by simp⟩
    rw [List.filter_nil, List.reverse_nil, List.append_nil]
    exact hqueue
  | succ fuel ih =>
    rw [rebuildLoop]
    cases hlast : s.fibRoot.last with
    | none =>
      rw [Lib.Tree.last_eq, List.getLast?_eq_none_iff] at hlast
      rw [hlast]
      refine ⟨s, root, rfl, fun _ => rfl, rfl, ?_, rfl, by simp⟩
      rw [List.filter_nil, List.reverse_nil, List.append_nil]
      exact hqueue
    | some n =>
      have hnd : s.fibRoot.inorder.Nodup := nodup_of_pairwise (List.pairwise_append.mp hsorted).1
      have herase := rb.erase_last hlast hnd
      -- the tree is the rest of its nodes and `n` behind them
      rw [Lib.Tree.last_eq, List.getLast?_eq_some_iff] at hlast
      obtain ⟨xs, hxs⟩ := hlast
      rw [hxs, List.dropLast_concat] at herase
      rw [hxs] at hused hnd
      rw [hxs, List.append_assoc, List.singleton_append] at hsorted
      rw [hxs, List.filter_append, List.filter_append]
      have hlen : xs.length ≤ fuel := by
        rw [hxs, List.length_append, List.length_singleton] at hfuel
        omega
      have hsorted₁ : (xs ++ root.inorder).Pairwise s.KeyLt := by
        rw [List.pairwise_append, List.pairwise_cons] at hsorted
        rw [List.pairwise_append]
        exact ⟨hsorted.1, hsorted.2.1.2, fun a ha b hb => hsorted.2.2 a ha b (by simp [hb])⟩
      have hnfree : n ∉ free := hused n (by simp)
      have hxsfree : ∀ a ∈ xs, a ∉ free := fun a ha => hused a (by simp [ha])
      -- the rest of the loop, from a state that carries what `s` carries
      have hrest : ∀ s₂ root₂ free₂, s₂.fibRoot.inorder = xs →
          (∀ a, payload (s₂.mem a) = payload (s.mem a)) → s₂.outside = s.outside →
          IsQueue (nextOf s₂.mem) s₂.fibnHead s₂.fibnTail free₂ → (∀ a ∈ xs, a ∉ free₂) →
          (xs ++ root₂.inorder).Pairwise s.KeyLt →
          ∃ t root', rebuildLoop rb drop fuel s₂ root₂ = .ok (t, root') ∧
            (∀ a, payload (t.mem a) = payload (s.mem a)) ∧ t.outside = s.outside ∧
            IsQueue (nextOf t.mem) t.fibnHead t.fibnTail
              (free₂ ++ (xs.filter fun n => drop (s.mem n)).reverse) ∧
            root'.inorder = xs.filter (fun n => !drop (s.mem n)) ++ root₂.inorder ∧
            t.fibSize = s₂.fibSize + (xs.filter fun n => !drop (s.mem n)).length := by
        intro s₂ root₂ free₂ hxs₂ hpay₂ hout₂ hqueue₂ hused₂ hsorted₂
        have hcarry₂ := carries_of_payload hpay₂
        rw [← hxs₂] at hlen hused₂
        rw [← hxs₂, ← hcarry₂.keyLt] at hsorted₂
        obtain ⟨t, root', hrun, hpay, hout, hqueue', hroot, hsize⟩ :=
          ih hlen hqueue₂ hused₂ hsorted₂
        have hsame : (fun n => drop (s₂.mem n)) = fun n => drop (s.mem n) := by
          funext a
          exact hdrop _ _ (hcarry₂.wfsid a) (hcarry₂.timeTag a)
        have hsame' : (fun n => !drop (s₂.mem n)) = fun n => !drop (s.mem n) := by
          funext a
          rw [hdrop _ _ (hcarry₂.wfsid a) (hcarry₂.timeTag a)]
        rw [hxs₂, hsame'] at hroot hsize
        rw [hxs₂, hsame] at hqueue'
        exact ⟨t, root', hrun, fun a => (hpay a).trans (hpay₂ a), hout.trans hout₂, hqueue',
          hroot, hsize⟩
      simp only
      split
      · next hd =>
        have hqueue₁ : IsQueue (nextOf (s.fibnFree n).mem) (s.fibnFree n).fibnHead
            (s.fibnFree n).fibnTail (free ++ [n]) := by
          rw [fibnFree_next, fibnFree_eq]
          exact hqueue.push hnfree
        have hused₁ : ∀ a ∈ xs, a ∉ free ++ [n] := by
          intro a ha hmem
          rcases List.mem_append.mp hmem with hf | hn
          · exact hxsfree a ha hf
          · obtain rfl := List.mem_singleton.mp hn
            exact (List.nodup_append.mp hnd).2.2 a ha a (List.mem_singleton_self a) rfl
        have hfree := fibnFree_set s n (rb.erase n s.fibRoot) s.fibSize
        obtain ⟨t, root', hrun, hpay, hout, hqueue', hroot, hsize⟩ :=
          hrest (fibnFree { s with fibRoot := rb.erase n s.fibRoot } n) root (free ++ [n])
            (by rw [fibnFree_fibRoot]; exact herase)
            (fun a => payload_fibnFree _ n a) (fibnFree_outside _ n)
            (by rw [hfree]; exact hqueue₁) hused₁ hsorted₁
        refine ⟨t, root', hrun, hpay, hout, ?_, ?_, ?_⟩
        · rw [List.append_assoc] at hqueue'
          simpa [hd] using hqueue'
        · rw [hroot]
          simp [hd]
        · rw [hsize, fibnFree_fibSize]
          simp [hd]
      · next hd =>
        -- `n` comes before the nodes of the new tree
        obtain ⟨hn, hroot₁⟩ := List.pairwise_cons.mp (List.pairwise_append.mp hsorted).2.1
        rcases myInsert_spec rb (s := { s with fibRoot := rb.erase n s.fibRoot })
          (n := n) hroot₁ with ⟨m, t, hm, hkey, _⟩ | ⟨l, r, root₂, hlr, hlnr, heq, hl, _⟩
        · have hlt := (keycmp_spec _ _).1.mp (hn m hm)
          rw [show (s.mem m).key = (s.mem n).key from hkey] at hlt
          exact absurd hlt (lt_irrefl _)
        · have hnil : l = [] := by
            rw [List.eq_nil_iff_forall_not_mem]
            intro b hb
            have hbn := (keycmp_spec _ _).1.mp (hl b hb)
            have hnb := (keycmp_spec _ _).1.mp (hn b (by rw [hlr]; simp [hb]))
            exact absurd (hbn.trans hnb) (lt_irrefl _)
          subst hnil
          rw [List.nil_append] at hlr hlnr
          rw [← hlr] at hlnr
          rw [heq]
          obtain ⟨t, root', hrun, hpay, hout, hqueue', hroot, hsize⟩ :=
            hrest { s with fibRoot := rb.erase n s.fibRoot, fibSize := s.fibSize + 1 } root₂
              free herase (fun _ => rfl) rfl hqueue hxsfree (by rw [hlnr]; exact hsorted)
          refine ⟨t, root', hrun, hpay, hout, ?_, ?_, ?_⟩
          · simpa [hd] using hqueue'
          · rw [hroot, hlnr]
            simp [hd]
          · rw [hsize]
            simp only [hd, List.filter_cons, List.filter_nil, List.length_append]
            simp
            omega

/-! ## The calls on the map -/

variable {s : Fib}

/-- **Lookup** answers for the key in the local variable. -/
theorem lookup_eq (h : FibOk s) (key : FibKey) (vid : UInt16) (mac : Mac) :
    s.ixgbeWfsFibLookup key vid mac = (s.content key).getD wfsidAll := by
  unfold ixgbeWfsFibLookup
  cases hn : s.mySearch key s.fibRoot (vid &&& 0xfff) mac with
  | none => rw [mySearch_none h hn]; rfl
  | some n => rw [(mySearch_some h hn).2.2]; rfl

theorem Carries.content_eq (h : Carries s t) (hroot : t.fibRoot = s.fibRoot) :
    t.content = s.content := by
  unfold content
  rw [hroot]
  exact tableOf_congr (fun a _ => h.key a) fun a _ => h.wfsid a

theorem Holding.fibnFree (h : Holding s (n :: held)) :
    Holding (s.fibnFree n) held ∧ (s.fibnFree n).content = s.content := by
  obtain ⟨free, hlay⟩ := h.layout
  have hcarry := carries_fibnFree s n
  refine ⟨⟨⟨free ++ [n], ?_⟩, ?_, ?_⟩, hcarry.content_eq (fibnFree_fibRoot s n)⟩
  · rw [fibnFree_fibRoot]
    exact hlay.fibnFree
  · rw [fibnFree_fibRoot, hcarry.keyLt]
    exact h.sorted
  · rw [fibnFree_fibSize, fibnFree_fibRoot]
    exact h.size

theorem Holding.erase (h : Holding s held) (hmem : n ∈ s.fibRoot.inorder) :
    Holding { s with fibRoot := rb.erase n s.fibRoot, fibSize := s.fibSize - 1 } (n :: held) ∧
      content { s with fibRoot := rb.erase n s.fibRoot, fibSize := s.fibSize - 1 } =
        Function.update s.content (s.mem n).key none := by
  obtain ⟨free, hlay⟩ := h.layout
  have herase := rb.erase_inorder n s.fibRoot hmem (nodup_of_pairwise h.sorted)
  have hpos := List.length_pos_of_mem hmem
  have hlen := List.length_erase_of_mem hmem
  have hperm : (held ++ s.fibRoot.inorder).Perm (n :: held ++ s.fibRoot.inorder.erase n) :=
    ((List.perm_cons_erase hmem).append_left held).trans List.perm_middle
  refine ⟨⟨⟨free, ?_⟩, ?_, ?_⟩, ?_⟩
  · rw [herase]
    exact (hlay.perm_used hperm).congr rfl rfl rfl rfl
  · rw [herase]
    exact h.sorted.sublist List.erase_sublist
  · have hsize := h.size
    rw [herase]
    show s.fibSize - 1 = _
    omega
  · unfold content
    rw [← tableOf_erase h.keys_nodup hmem, ← herase]

/-- **Delete** removes the key in the local variable. -/
theorem delete_spec (h : FibOk s) (key : FibKey) (vid : UInt16) (mac : Mac) :
    FibOk (s.ixgbeWfsFibDelete rb key vid mac) ∧
      (s.ixgbeWfsFibDelete rb key vid mac).content = Function.update s.content key none := by
  cases hn : s.mySearch key s.fibRoot (vid &&& 0xfff) mac with
  | none =>
    have heq : s.ixgbeWfsFibDelete rb key vid mac = s := by
      rw [ixgbeWfsFibDelete, hn]
    rw [heq, Function.eq_update_iff]
    exact ⟨h, mySearch_none h hn, fun _ _ => rfl⟩
  | some n =>
    have heq : s.ixgbeWfsFibDelete rb key vid mac =
        Fib.fibnFree { s with fibRoot := rb.erase n s.fibRoot, fibSize := s.fibSize - 1 } n := by
      rw [ixgbeWfsFibDelete, hn, fibnFree_set s n]
      show { Fib.fibnFree { s with fibRoot := rb.erase n s.fibRoot } n with
        fibSize := s.fibSize - 1 } = _
      rw [fibnFree_set s n (rb.erase n s.fibRoot) s.fibSize]
    obtain ⟨hmem, hkey, _⟩ := mySearch_some h hn
    obtain ⟨hheld, hcontent⟩ := h.erase rb hmem
    rw [heq, ← hkey, ← hcontent]
    exact hheld.fibnFree

theorem Holding.overwrite (h : Holding s held) (hmem : n ∈ s.fibRoot.inorder) (node : FibNode)
    (hkey : node.key = (s.mem n).key) (hnext : node.nextFree = (s.mem n).nextFree) :
    Holding (s.setNode n node) held ∧ (s.setNode n node).content =
      Function.update s.content (s.mem n).key (some node.wfsid) := by
  obtain ⟨free, hlay⟩ := h.layout
  have hkeys : (fun m => ((s.setNode n node).mem m).key) = fun m => (s.mem m).key :=
    funext (update_field FibNode.key hkey)
  have hlt : KeyLt (s.setNode n node) = s.KeyLt := by
    funext a b
    unfold KeyLt
    rw [show ((s.setNode n node).mem a).key = (s.mem a).key from congrFun hkeys a,
      show ((s.setNode n node).mem b).key = (s.mem b).key from congrFun hkeys b]
  refine ⟨⟨⟨free, hlay.setNode hnext⟩, ?_, h.size⟩, ?_⟩
  · rw [hlt]
    exact h.sorted
  · have hself : ((s.setNode n node).mem n).wfsid = node.wfsid := by simp [setNode]
    unfold content
    rw [hkeys, ← hself]
    refine tableOf_overwrite h.keys_nodup hmem ?_
    intro b _ hb
    simp [setNode, Function.update_of_ne hb]

theorem Holding.not_mem (h : Holding s (n :: held)) : n ∉ s.fibRoot.inorder := by
  obtain ⟨free, hlay⟩ := h.layout
  have hnd := hlay.nodup
  rw [List.nodup_append, List.cons_append, List.nodup_cons] at hnd
  exact fun hmem => hnd.2.1.1 (List.mem_append_right _ hmem)

theorem Holding.fill (h : Holding s (n :: held)) (node : FibNode)
    (hnext : node.nextFree = (s.mem n).nextFree) :
    Holding (s.setNode n node) (n :: held) ∧ (s.setNode n node).content = s.content := by
  obtain ⟨free, hlay⟩ := h.layout
  have hother : ∀ m ∈ s.fibRoot.inorder, (s.setNode n node).mem m = s.mem m := by
    intro m hm
    have hmn : m ≠ n := fun heq => h.not_mem (heq ▸ hm)
    simp [setNode, Function.update_of_ne hmn]
  refine ⟨⟨⟨free, hlay.setNode hnext⟩, ?_, h.size⟩, ?_⟩
  · refine h.sorted.imp_of_mem ?_
    intro a b ha hb hab
    unfold KeyLt
    rw [hother a ha, hother b hb]
    exact hab
  · exact tableOf_congr (fun m hm => by rw [hother m hm]) fun m hm => by rw [hother m hm]

/-- **Insertion** of a held node: its key gets its value, in a node that was there or in the
    new one. -/
theorem Holding.insert (h : Holding s [n]) :
    ∃ t root m, myInsert rb s s.fibRoot n = (t, root, m) ∧
      (m ≠ n → Holding { t with fibRoot := root } [n] ∧
        content { t with fibRoot := root } =
          Function.update s.content (s.mem n).key (some (s.mem n).wfsid)) ∧
      (m = n → FibOk { t with fibRoot := root, fibSize := t.fibSize + 1 } ∧
        content { t with fibRoot := root, fibSize := t.fibSize + 1 } =
          Function.update s.content (s.mem n).key (some (s.mem n).wfsid)) := by
  rcases myInsert_spec rb (n := n) h.sorted with
    ⟨m, t, hm, hkey, heq, ht⟩ | ⟨l, r, root, hlr, hlnr, heq, hl, hr⟩
  · -- the key is in the tree
    refine ⟨t, s.fibRoot, m, heq, fun _ => ?_, fun hmn => absurd (hmn ▸ hm) h.not_mem⟩
    rw [← hkey]
    rcases ht with ⟨hsame, rfl⟩ | ⟨-, rfl⟩
    · refine ⟨h, ?_⟩
      rw [Function.eq_update_iff]
      refine ⟨?_, fun _ _ => rfl⟩
      exact (tableOf_eq_some_iff h.keys_nodup).mpr ⟨m, hm, rfl, hsame⟩
    · exact h.overwrite hm _ rfl rfl
  · -- the node is linked
    refine ⟨s, root, n, heq, fun hnn => absurd rfl hnn, fun _ => ?_⟩
    obtain ⟨free, hlay⟩ := h.layout
    have hsorted : root.inorder.Pairwise s.KeyLt := by
      rw [hlnr]
      exact pairwise_insert (hlr ▸ h.sorted) hl hr
    have hperm : (n :: s.fibRoot.inorder).Perm root.inorder := by
      rw [hlr, hlnr]
      exact List.perm_middle.symm
    refine ⟨⟨⟨free, (hlay.perm_used hperm).congr rfl rfl rfl rfl⟩, hsorted, ?_⟩, ?_⟩
    · have hsize := h.size
      have hlen := hperm.length_eq
      rw [List.length_cons] at hlen
      show s.fibSize + 1 = (root.inorder.length : Int)
      omega
    · have hkeys := Fib.keys_nodup hsorted
      rw [hlnr] at hkeys
      unfold content
      rw [hlr, ← tableOf_insert hkeys, ← hlnr]

/-- The station ids `ixgbe_wfs_fib_update` lets through. -/
def ValidWfsid (wfsid : UInt8) : Prop := ¬(wfsid < wfsidMin ∨ wfsid > wfsidMax)

instance (wfsid : UInt8) : Decidable (ValidWfsid wfsid) :=
  inferInstanceAs (Decidable (¬(_ ∨ _)))

theorem Holding.alloc (h : FibOk s) (hlt : s.fibRoot.inorder.length < fibSizeMax) (k' : Bool) :
    ∃ n t, allocOrTrim rb s true k' = .ok (n, t) ∧ Holding t [n] ∧ t.content = s.content := by
  obtain ⟨free, hlay⟩ := h.layout
  obtain ⟨⟨n, t⟩, halloc⟩ := hlay.alloc_isSome hlt
  obtain ⟨hcarry, hroot, hsize, free', hlay'⟩ := hlay.alloc halloc
  refine ⟨n, t, by rw [allocOrTrim, halloc], ⟨⟨free', ?_⟩, ?_, ?_⟩, hcarry.content_eq hroot⟩
  · rw [hroot]
    exact hlay'
  · rw [hroot, hcarry.keyLt]
    exact h.sorted
  · rw [hroot, hsize]
    exact h.size

theorem update_of_alloc {k k' : Bool} (ip : UInt32) (hw : ValidWfsid wfsid)
    (hn : s.mySearch key s.fibRoot (vid &&& 0xfff) mac = none)
    (halloc : allocOrTrim rb s k k' = .ok (n, t)) (hheld : Holding t [n]) :
    ∃ u, s.ixgbeWfsFibUpdate rb key k k' vid mac ip wfsid = .ok u ∧ FibOk u ∧
      u.content = Function.update t.content ⟨vid &&& 0xfff, mac⟩ (some wfsid) := by
  unfold ixgbeWfsFibUpdate
  rw [if_neg hw, hn]
  obtain ⟨hfill, hfilled⟩ := hheld.fill
    { t.mem n with
      key := ⟨vid &&& 0xfff, mac⟩, ip, wfsid, timeTag := t.currentTimeTag } rfl
  obtain ⟨u, root, m, hinsert, hfound, hlinked⟩ := hfill.insert rb
  have hnode : ∀ node, (t.setNode n node).mem n = node := fun node => by simp [setNode]
  rw [hfilled, hnode] at hfound hlinked
  simp only [halloc, bind, Except.bind, hinsert]
  by_cases hmn : n = m
  · rw [if_neg (not_not.mpr hmn)]
    exact ⟨_, rfl, hlinked hmn.symm⟩
  · -- the key was in the table, so the new node goes back
    rw [if_pos hmn]
    obtain ⟨hheld', hcontent'⟩ := hfound (Ne.symm hmn)
    obtain ⟨hok, hsame⟩ := hheld'.fibnFree
    exact ⟨_, rfl, hok, hsame.trans hcontent'⟩

theorem update_of_found (h : FibOk s) (k k' : Bool) (ip : UInt32) (hw : ValidWfsid wfsid)
    (hn : s.mySearch key s.fibRoot (vid &&& 0xfff) mac = some n) :
    ∃ u, s.ixgbeWfsFibUpdate rb key k k' vid mac ip wfsid = .ok u ∧ FibOk u ∧
      u.content = Function.update s.content key (some wfsid) := by
  unfold ixgbeWfsFibUpdate
  rw [if_neg hw, hn]
  obtain ⟨hmem, hkey, _⟩ := mySearch_some h hn
  have hover := h.overwrite hmem
    { s.mem n with ip, wfsid, timeTag := s.currentTimeTag } rfl rfl
  rw [hkey] at hover
  exact ⟨_, rfl, hover⟩

/-- **Update** sets the key in the local variable if the table has it, and the key it was
    given otherwise. -/
theorem update_spec (h : FibOk s) (hlt : s.fibRoot.inorder.length < fibSizeMax) (key : FibKey)
    (k' : Bool) (vid : UInt16) (mac : Mac) (ip : UInt32) (hw : ValidWfsid wfsid) :
    ∃ t, s.ixgbeWfsFibUpdate rb key true k' vid mac ip wfsid = .ok t ∧ FibOk t ∧
      t.content = Function.update s.content
        (if s.content key = none then ⟨vid &&& 0xfff, mac⟩ else key) (some wfsid) := by
  cases hn : s.mySearch key s.fibRoot (vid &&& 0xfff) mac with
  | some n =>
    rw [if_neg (by rw [(mySearch_some h hn).2.2]; simp)]
    exact update_of_found rb h true k' ip hw hn
  | none =>
    rw [if_pos (mySearch_none h hn)]
    obtain ⟨n, t, halloc, hheld, hcontent⟩ := h.alloc rb hlt k'
    rw [← hcontent]
    exact update_of_alloc rb ip hw hn halloc hheld

/-- **A rebuilt table** has the nodes that are not dropped, in their order. -/
theorem rebuild_spec
    (hdrop : ∀ a b : FibNode, a.wfsid = b.wfsid → a.timeTag = b.timeTag → drop a = drop b)
    (h : FibOk s) :
    ∃ t root, rebuild rb drop s = .ok (t, root) ∧ Carries s t ∧ t.outside = s.outside ∧
      FibOk { t with fibRoot := root } ∧
      root.inorder = s.fibRoot.inorder.filter fun n => !drop (s.mem n) := by
  obtain ⟨free, hlay⟩ := h.layout
  rw [List.nil_append] at hlay
  -- the loop starts with no node in the new tree
  have hnil : (Lib.Tree.nil : Lib.Tree Nat).inorder = [] := rfl
  have hsorted₀ : (s.fibRoot.inorder ++ (Lib.Tree.nil : Lib.Tree Nat).inorder).Pairwise s.KeyLt := by
    rw [hnil, List.append_nil]
    exact h.sorted
  obtain ⟨t, root, hrun, hpay, hout, hqueue, hroot, hsize⟩ :=
    rebuildLoop_spec rb (s := { s with fibSize := 0 }) hdrop le_rfl hlay.freeQ
      (fun n hn => hlay.not_free hn) hsorted₀
  rw [hnil, List.append_nil] at hroot
  have hcarry : Carries s t := carries_of_payload hpay
  have halloc : t.fibAllocSize = s.fibAllocSize := congrArg Prod.snd hout
  refine ⟨t, root, hrun, hcarry, hout, ⟨⟨_, ⟨hqueue, ?_, ?_⟩⟩, ?_, ?_⟩, hroot⟩
  · -- the nodes dropped and the ones kept are those of the old tree
    show (_ ++ ([] ++ root.inorder)).Perm (List.range t.fibAllocSize)
    rw [halloc, hroot, List.nil_append, List.append_assoc]
    refine List.Perm.trans (List.Perm.append_left free ?_) hlay.perm
    exact ((List.reverse_perm _).append_right _).trans
      (List.filter_append_perm (fun n => drop (s.mem n)) s.fibRoot.inorder)
  · show t.fibAllocSize ≤ fibSizeMax
    rw [halloc]
    exact hlay.bound
  · show root.inorder.Pairwise t.KeyLt
    rw [hcarry.keyLt, hroot]
    exact h.sorted.sublist List.filter_sublist
  · show t.fibSize = root.inorder.length
    rw [hsize, hroot]
    show (0 : Int) + _ = _
    omega

/-- **Removal of a station** drops its keys. -/
theorem deleteWfsid_spec (h : FibOk s) (hw : ValidWfsid wfsid) :
    ∃ t, s.ixgbeWfsFibDeleteWfsid rb wfsid = .ok t ∧ FibOk t ∧
      t.content = fun k => if s.content k = some wfsid then none else s.content k := by
  have hdrop : ∀ a b : FibNode, a.wfsid = b.wfsid → a.timeTag = b.timeTag →
      decide (a.wfsid = wfsid) = decide (b.wfsid = wfsid) := by
    intro a b hab _
    rw [hab]
  obtain ⟨t, root, hrun, hcarry, _, hok, hroot⟩ := rebuild_spec rb hdrop h
  have hkeep : (fun n => !decide ((s.mem n).wfsid = wfsid)) =
      fun n => decide ((s.mem n).wfsid ≠ wfsid) := by
    funext n
    rw [decide_not]
  refine ⟨{ t with fibRoot := root }, ?_, hok, ?_⟩
  · unfold ixgbeWfsFibDeleteWfsid
    rw [if_neg hw, hrun]
    rfl
  · rw [show content { t with fibRoot := root } = tableOf (fun n => (s.mem n).key)
      (fun n => (s.mem n).wfsid) root.inorder from
        tableOf_congr (fun a _ => hcarry.key a) fun a _ => hcarry.wfsid a, hroot, hkeep]
    exact tableOf_filter h.keys_nodup wfsid

/-- **The timer** does nothing to the map as long as the table is not full. -/
theorem timer_spec (h : FibOk s) (hlt : s.fibRoot.inorder.length < fibSizeMax) :
    ∃ t, s.timerAction rb = .ok t ∧ FibOk t ∧ t.content = s.content := by
  have hsize : s.fibSize < fibSizeMax := by
    rw [h.size]
    omega
  obtain ⟨free, hlay⟩ := h.layout
  refine ⟨{ s with currentTimeTag := s.currentTimeTag + 1, fibTimer := true }, ?_,
    ⟨⟨free, hlay.congr rfl rfl rfl rfl⟩, h.sorted, h.size⟩, rfl⟩
  rw [timerAction, myTrimTree, if_pos hsize]
  rfl

/-! ## Initialisation -/

/-- The node allocated before node `i`. -/
def prevNode : Nat → Option Nat
  | 0 => none
  | i + 1 => some i

/-- The nodes from `k` down, in the order of `fibns`. -/
def nodesBelow : Nat → List Nat
  | 0 => []
  | k + 1 => k :: nodesBelow k

/-- An empty table with `k` allocated nodes, none of them free. -/
structure Allocated (s : Fib) (k : Nat) : Prop where
  layout : Layout s [] (nodesBelow k)
  root : s.fibRoot = .nil
  size : s.fibSize = 0
  fibns : s.fibns = prevNode k
  next : ∀ i < k, (s.mem i).nextAlloc = prevNode i

theorem length_nodesBelow (k : Nat) : (nodesBelow k).length = k := by
  induction k with
  | zero => rfl
  | succ k ih => rw [nodesBelow, List.length_cons, ih]

theorem Allocated.fibAllocSize {k : Nat} (h : Allocated s k) : s.fibAllocSize = k := by
  have hlen := h.layout.length_eq
  rw [length_nodesBelow] at hlen
  simpa using hlen.symm

theorem Allocated.fibnAlloc {k : Nat} {kmalloc : Bool} (h : Allocated s k)
    (ha : s.fibnAlloc kmalloc = some (n, t)) : Allocated t (k + 1) := by
  have hhead : s.fibnHead = none := h.layout.freeQ.head_eq_none_iff.mpr rfl
  have htail : s.fibnTail = none := h.layout.freeQ.tail_eq_none_iff.mpr rfl
  have hsize := h.fibAllocSize
  unfold Fib.fibnAlloc at ha
  rw [hhead] at ha
  simp only at ha
  split at ha
  · split at ha
    · obtain ⟨rfl, rfl⟩ := ha
      rw [hsize]
      refine ⟨⟨?_, ?_, ?_⟩, h.root, h.size, rfl, ?_⟩
      · show IsQueue _ none s.fibnTail []
        rw [htail]
        exact .nil _
      · show (nodesBelow (k + 1)).Perm (List.range (k + 1))
        have hperm := h.layout.perm
        rw [hsize, List.nil_append] at hperm
        rw [nodesBelow, List.range_succ]
        exact (hperm.cons k).trans (List.perm_append_singleton k _).symm
      · show k + 1 ≤ fibSizeMax
        omega
      · intro i hi
        by_cases hik : i = k
        · subst hik
          show (Function.update s.mem i _ i).nextAlloc = _
          rw [Function.update_self]
          exact h.fibns
        · show (Function.update s.mem k _ i).nextAlloc = _
          rw [Function.update_of_ne hik]
          exact h.next i (by omega)
    · exact nomatch ha
  · exact nomatch ha

theorem Allocated.initAlloc {kmalloc : Nat → Bool} {j k : Nat} (h : Allocated s k)
    (ha : Fib.initAlloc kmalloc j s = (t, true)) : Allocated t (k + j) := by
  induction j generalizing s k with
  | zero =>
    rw [Fib.initAlloc, Prod.mk.injEq] at ha
    exact ha.1 ▸ h
  | succ j ih =>
    rw [Fib.initAlloc] at ha
    split at ha
    · exact nomatch ha
    · next r n s' hs' =>
      have hrest := ih (h.fibnAlloc hs') ha
      rwa [Nat.add_assoc, Nat.add_comm 1 j] at hrest

theorem initFree_spec {fuel k : Nat} {free : List Nat} (hfuel : k ≤ fuel)
    (hlay : Layout s free (nodesBelow k)) (hnext : ∀ i < k, (s.mem i).nextAlloc = prevNode i) :
    ∃ free', Layout (initFree fuel (prevNode k) s) free' [] ∧
      (initFree fuel (prevNode k) s).fibRoot = s.fibRoot ∧
      (initFree fuel (prevNode k) s).fibSize = s.fibSize := by
  induction k generalizing fuel s free with
  | zero => cases fuel <;> exact ⟨free, hlay, rfl, rfl⟩
  | succ k ih =>
    cases fuel with
    | zero => omega
    | succ fuel =>
      have hfield : ∀ i, ((s.fibnFree k).mem i).nextAlloc = (s.mem i).nextAlloc :=
        fibnFree_field FibNode.nextAlloc (fun _ _ => rfl) s k
      rw [prevNode, initFree, hfield, hnext k (by omega)]
      have hle : k ≤ fuel := by omega
      obtain ⟨free', hlay', hroot, hsize⟩ := ih hle hlay.fibnFree
        (fun i hi => (hfield i).trans (hnext i (by omega)))
      refine ⟨free', hlay', ?_, ?_⟩
      · rw [hroot, fibnFree_fibRoot]
      · rw [hsize, fibnFree_fibSize]

/-- **`ixgbe_wfs_fib_init`** makes an empty table. -/
theorem init_spec {kmalloc : Nat → Bool} (h : ixgbeWfsFibInit kmalloc = (t, true)) :
    FibOk t ∧ t.content = fun _ => none := by
  have hempty : Allocated {} 0 := ⟨⟨.nil _, .refl _, Nat.zero_le _⟩, rfl, rfl, rfl, by omega⟩
  unfold ixgbeWfsFibInit at h
  split at h
  · exact nomatch h
  · next u hu =>
    have halloc := hempty.initAlloc hu
    rw [Nat.zero_add] at halloc
    obtain ⟨free, hlay, hroot, hsize⟩ := initFree_spec (le_refl u.fibAllocSize)
      (halloc.fibAllocSize.symm ▸ halloc.layout) (halloc.fibAllocSize.symm ▸ halloc.next)
    rw [halloc.fibAllocSize, ← halloc.fibns, ← halloc.fibAllocSize] at hlay hroot hsize
    simp only [Prod.mk.injEq, and_true] at h
    subst h
    have hnil : (initFree u.fibAllocSize u.fibns u).fibRoot.inorder = [] := by
      rw [hroot, halloc.root]
      rfl
    refine ⟨⟨⟨free, ?_⟩, ?_, ?_⟩, ?_⟩
    · show Layout _ _ ([] ++ (initFree u.fibAllocSize u.fibns u).fibRoot.inorder)
      rw [hnil]
      exact hlay.congr rfl rfl rfl rfl
    · show (initFree u.fibAllocSize u.fibns u).fibRoot.inorder.Pairwise _
      rw [hnil]
      exact .nil
    · show (initFree u.fibAllocSize u.fibns u).fibSize =
        ((initFree u.fibAllocSize u.fibns u).fibRoot.inorder.length : Int)
      rw [hnil, hsize, halloc.size]
      rfl
    · funext k
      show tableOf _ _ (initFree u.fibAllocSize u.fibns u).fibRoot.inorder k = none
      rw [hnil]
      rfl

theorem init_of_kmalloc : (ixgbeWfsFibInit fun _ => true).2 = true := by decide +kernel

end Fib

end VmkDrivers.Wfs
