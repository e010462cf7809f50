/-
  VmkDrivers.Wfs.FibTrim

  Which entries a full table loses.

  `my_trim_tree` keeps the entries that carry the current time tag, and then
  moves the tag on.  The tag of an entry says how many trims ago it was
  refreshed, modulo 256 (`Tagged`), as long as every update refreshes the
  entry it is for: `my_insert` leaves the tag of an entry alone that already
  has the station, and the uninitialised key of `my_search` can lead to
  another entry.  On the runs without such updates, and without an entry idle
  for a multiple of 256 trims, a trim evicts the idle entries
  (`trim_evicts_idle`).
-/

import VmkDrivers.Wfs.FibMissing
import VmkDrivers.Wfs.FibNames

namespace VmkDrivers.Wfs

open VmkDrivers.Lib

namespace Fib

variable {s t u : Fib}

/-! ## Time tags -/

def keys (s : Fib) : List FibKey := s.fibRoot.inorder.map fun n => (s.mem n).key

def tags (s : Fib) : FibKey → Option UInt8 :=
  tableOf (fun n => (s.mem n).key) (fun n => (s.mem n).timeTag) s.fibRoot.inorder

theorem Carries.tags_eq (h : Carries s t) (hroot : t.fibRoot = s.fibRoot) : t.tags = s.tags := by
  unfold tags
  rw [hroot]
  exact tableOf_congr (fun a _ => h.key a) fun a _ => h.timeTag a

theorem Trimmed.tags (h : Trimmed s t) (hs : FibOk s) (ht : FibOk t) {k : FibKey} {x : UInt8}
    (hk : t.tags k = some x) : s.tags k = some x := by
  obtain ⟨n, hmem, hkey, hx⟩ := (tableOf_eq_some_iff ht.keys_nodup).mp hk
  apply (tableOf_eq_some_iff hs.keys_nodup).mpr
  refine ⟨n, h.nodes n hmem, ?_, ?_⟩
  · rw [← hkey, h.carries.key]
  · rw [← hx, h.carries.timeTag]

theorem Holding.fill_tags {held : List Nat} {n : Nat} (h : Holding s (n :: held))
    (node : FibNode) : (s.setNode n node).tags = s.tags := by
  have hother : ∀ m ∈ s.fibRoot.inorder, (s.setNode n node).mem m = s.mem m := by
    intro m hm
    have hmn : m ≠ n := fun heq => h.not_mem (heq ▸ hm)
    simp [setNode, Function.update_of_ne hmn]
  exact tableOf_congr (fun m hm => by rw [hother m hm]) fun m hm => by rw [hother m hm]

theorem Holding.overwrite_tags {held : List Nat} {n : Nat} (h : Holding s held)
    (hmem : n ∈ s.fibRoot.inorder) (node : FibNode) (hkey : node.key = (s.mem n).key) :
    (s.setNode n node).tags = Function.update s.tags (s.mem n).key (some node.timeTag) := by
  have hkeys : (fun m => ((s.setNode n node).mem m).key) = fun m => (s.mem m).key :=
    funext (update_field FibNode.key hkey)
  have hself : ((s.setNode n node).mem n).timeTag = node.timeTag := by simp [setNode]
  unfold tags
  rw [hkeys, ← hself]
  apply tableOf_overwrite h.keys_nodup hmem
  intro b _ hb
  simp [setNode, Function.update_of_ne hb]

variable (rb : Balancer Nat)

/-- **Insertion** of a held node: an entry that has its station already keeps its tag. -/
theorem Holding.insert_tags {n m : Nat} {root : Lib.Tree Nat} (h : Holding s [n])
    (hinsert : myInsert rb s s.fibRoot n = (t, root, m)) (size : Int) :
    ({ t with fibRoot := root, fibSize := size } : Fib).tags =
      if s.content (s.mem n).key = some (s.mem n).wfsid then s.tags
      else Function.update s.tags (s.mem n).key (some (s.mem n).timeTag) := by
  rcases myInsert_spec rb (n := n) h.sorted with
    ⟨m', t', hm, hkey, heq, ht⟩ | ⟨l, r, root', hlr, hlnr, heq, hl, hr⟩
  · rw [hinsert] at heq
    obtain ⟨rfl, rfl, rfl⟩ : t = t' ∧ root = s.fibRoot ∧ m = m' := by simpa using heq
    have hcontent : s.content (s.mem n).key = some (s.mem m).wfsid :=
      (tableOf_eq_some_iff h.keys_nodup).mpr ⟨m, hm, hkey, rfl⟩
    rcases ht with ⟨hsame, rfl⟩ | ⟨hother, rfl⟩
    · rw [if_pos (by rw [hcontent, hsame])]
      rfl
    · rw [if_neg (by rw [hcontent, Option.some.injEq]; exact hother), ← hkey]
      exact h.overwrite_tags hm _ rfl
  · rw [hinsert] at heq
    obtain ⟨rfl, rfl, rfl⟩ : t = s ∧ root = root' ∧ m = n := by simpa using heq
    have hsorted : root.inorder.Pairwise t.KeyLt := by
      rw [hlnr]
      exact pairwise_insert (hlr ▸ h.sorted) hl hr
    have hkeys := Fib.keys_nodup hsorted
    rw [hlnr] at hkeys
    -- The key of a node that is linked was not in the table.
    have hnew : t.content (t.mem m).key ≠ some (t.mem m).wfsid := by
      rw [content, tableOf_eq_none_iff.mpr]
      · simp
      · intro a ha heq
        rw [List.map_append, List.map_cons, List.nodup_append, List.nodup_cons] at hkeys
        rw [hlr] at ha
        have hmem := List.mem_map_of_mem (f := fun n => (t.mem n).key) ha
        simp only [heq, List.map_append, List.mem_append] at hmem
        rcases hmem with hmem | hmem
        · exact hkeys.2.2 _ hmem _ List.mem_cons_self rfl
        · exact hkeys.2.1.1 hmem
    rw [if_neg hnew]
    unfold tags
    rw [hlr, ← tableOf_insert hkeys, ← hlnr]

/-! ## Updates -/

theorem fibnAlloc_timeTag {k : Bool} {n : Nat} (h : s.fibnAlloc k = some (n, t)) :
    t.currentTimeTag = s.currentTimeTag := by
  unfold fibnAlloc at h
  split at h
  · obtain ⟨-, rfl⟩ := Prod.mk.inj (Option.some.inj h)
    rfl
  · split_ifs at h
    obtain ⟨-, rfl⟩ := Prod.mk.inj (Option.some.inj h)
    rfl

theorem update_tags_found (h : FibOk s) {key : FibKey} {k k' : Bool} {vid : UInt16} {mac : Mac}
    {ip : UInt32} {wfsid : UInt8} (hkey : s.content key ≠ none)
    (hupdate : s.ixgbeWfsFibUpdate rb key k k' vid mac ip wfsid = .ok t) :
    t.currentTimeTag = s.currentTimeTag ∧
      t.tags = Function.update s.tags key (some s.currentTimeTag) := by
  unfold ixgbeWfsFibUpdate at hupdate
  split at hupdate
  · cases hupdate
  · cases hn : s.mySearch key s.fibRoot (vid &&& 0xfff) mac with
    | none => exact absurd (mySearch_none h hn) hkey
    | some n =>
      rw [hn] at hupdate
      cases hupdate
      obtain ⟨hmem, hnkey, -⟩ := mySearch_some h hn
      refine ⟨rfl, ?_⟩
      rw [← hnkey]
      exact h.overwrite_tags hmem _ rfl

theorem update_tags_new (h : FibOk s) {key : FibKey} {k k' : Bool} {vid : UInt16} {mac : Mac}
    {ip : UInt32} {wfsid : UInt8} (hkey : s.content key = none)
    (hupdate : s.ixgbeWfsFibUpdate rb key k k' vid mac ip wfsid = .ok t) :
    ∃ u, FibOk u ∧ (s.HasNode k ∧ u = s ∨ ¬s.HasNode k ∧ myTrimTree rb s = .ok u) ∧
      t.currentTimeTag = u.currentTimeTag ∧
      t.tags = if u.content ⟨vid &&& 0xfff, mac⟩ = some wfsid then u.tags
        else Function.update u.tags ⟨vid &&& 0xfff, mac⟩ (some u.currentTimeTag) := by
  unfold ixgbeWfsFibUpdate at hupdate
  split at hupdate
  · cases hupdate
  · rw [mySearch_eq_none h hkey] at hupdate
    obtain ⟨⟨n, v⟩, halloc, hupdate⟩ := bind_eq_ok.mp hupdate
    obtain ⟨u, b, hok, hcase, hnode⟩ : ∃ u b, FibOk u ∧
        (s.HasNode k ∧ u = s ∨ ¬s.HasNode k ∧ myTrimTree rb s = .ok u) ∧
        u.fibnAlloc b = some (n, v) := by
      unfold allocOrTrim at halloc
      split at halloc
      · next r hr =>
        cases halloc
        exact ⟨s, k, h, .inl ⟨(hasNode_iff k).mpr ⟨_, hr⟩, rfl⟩, hr⟩
      · next hnone =>
        obtain ⟨u, htrim, halloc⟩ := bind_eq_ok.mp halloc
        have hok := h.of_trim rb htrim
        split at halloc
        · next r hr =>
          cases halloc
          exact ⟨u, k', hok, .inr ⟨(fibnAlloc_eq_none k).mp hnone, htrim⟩, hr⟩
        · cases halloc
    refine ⟨u, hok, hcase, ?_⟩
    obtain ⟨free, hlay⟩ := hok.layout
    obtain ⟨hcarry, hroot, -⟩ := hlay.alloc hnode
    have hheld : Holding v [n] := .of_fibnAlloc hok hnode
    -- the node is filled in
    dsimp only at hupdate
    set node : FibNode := { v.mem n with
      key := ⟨vid &&& 0xfff, mac⟩, ip, wfsid, timeTag := v.currentTimeTag } with hfields
    obtain ⟨hfill, hcontent⟩ := hheld.fill node rfl
    have htags : (v.setNode n node).tags = u.tags :=
      (hheld.fill_tags node).trans (hcarry.tags_eq hroot)
    rw [hcarry.content_eq hroot] at hcontent
    have hmem : (v.setNode n node).mem n = node := by simp [setNode]
    have htag := fibnAlloc_timeTag hnode
    -- and linked, or dropped for the one that is there
    obtain ⟨t', root, m, hinsert⟩ : ∃ t' root m,
        myInsert rb (v.setNode n node) (v.setNode n node).fibRoot n = (t', root, m) :=
      ⟨_, _, _, rfl⟩
    have hsame : t'.currentTimeTag = v.currentTimeTag := by
      have hkept := myInsert_kept rb keptByMoves_timeTag (v.setNode n node)
        (v.setNode n node).fibRoot n
      rw [hinsert] at hkept
      exact hkept
    rw [hinsert] at hupdate
    have hafter := fun size => hfill.insert_tags rb hinsert size
    simp only [hmem, hcontent, htags] at hafter
    rw [← htag]
    split at hupdate
    · cases hupdate
      refine ⟨(keptByMoves_timeTag.free _ n).trans hsame, ?_⟩
      rw [(carries_fibnFree _ n).tags_eq (fibnFree_fibRoot _ n)]
      exact hafter t'.fibSize
    · cases hupdate
      exact ⟨hsame, hafter (t'.fibSize + 1)⟩

/-! ## Trimming -/

theorem trimLoop_take {i : Nat} {root root' : Lib.Tree Nat} (hnd : root.inorder.Nodup)
    (h : trimLoop rb i s root = .ok (t, root')) :
    root'.inorder = root.inorder.take (root.inorder.length - i) := by
  induction i generalizing s root with
  | zero =>
    obtain ⟨-, rfl⟩ := Prod.mk.inj (Except.ok.inj h)
    rw [Nat.sub_zero, List.take_length]
  | succ i ih =>
    rw [trimLoop] at h
    split at h
    · cases h
    · next n hlast =>
      have herase := rb.erase_last hlast hnd
      have hnd' : (rb.erase n root).inorder.Nodup := by
        rw [herase]
        exact hnd.sublist (List.dropLast_sublist _)
      rw [ih hnd' h, herase, List.length_dropLast, List.dropLast_eq_take, List.take_take]
      congr 1
      omega

theorem trimDone_timeTag (h : trimDone s = .ok t) :
    t.currentTimeTag = s.currentTimeTag + 1 ∧ t.fibRoot = s.fibRoot := by
  unfold trimDone at h
  split at h
  · cases h
  · cases h
    exact ⟨rfl, rfl⟩

/-- **`my_trim_tree`** on a full table keeps the nodes that carry the current time tag, and
    if these are all of them the first 256; in any case it moves the tag on. -/
theorem myTrimTree_nodes (h : FibOk s) (htrim : myTrimTree rb s = .ok t) :
    t.currentTimeTag = s.currentTimeTag + 1 ∧
      (s.fibSize = fibSizeMax → t.fibRoot.inorder =
          if ∀ n ∈ s.fibRoot.inorder, (s.mem n).timeTag = s.currentTimeTag then
            s.fibRoot.inorder.take fibSizeMin
          else s.fibRoot.inorder.filter fun n => (s.mem n).timeTag = s.currentTimeTag) := by
  have hdrop : ∀ a b : FibNode, a.wfsid = b.wfsid → a.timeTag = b.timeTag →
      decide (a.timeTag ≠ s.currentTimeTag) = decide (b.timeTag ≠ s.currentTimeTag) := by
    intro a b _ hab
    rw [hab]
  have hkeep : (fun n => !decide ((s.mem n).timeTag ≠ s.currentTimeTag)) =
      fun n => decide ((s.mem n).timeTag = s.currentTimeTag) := by
    funext n
    simp
  have hsize := h.size
  unfold myTrimTree at htrim
  split at htrim
  · next hlt =>
    obtain ⟨htag, -⟩ := trimDone_timeTag htrim
    exact ⟨htag, fun hfull => by omega⟩
  · obtain ⟨v, root, hrun, -, -, hok, hroot⟩ := rebuild_spec rb hdrop h
    have hvtag : v.currentTimeTag = s.currentTimeTag := rebuild_kept rb keptByMoves_timeTag hrun
    have hvsize : v.fibSize = root.inorder.length := hok.size
    rw [hkeep] at hroot
    obtain ⟨r, hr, htrim⟩ := bind_eq_ok.mp htrim
    obtain rfl := Except.ok.inj (hrun.symm.trans hr)
    dsimp only at htrim
    by_cases hfull : v.fibSize = fibSizeMax
    · rw [if_pos hfull] at htrim
      obtain ⟨⟨w, root'⟩, hloop, htrim⟩ := bind_eq_ok.mp htrim
      obtain ⟨htag, hnodes⟩ := trimDone_timeTag htrim
      have hwtag : w.currentTimeTag = v.currentTimeTag := trimLoop_kept rb keptByMoves_timeTag hloop
      refine ⟨htag.trans (by rw [← hvtag, ← hwtag]), fun hsfull => ?_⟩
      -- As many nodes are kept as there were, so all of them were fresh.
      have hall : s.fibRoot.inorder.filter
          (fun n => (s.mem n).timeTag = s.currentTimeTag) = s.fibRoot.inorder := by
        apply List.filter_sublist.eq_of_length
        rw [← hroot]
        omega
      have hfresh : ∀ n ∈ s.fibRoot.inorder, (s.mem n).timeTag = s.currentTimeTag := by
        intro n hn
        rw [← hall] at hn
        exact of_decide_eq_true (List.mem_filter.mp hn).2
      have htake := trimLoop_take rb (nodup_of_pairwise hok.sorted) hloop
      rw [if_pos hfresh, hnodes]
      have hmax : fibSizeMax = 4096 := rfl
      have hmin : fibSizeMin = 256 := rfl
      have hlen : s.fibRoot.inorder.length - (fibSizeMax - fibSizeMin) = fibSizeMin := by omega
      rw [htake, hroot, hall, hlen]
    · rw [if_neg hfull] at htrim
      obtain ⟨htag, hnodes⟩ := trimDone_timeTag htrim
      refine ⟨htag.trans (by rw [← hvtag]), fun hsfull => ?_⟩
      have hstale : ¬∀ n ∈ s.fibRoot.inorder, (s.mem n).timeTag = s.currentTimeTag := by
        intro hall
        have hfilter : s.fibRoot.inorder.filter
            (fun n => (s.mem n).timeTag = s.currentTimeTag) = s.fibRoot.inorder :=
          List.filter_eq_self.mpr fun n hn => decide_eq_true (hall n hn)
        rw [hfilter] at hroot
        rw [hroot] at hvsize
        omega
      rw [if_neg hstale, hnodes]
      exact hroot

/-! ## Ages -/

abbrev Ages := FibKey → Nat

def Tagged (s : Fib) (age : Ages) : Prop :=
  ∀ k x, s.tags k = some x → s.currentTimeTag = x + UInt8.ofNat (age k)

/-- When `my_trim_tree` runs on the full table, the entries updated since the previous trim
    survive and no others; if these are all entries, the 256 with the smallest keys do. -/
def EvictsIdle (s : Fib) (age : Ages) : Prop :=
  s.fibSize = fibSizeMax → ∀ timer t, myTrimTree rb { s with fibTimer := timer } = .ok t →
    t.keys = if ∀ k ∈ s.keys, age k = 0 then s.keys.take fibSizeMin
      else s.keys.filter fun k => age k = 0

/-- No entry has been idle for a multiple of 256 trims. -/
def NoneWrapped (s : Fib) (age : Ages) : Prop := ∀ k ∈ s.keys, age k % 256 = 0 → age k = 0

theorem mem_keys {k : FibKey} : k ∈ s.keys ↔ s.tags k ≠ none := by
  unfold keys tags
  rw [Ne, tableOf_eq_none_iff, List.mem_map]
  push Not
  rfl

theorem Tagged.fresh_iff {age : Ages} (h : FibOk s) (htagged : Tagged s age)
    (hnone : NoneWrapped s age) {n : Nat} (hn : n ∈ s.fibRoot.inorder) :
    (s.mem n).timeTag = s.currentTimeTag ↔ age (s.mem n).key = 0 := by
  have htag := htagged (s.mem n).key (s.mem n).timeTag
    ((tableOf_eq_some_iff h.keys_nodup).mpr ⟨n, hn, rfl, rfl⟩)
  have hkey : (s.mem n).key ∈ s.keys := List.mem_map_of_mem hn
  have hzero : (s.mem n).timeTag = s.currentTimeTag ↔ age (s.mem n).key % 256 = 0 := by
    rw [htag, ← UInt8.toNat_inj, UInt8.toNat_add, UInt8.toNat_ofNat']
    have hlt := (s.mem n).timeTag.toNat_lt
    omega
  rw [hzero]
  constructor
  · exact hnone _ hkey
  · intro heq
    rw [heq]

/-- **One trim** of a tagged table. -/
theorem Tagged.evictsIdle {age : Ages} (h : FibOk s) (htagged : Tagged s age)
    (hnone : NoneWrapped s age) : EvictsIdle rb s age := by
  intro hfull timer t htrim
  have hok := h.of_timer timer
  have hcarry := (myTrimTree_trimmed rb hok htrim).carries
  have hnodes := (myTrimTree_nodes rb hok htrim).2 hfull
  have hkeys : t.keys = t.fibRoot.inorder.map fun n => (s.mem n).key :=
    List.map_congr_left fun n _ => hcarry.key n
  have hiff : (∀ n ∈ s.fibRoot.inorder, (s.mem n).timeTag = s.currentTimeTag) ↔
      ∀ k ∈ s.keys, age k = 0 := by
    unfold keys
    rw [List.forall_mem_map]
    exact forall₂_congr fun n hn => htagged.fresh_iff h hnone hn
  rw [hkeys, hnodes]
  by_cases hall : ∀ k ∈ s.keys, age k = 0
  · rw [if_pos hall, if_pos (hiff.mpr hall), List.map_take]
    rfl
  · rw [if_neg hall, if_neg fun hfresh => hall (hiff.mp hfresh)]
    unfold keys
    rw [List.filter_map]
    congr 1
    apply List.filter_congr
    intro n hn
    rw [Function.comp_apply, decide_eq_decide]
    exact htagged.fresh_iff h hnone hn

/-! ## Runs -/

/-- `my_trim_tree` runs in an event: with the timer, or in an update that gets no node. -/
def TrimsIn (s : Fib) : FibEvent → Prop
  | .call (.update key k _ _ _ _ _) => s.content key = none ∧ ¬s.HasNode k
  | .call .timer => True
  | .action => True
  | .call (.lookup ..) | .call (.delete ..) | .call (.deleteWfsid ..) | .fire => False

instance (s : Fib) : DecidablePred s.TrimsIn
  | .call (.update key k _ _ _ _ _) =>
    inferInstanceAs (Decidable (s.content key = none ∧ ¬s.HasNode k))
  | .call .timer => .isTrue trivial
  | .action => .isTrue trivial
  | .call (.lookup ..) => .isFalse id
  | .call (.delete ..) => .isFalse id
  | .call (.deleteWfsid ..) => .isFalse id
  | .fire => .isFalse id

def agesTrimmed (s : Fib) (ev : FibEvent) (age : Ages) : Ages :=
  if s.TrimsIn ev then fun k => age k + 1 else age

def agesAfter (s : Fib) (ev : FibEvent) (age : Ages) : Ages :=
  match ev with
  | .call (.update _ _ _ vid mac _ _) =>
    Function.update (agesTrimmed s ev age) ⟨vid &&& 0xfff, mac⟩ 0
  | _ => agesTrimmed s ev age

def AgedStep (x : Fib × Ages) (ev : FibEvent) (y : Fib × Ages) : Prop :=
  FibEventStep rb x.1 ev y.1 ∧ y.2 = agesAfter x.1 ev x.2

/-- An update refreshes the entry of its address and no other one, or nothing has to be
    refreshed.  The local variable of `my_search` holds the key of the update; or a key that
    is not in the table, and the entry of the update is missing, has another station or is
    fresh and stays so; or the key of a fresh entry, and the entry of the update is missing
    or fresh. -/
def RefreshesOwn (x : Fib × Ages) : FibEvent → Prop
  | .call (.update key k _ vid mac _ wfsid) =>
    key = ⟨vid &&& 0xfff, mac⟩ ∨
    x.1.content key = none ∧
      (x.1.content ⟨vid &&& 0xfff, mac⟩ = some wfsid →
        x.2 ⟨vid &&& 0xfff, mac⟩ = 0 ∧ x.1.HasNode k) ∨
    x.1.content key ≠ none ∧ x.2 key = 0 ∧
      (x.1.content ⟨vid &&& 0xfff, mac⟩ = none ∨ x.2 ⟨vid &&& 0xfff, mac⟩ = 0)
  | _ => True

theorem tags_eq_none_iff {k : FibKey} : s.tags k = none ↔ s.content k = none := by
  unfold tags content
  rw [tableOf_eq_none_iff, tableOf_eq_none_iff]

theorem Tagged.of_trimmed {age : Ages} (h : FibOk s) (ht : FibOk t) (htagged : Tagged s age)
    (htrim : Trimmed s t) (htag : t.currentTimeTag = s.currentTimeTag) : Tagged t age := by
  intro k x hk
  rw [htag]
  exact htagged k x (htrim.tags h ht hk)

theorem Tagged.trim {age : Ages} (h : FibOk s) (htagged : Tagged s age)
    (htrim : myTrimTree rb s = .ok t) : Tagged t fun k => age k + 1 := by
  intro k x hk
  have hs := htagged k x ((myTrimTree_trimmed rb h htrim).tags h (h.of_trim rb htrim) hk)
  rw [(myTrimTree_nodes rb h htrim).1, hs, UInt8.ofNat_add, ← UInt8.add_assoc]
  rfl

theorem Tagged.update_found {age : Ages} {key : FibKey} {k k' : Bool} {vid : UInt16} {mac : Mac}
    {ip : UInt32} {wfsid : UInt8} (h : FibOk s) (htagged : Tagged s age)
    (hkey : s.content key ≠ none)
    (hown : RefreshesOwn (s, age) (.call (.update key k k' vid mac ip wfsid)))
    (hupdate : s.ixgbeWfsFibUpdate rb key k k' vid mac ip wfsid = .ok t) :
    Tagged t (Function.update age ⟨vid &&& 0xfff, mac⟩ 0) := by
  obtain ⟨htag, htags⟩ := update_tags_found rb h hkey hupdate
  have hzero : (UInt8.ofNat 0 : UInt8) = 0 := rfl
  intro k₁ x hx
  rw [htag]
  rw [htags] at hx
  by_cases hk₁ : k₁ = key
  · -- the entry that is refreshed
    subst hk₁
    rw [Function.update_self, Option.some.injEq] at hx
    subst hx
    have hage : Function.update age ⟨vid &&& 0xfff, mac⟩ 0 k₁ = 0 := by
      by_cases hg : k₁ = ⟨vid &&& 0xfff, mac⟩
      · rw [hg, Function.update_self]
      · rw [Function.update_of_ne hg]
        rcases hown with heq | ⟨hmiss, -⟩ | ⟨-, hfresh, -⟩
        · exact absurd heq hg
        · exact absurd hmiss hkey
        · exact hfresh
    rw [hage, hzero, UInt8.add_zero]
  · rw [Function.update_of_ne hk₁] at hx
    by_cases hg : k₁ = ⟨vid &&& 0xfff, mac⟩
    · subst hg
      have hcontent : s.content ⟨vid &&& 0xfff, mac⟩ ≠ none := by
        rw [Ne, ← tags_eq_none_iff, hx]
        exact Option.some_ne_none _
      have hfresh : age ⟨vid &&& 0xfff, mac⟩ = 0 := by
        rcases hown with heq | ⟨hmiss, -⟩ | ⟨-, -, hnone | hfresh⟩
        · exact absurd heq.symm hk₁
        · exact absurd hmiss hkey
        · exact absurd hnone hcontent
        · exact hfresh
      rw [Function.update_self, ← hfresh]
      exact htagged _ _ hx
    · rw [Function.update_of_ne hg]
      exact htagged _ _ hx

theorem Tagged.update_new {age : Ages} {key : FibKey} {k k' : Bool} {vid : UInt16} {mac : Mac}
    {ip : UInt32} {wfsid : UInt8} (h : FibOk s) (htagged : Tagged s age)
    (hkey : s.content key = none)
    (hown : RefreshesOwn (s, age) (.call (.update key k k' vid mac ip wfsid)))
    (hupdate : s.ixgbeWfsFibUpdate rb key k k' vid mac ip wfsid = .ok t) :
    Tagged t (Function.update
      (agesTrimmed s (.call (.update key k k' vid mac ip wfsid)) age) ⟨vid &&& 0xfff, mac⟩ 0) := by
  obtain ⟨u, hok, hcase, htag, htags⟩ := update_tags_new rb h hkey hupdate
  have hzero : (UInt8.ofNat 0 : UInt8) = 0 := rfl
  -- the table the entry is put in
  have hu : Tagged u (agesTrimmed s (.call (.update key k k' vid mac ip wfsid)) age) := by
    unfold agesTrimmed
    rcases hcase with ⟨hnode, rfl⟩ | ⟨hno, htrim⟩
    · rw [if_neg fun htrims => htrims.2 hnode]
      exact htagged
    · rw [if_pos ⟨hkey, hno⟩]
      exact htagged.trim rb h htrim
  intro k₁ x hx
  rw [htag]
  rw [htags] at hx
  by_cases hg : k₁ = ⟨vid &&& 0xfff, mac⟩
  · subst hg
    rw [Function.update_self]
    split at hx
    · next hsame =>
      -- the entry is there with its station, and so was fresh
      have hsame' : s.content ⟨vid &&& 0xfff, mac⟩ = some wfsid := by
        rcases hcase with ⟨-, rfl⟩ | ⟨-, htrim⟩
        · exact hsame
        · exact (myTrimTree_trimmed rb h htrim).content h hok hsame
      have hfresh : age ⟨vid &&& 0xfff, mac⟩ = 0 ∧ s.HasNode k := by
        rcases hown with heq | ⟨-, hfresh⟩ | ⟨hhit, -⟩
        · rw [← heq, hkey] at hsame'
          cases hsame'
        · exact hfresh hsame'
        · exact absurd hkey hhit
      have hus : u = s := by
        rcases hcase with ⟨-, rfl⟩ | ⟨hno, -⟩
        · rfl
        · exact absurd hfresh.2 hno
      subst hus
      rw [← hfresh.1]
      exact htagged _ _ hx
    · rw [Function.update_self, Option.some.injEq] at hx
      rw [hx, hzero, UInt8.add_zero]
  · rw [Function.update_of_ne hg]
    split at hx
    · exact hu _ _ hx
    · rw [Function.update_of_ne hg] at hx
      exact hu _ _ hx

theorem trimmed_of_removal {op : FibOp} {res : Option UInt8} (h : FibOk s)
    (hstep : op.step rb s = .ok (t, res)) (htimer : op ≠ .timer)
    (hupdate : ∀ key k k' vid mac ip wfsid, op ≠ .update key k k' vid mac ip wfsid) :
    Trimmed s t ∧ t.currentTimeTag = s.currentTimeTag := by
  cases op with
  | update key k k' vid mac ip wfsid => exact absurd rfl (hupdate key k k' vid mac ip wfsid)
  | timer => exact absurd rfl htimer
  | lookup key vid mac =>
    cases hstep
    exact ⟨⟨.of_mem rfl, fun n hn => hn⟩, rfl⟩
  | delete key vid mac =>
    cases hstep
    unfold ixgbeWfsFibDelete
    split
    · next n hn =>
      obtain ⟨hmem, -, -⟩ := mySearch_some h hn
      have herase := rb.erase_inorder n s.fibRoot hmem (nodup_of_pairwise h.sorted)
      have hcarry : Carries s { s with fibRoot := rb.erase n s.fibRoot } := .of_mem rfl
      refine ⟨⟨(hcarry.trans (carries_fibnFree _ n)).trans (.of_mem rfl), fun m hm => ?_⟩,
        keptByMoves_timeTag.free { s with fibRoot := rb.erase n s.fibRoot } n⟩
      rw [fibnFree_fibRoot, herase] at hm
      exact List.mem_of_mem_erase hm
    · exact ⟨⟨.of_mem rfl, fun n hn => hn⟩, rfl⟩
  | deleteWfsid wfsid =>
    have hdrop : ∀ a b : FibNode, a.wfsid = b.wfsid → a.timeTag = b.timeTag →
        decide (a.wfsid = wfsid) = decide (b.wfsid = wfsid) := by
      intro a b hab _
      rw [hab]
    obtain ⟨u, root, hrun, hcarry, -, -, hroot⟩ := rebuild_spec rb hdrop h
    by_cases hw : ValidWfsid wfsid
    · rw [FibOp.step, ixgbeWfsFibDeleteWfsid, if_neg hw, hrun] at hstep
      cases hstep
      have htag : u.currentTimeTag = s.currentTimeTag := rebuild_kept rb keptByMoves_timeTag hrun
      refine ⟨⟨hcarry.trans (.of_mem rfl), fun m hm => ?_⟩, htag⟩
      rw [hroot] at hm
      exact (List.mem_filter.mp hm).1
    · rw [FibOp.step, ixgbeWfsFibDeleteWfsid, if_pos (not_not.mp hw)] at hstep
      cases hstep

/-- **One step** keeps the tags right if it is no update of another entry. -/
theorem tagged_of_step {x y : Fib × Ages} {ev : FibEvent} (h : FibOk x.1)
    (htagged : Tagged x.1 x.2) (hown : RefreshesOwn x ev) (hstep : AgedStep rb x ev y) :
    FibOk y.1 ∧ Tagged y.1 y.2 := by
  obtain ⟨s, age⟩ := x
  obtain ⟨t, age'⟩ := y
  obtain ⟨hstep, hage⟩ := hstep
  subst hage
  cases ev with
  | fire =>
    obtain ⟨-, rfl⟩ := hstep
    exact ⟨h.of_timer false, htagged⟩
  | action =>
    have htrim : myTrimTree rb s = .ok t := hstep
    exact ⟨h.of_trim rb htrim, htagged.trim rb h htrim⟩
  | call op =>
    have hok := h.of_step rb hstep
    refine ⟨hok, ?_⟩
    obtain ⟨res, hcall⟩ := hstep
    cases op with
    | update key k k' vid mac ip wfsid =>
      cases hupdate : s.ixgbeWfsFibUpdate rb key k k' vid mac ip wfsid with
      | error f =>
        rw [FibOp.step, hupdate] at hcall
        cases hcall
      | ok u =>
        rw [FibOp.step, hupdate] at hcall
        cases hcall
        by_cases hkey : s.content key = none
        · exact htagged.update_new rb h hkey hown hupdate
        -- an entry that is there is refreshed, and nothing is trimmed for it
        · have hno : ¬s.TrimsIn (.call (.update key k k' vid mac ip wfsid)) :=
            fun htrims => hkey htrims.1
          have hfound := htagged.update_found rb h hkey hown hupdate
          unfold agesAfter agesTrimmed
          rw [if_neg hno]
          exact hfound
    | timer =>
      rw [FibOp.step] at hcall
      cases htrim : s.timerAction rb with
      | error f =>
        rw [htrim] at hcall
        cases hcall
      | ok u =>
        rw [htrim] at hcall
        cases hcall
        -- the timer's action trims with the flag of the timer cleared
        have hfired : Tagged { s with fibTimer := false } age := htagged
        exact hfired.trim rb (h.of_timer false) htrim
    | lookup | delete | deleteWfsid =>
      obtain ⟨htrimmed, htag⟩ := trimmed_of_removal rb h hcall (by simp) (by simp)
      exact htagged.of_trimmed h hok htrimmed htag

theorem tagged_of_run {kmalloc : Nat → Bool} {evs : List FibEvent} {y : Fib × Ages}
    (hinit : (ixgbeWfsFibInit kmalloc).2 = true)
    (hrun : Run (Guarded (AgedStep rb) RefreshesOwn) ((ixgbeWfsFibInit kmalloc).1, fun _ => 0)
      evs y) : FibOk y.1 ∧ Tagged y.1 y.2 := by
  obtain ⟨hok, hempty⟩ := init_spec (Prod.ext rfl hinit)
  have hstart : Tagged (ixgbeWfsFibInit kmalloc).1 fun _ => 0 := by
    intro k x hk
    have hnone : (ixgbeWfsFibInit kmalloc).1.tags k = none := by
      rw [tags_eq_none_iff, hempty]
    rw [hnone] at hk
    cases hk
  exact hrun.invariant (I := fun x => FibOk x.1 ∧ Tagged x.1 x.2)
    (fun _ _ _ h hstep => tagged_of_step rb h.1 h.2 hstep.1 hstep.2) ⟨hok, hstart⟩

/-- **Trimming a full table evicts the idle entries**, in every state that calls and the timer
    reach from `ixgbe_wfs_fib_init` with every update refreshing its own entry, if no entry
    has been idle for a multiple of 256 trims. -/
theorem trim_evicts_idle {kmalloc : Nat → Bool} {evs : List FibEvent} {age : Ages}
    (hinit : (ixgbeWfsFibInit kmalloc).2 = true)
    (hrun : Run (Guarded (AgedStep rb) RefreshesOwn) ((ixgbeWfsFibInit kmalloc).1, fun _ => 0)
      evs (s, age)) (hnone : NoneWrapped s age) : EvictsIdle rb s age := by
  obtain ⟨hok, htagged⟩ := tagged_of_run rb hinit hrun
  exact htagged.evictsIdle rb hok hnone

/-! ## A full table -/

/-- The table with the first `k` addresses, all of the station 1. -/
structure Stocked (s : Fib) (k : Nat) : Prop where
  fib : FibOk s
  content : ∀ key, s.content key = if key ∈ learnedKeys k then some 1 else none

/-- The `i`-th address is learned. -/
def stockOp (i : Nat) : FibEvent := .call (.update zeroKey true true 5 (learnedMac i) 0 1)

namespace Stocked

variable {k : Nat} {age : Ages}

theorem content_ne_none (h : Stocked s k) (key : FibKey) :
    s.content key ≠ none ↔ key ∈ learnedKeys k := by
  rw [h.content]
  by_cases hkey : key ∈ learnedKeys k
  · rw [if_pos hkey]
    exact iff_of_true (Option.some_ne_none _) hkey
  · rw [if_neg hkey]
    exact iff_of_false (fun hne => hne rfl) hkey

theorem length_eq (h : Stocked s k) (hk : k ≤ fibSizeMax) : s.fibRoot.inorder.length = k :=
  length_of_learned h.fib h.content_ne_none hk

theorem miss (h : Stocked s k) : s.content zeroKey = none := by
  rw [h.content, if_neg (zeroKey_not_mem k)]

theorem hasNode (h : Stocked s k) (hk : k < fibSizeMax) : s.HasNode true := by
  obtain ⟨free, hlay⟩ := h.fib.layout
  apply (hasNode_iff true).mpr
  apply hlay.alloc_isSome
  rw [List.nil_append, h.length_eq hk.le]
  exact hk

theorem update (h : Stocked s k) (hk : k < fibSizeMax) {i k' : Nat}
    (hi : ∀ key, key ∈ learnedKeys k' ↔ key = learnedKey i ∨ key ∈ learnedKeys k) (age : Ages) :
    ∃ t, AgedStep rb (s, age) (stockOp i) (t, Function.update age (learnedKey i) 0) ∧
      Stocked t k' ∧ t.currentTimeTag = s.currentTimeTag ∧
      t.tags = if s.content (learnedKey i) = some 1 then s.tags
        else Function.update s.tags (learnedKey i) (some s.currentTimeTag) := by
  have hlt : s.fibRoot.inorder.length < fibSizeMax := by
    rw [h.length_eq hk.le]
    exact hk
  have hw : ValidWfsid 1 := by decide
  have hnode := h.hasNode hk
  obtain ⟨t, ht, hok, hcontent⟩ := update_spec rb h.fib hlt zeroKey true 5 (learnedMac i) 0 hw
  rw [if_pos h.miss] at hcontent
  change t.content = Function.update s.content (learnedKey i) (some 1) at hcontent
  obtain ⟨u, -, hcase, htag, htags⟩ := update_tags_new rb h.fib h.miss ht
  obtain rfl : u = s := by
    rcases hcase with ⟨-, heq⟩ | ⟨hno, -⟩
    · exact heq
    · exact absurd hnode hno
  have hages : agesAfter u (stockOp i) age = Function.update age (learnedKey i) 0 := by
    have hno : ¬u.TrimsIn (stockOp i) := fun htrims => htrims.2 hnode
    change Function.update (agesTrimmed u (stockOp i) age) (learnedKey i) 0 = _
    rw [agesTrimmed, if_neg hno]
  refine ⟨t, ⟨⟨none, ?_⟩, hages.symm⟩, ⟨hok, fun key => ?_⟩, htag, htags⟩
  · rw [FibOp.step, ht]
    rfl
  · rw [hcontent]
    by_cases hkey : key = learnedKey i
    · rw [hkey, Function.update_self, if_pos ((hi _).mpr (.inl rfl))]
    · rw [Function.update_of_ne hkey, h.content]
      simp only [hi, hkey, false_or]

theorem refreshesOwn (h : Stocked s k) (hk : k < fibSizeMax) (age : Ages) :
    RefreshesOwn (s, age) (stockOp k) := by
  refine .inr (.inl ⟨h.miss, fun hsame => ?_⟩)
  have hnew : learnedKey k ∉ learnedKeys k := by
    intro hmem
    obtain ⟨i, hi, heq⟩ := Finset.mem_image.mp hmem
    have hlt := Finset.mem_range.mp hi
    have hmax : fibSizeMax = 4096 := rfl
    have hik := learnedKey_injective (by omega) (by omega) heq
    omega
  change s.content (learnedKey k) = some 1 at hsame
  rw [h.content, if_neg hnew] at hsame
  cases hsame

end Stocked

theorem stock_run {k : Nat} (hk : k ≤ fibSizeMax) :
    ∃ s, Run (Guarded (AgedStep rb) RefreshesOwn)
        ((ixgbeWfsFibInit fun _ => true).1, fun _ => 0) ((List.range k).map stockOp)
        (s, fun _ => 0) ∧ Stocked s k := by
  induction k with
  | zero =>
    obtain ⟨hok, hempty⟩ := init_spec (Prod.ext rfl init_of_kmalloc)
    refine ⟨_, .nil _, hok, fun key => ?_⟩
    rw [hempty]
    simp [learnedKeys]
  | succ k ih =>
    obtain ⟨s, hrun, hs⟩ := ih (by omega)
    obtain ⟨t, hstep, ht, -, -⟩ := hs.update rb hk (fun _ => mem_learnedKeys_succ) fun _ => 0
    have hage : Function.update (fun _ => 0 : Ages) (learnedKey k) 0 = fun _ => 0 :=
      Function.update_eq_self _ _
    rw [hage] at hstep
    refine ⟨t, ?_, ht⟩
    rw [List.range_succ, List.map_append]
    exact hrun.append (.single ⟨hs.refreshesOwn hk _, hstep⟩)

/-- As many addresses as fit: a trim keeps the 256 smallest. -/
theorem trim_evicts_idle_stocked :
    ∃ s, Run (Guarded (AgedStep .plain) RefreshesOwn)
        ((ixgbeWfsFibInit fun _ => true).1, fun _ => 0) ((List.range fibSizeMax).map stockOp)
        (s, fun _ => 0) ∧ s.fibSize = fibSizeMax ∧ EvictsIdle .plain s fun _ => 0 := by
  obtain ⟨s, hrun, hs⟩ := stock_run .plain le_rfl
  have hsize : s.fibSize = fibSizeMax := by
    rw [hs.fib.size, hs.length_eq le_rfl]
  exact ⟨s, hrun, hsize, trim_evicts_idle .plain init_of_kmalloc hrun fun _ _ _ => rfl⟩

theorem not_evictsIdle {age : Ages} (h : FibOk s) (hfull : s.fibSize = fibSizeMax)
    {k₀ k₁ : FibKey} {x : UInt8} (hk₀ : s.tags k₀ = some x) (hold : x ≠ s.currentTimeTag)
    (hfresh : age k₀ = 0) (hk₁ : k₁ ∈ s.keys) (hidle : age k₁ ≠ 0) : ¬EvictsIdle rb s age := by
  intro hevicts
  have hok := h.of_timer false
  obtain ⟨t, htrim, -, -⟩ := myTrimTree_spec rb hok rfl
  have hcarry := (myTrimTree_trimmed rb hok htrim).carries
  have hkeys := hevicts hfull false t htrim
  rw [if_neg fun hall => hidle (hall k₁ hk₁)] at hkeys
  have hmem : k₀ ∈ t.keys := by
    rw [hkeys, List.mem_filter]
    refine ⟨mem_keys.mpr ?_, decide_eq_true hfresh⟩
    rw [hk₀]
    exact Option.some_ne_none _
  obtain ⟨n₀, hn₀, hkey₀, htag₀⟩ := (tableOf_eq_some_iff h.keys_nodup).mp hk₀
  have hnodes := (myTrimTree_nodes rb hok htrim).2 hfull
  rw [if_neg fun hall => hold (htag₀.symm.trans (hall n₀ hn₀))] at hnodes
  obtain ⟨n, hn, hkey⟩ := List.mem_map.mp hmem
  rw [hnodes] at hn
  obtain ⟨hin, hcurrent⟩ := List.mem_filter.mp hn
  -- The key has one node only.
  have hsame : s.tags k₀ = some s.currentTimeTag := by
    apply (tableOf_eq_some_iff h.keys_nodup).mpr
    exact ⟨n, hin, (hcarry.key n).symm.trans hkey, of_decide_eq_true hcurrent⟩
  rw [hk₀, Option.some.injEq] at hsame
  exact hold hsame

theorem Stocked.timer {k : Nat} (h : Stocked s k) (hk : k < fibSizeMax) (age : Ages) :
    ∃ t, AgedStep rb (s, age) (.call .timer) (t, fun k => age k + 1) ∧ Stocked t k ∧
      t.currentTimeTag = s.currentTimeTag + 1 ∧ t.tags = s.tags := by
  have hsize : s.fibSize < fibSizeMax := by
    rw [h.fib.size, h.length_eq hk.le]
    omega
  obtain ⟨free, hlay⟩ := h.fib.layout
  refine ⟨{ s with currentTimeTag := s.currentTimeTag + 1, fibTimer := true }, ⟨⟨none, ?_⟩, rfl⟩,
    ⟨⟨⟨free, hlay.congr rfl rfl rfl rfl⟩, h.fib.sorted, h.fib.size⟩, h.content⟩, rfl, rfl⟩
  rw [FibOp.step, timerAction, myTrimTree, if_pos hsize]
  rfl

def refreshRun : List FibEvent :=
  (List.range (fibSizeMax - 1)).map stockOp ++ [.call .timer, stockOp 0, stockOp (fibSizeMax - 1)]

/-- The update of the first address finds its entry on inserting it, so the tag stays: the
    entry that was refreshed since the previous trim is evicted. -/
theorem trim_evicts_refreshed :
    ∃ s age, Run (AgedStep .plain) ((ixgbeWfsFibInit fun _ => true).1, fun _ => 0) refreshRun
        (s, age) ∧ s.fibSize = fibSizeMax ∧ ¬EvictsIdle .plain s age := by
  have hmax : fibSizeMax = 4096 := rfl
  have hlast : fibSizeMax - 1 < fibSizeMax := by omega
  obtain ⟨s₁, hrun, hs₁⟩ := stock_run .plain hlast.le
  have htagged := (tagged_of_run .plain init_of_kmalloc hrun).2
  obtain ⟨s₂, htimer, hs₂, htag₂, htags₂⟩ := hs₁.timer .plain hlast fun _ => 0
  have hne : ∀ i < fibSizeMax, i ≠ 0 → learnedKey 0 ≠ learnedKey i := by
    intro i hi hi0 heq
    exact hi0 (learnedKey_injective (by omega) (by omega) heq).symm
  have hmem₀ : ∀ k, 0 < k → learnedKey 0 ∈ learnedKeys k := fun k hk =>
    Finset.mem_image_of_mem _ (Finset.mem_range.mpr hk)
  -- the first address again
  have hagain : ∀ key, key ∈ learnedKeys (fibSizeMax - 1) ↔
      key = learnedKey 0 ∨ key ∈ learnedKeys (fibSizeMax - 1) := by
    intro key
    refine ⟨.inr, ?_⟩
    rintro (rfl | hkey)
    · exact hmem₀ _ (by omega)
    · exact hkey
  obtain ⟨s₃, hstep₃, hs₃, htag₃, htags₃⟩ := hs₂.update .plain hlast hagain fun _ => 0 + 1
  rw [hs₂.content, if_pos (hmem₀ _ (by omega)), if_pos rfl] at htags₃
  -- and the last one
  obtain ⟨s₄, hstep₄, hs₄, htag₄, htags₄⟩ := hs₃.update .plain hlast
    (fun _ => mem_learnedKeys_succ) (Function.update (fun _ => 0 + 1) (learnedKey 0) 0)
  rw [Nat.sub_add_cancel (by omega)] at hs₄
  have hsize : s₄.fibSize = fibSizeMax := by
    rw [hs₄.fib.size, hs₄.length_eq le_rfl]
  have hrun₄ := (hrun.mono fun _ _ _ h => h.2).append
    (.cons htimer (.cons hstep₃ (.single hstep₄)))
  refine ⟨s₄, _, hrun₄, hsize, ?_⟩
  obtain ⟨x, hx⟩ : ∃ x, s₁.tags (learnedKey 0) = some x := by
    apply Option.ne_none_iff_exists'.mp
    rw [Ne, tags_eq_none_iff, hs₁.content, if_pos (hmem₀ _ (by omega))]
    exact Option.some_ne_none _
  have hcurrent := htagged _ _ hx
  have hold : x ≠ s₄.currentTimeTag := by
    rw [htag₄, htag₃, htag₂, hcurrent]
    intro heq
    have hnat := congrArg UInt8.toNat heq
    simp only [UInt8.toNat_add] at hnat
    have hone : (1 : UInt8).toNat = 1 := rfl
    have hzero : (UInt8.ofNat 0).toNat = 0 := rfl
    have hlt := x.toNat_lt
    omega
  have hkept : s₄.tags (learnedKey 0) = some x := by
    rw [htags₄]
    split
    · rw [htags₃, htags₂, hx]
    · rw [Function.update_of_ne (hne _ hlast (by omega)), htags₃, htags₂, hx]
  have hsecond : learnedKey 1 ∈ s₄.keys := by
    apply mem_keys.mpr
    rw [Ne, tags_eq_none_iff, hs₄.content, if_pos]
    · exact Option.some_ne_none _
    · exact Finset.mem_image_of_mem _ (Finset.mem_range.mpr (by omega))
  have h10 : learnedKey 1 ≠ learnedKey 0 := fun heq => hne 1 (by omega) (by omega) heq.symm
  have h1last : learnedKey 1 ≠ learnedKey (fibSizeMax - 1) := by
    intro heq
    have hi := learnedKey_injective (by omega) (by omega) heq
    omega
  apply not_evictsIdle .plain hs₄.fib hsize hkept hold _ hsecond
  · rw [Function.update_of_ne h1last, Function.update_of_ne h10]
    exact Nat.one_ne_zero
  · rw [Function.update_of_ne (hne _ hlast (by omega)), Function.update_self]

end Fib

end VmkDrivers.Wfs
