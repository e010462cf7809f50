/-
  VmkDrivers.Wfs.FibLayout

  The nodes of the forwarding table.

  Keys are ordered by `keycmp` as their ranks are, which makes a walk down
  the tree with a fixed key a cut of the node order.  Every allocated node is
  either free or in use, and `fibn_alloc` and `fibn_free` move nodes between
  the two without touching what they carry (`Carries`).
-/

import VmkDrivers.Wfs.Fib
import VmkDrivers.Lib.KeyedList

namespace VmkDrivers.Wfs

open VmkDrivers.Lib

/-! ## The order of the keys -/

def byteRank : List UInt8 → Nat
  | [] => 0
  | a :: as => a.toNat * 256 ^ as.length + byteRank as

theorem byteRank_lt (l : List UInt8) : byteRank l < 256 ^ l.length := by
  induction l with
  | nil => simp [byteRank]
  | cons a as ih =>
    have ha : a.toNat < 256 := a.toNat_lt
    have hle : (a.toNat + 1) * 256 ^ as.length ≤ 256 * 256 ^ as.length := Nat.mul_le_mul_right _ ha
    rw [byteRank, List.length_cons, Nat.pow_succ, Nat.mul_comm (256 ^ as.length)]
    rw [Nat.add_mul, Nat.one_mul] at hle
    omega

theorem byteRank_lt_of_lt {a b : UInt8} {as bs : List UInt8} (hlen : as.length = bs.length)
    (h : a < b) : byteRank (a :: as) < byteRank (b :: bs) := by
  have hab : a.toNat + 1 ≤ b.toNat := UInt8.lt_iff_toNat_lt.mp h
  have has := byteRank_lt as
  have hle : (a.toNat + 1) * 256 ^ as.length ≤ b.toNat * 256 ^ as.length :=
    Nat.mul_le_mul_right _ hab
  rw [byteRank, byteRank, ← hlen]
  rw [Nat.add_mul, Nat.one_mul] at hle
  omega

theorem memcmp_spec {l l' : List UInt8} (hlen : l.length = l'.length) :
    (memcmp l l' < 0 ↔ byteRank l < byteRank l') ∧ (memcmp l l' = 0 ↔ l = l') ∧
      (0 < memcmp l l' ↔ byteRank l' < byteRank l) := by
  induction l generalizing l' with
  | nil =>
    have hnil : l' = [] := List.length_eq_zero_iff.mp hlen.symm
    subst hnil
    simp [memcmp]
  | cons a as ih =>
    cases l' with
    | nil => simp at hlen
    | cons b bs =>
      have hlen' : as.length = bs.length := by simpa using hlen
      obtain ⟨hneg, hzero, hpos⟩ := ih hlen'
      rw [memcmp]
      split
      · next hab =>
        have hlt := byteRank_lt_of_lt hlen' hab
        have hne : a ≠ b := fun heq => absurd (heq ▸ hab) (UInt8.lt_irrefl b)
        refine ⟨iff_of_true (by omega) hlt, iff_of_false (by omega) ?_,
          iff_of_false (by omega) (by omega)⟩
        exact fun heq => hne (List.cons.inj heq).1
      · next hab =>
        split
        · next hba =>
          have hlt := byteRank_lt_of_lt hlen'.symm hba
          have hne : a ≠ b := fun heq => absurd (heq ▸ hba) (UInt8.lt_irrefl b)
          refine ⟨iff_of_false (by omega) (by omega), iff_of_false (by omega) ?_,
            iff_of_true (by omega) hlt⟩
          exact fun heq => hne (List.cons.inj heq).1
        · next hba =>
          have heq : a = b := UInt8.le_antisymm (UInt8.not_lt.mp hba) (UInt8.not_lt.mp hab)
          subst heq
          rw [byteRank, byteRank, hlen']
          refine ⟨hneg.trans ?_, hzero.trans (by simp), hpos.trans ?_⟩ <;> omega

def FibKey.rank (k : FibKey) : Nat := k.vid.toNat * 256 ^ 6 + byteRank k.mac.toList

theorem FibKey.ext_toList {k k' : FibKey} (hv : k.vid = k'.vid)
    (hm : k.mac.toList = k'.mac.toList) : k = k' := by
  obtain ⟨v, m⟩ := k
  obtain ⟨v', m'⟩ := k'
  rw [FibKey.mk.injEq]
  exact ⟨hv, Vector.toList_inj.mp hm⟩

/-- **`keycmp`** compares the ranks, and keys of one rank are the same. -/
theorem keycmp_spec (k k' : FibKey) :
    (keycmp k k' < 0 ↔ k.rank < k'.rank) ∧ (keycmp k k' = 0 ↔ k = k') ∧
      (0 < keycmp k k' ↔ k'.rank < k.rank) := by
  have hlen : k.mac.toList.length = k'.mac.toList.length := by simp
  obtain ⟨hneg, hzero, hpos⟩ := memcmp_spec hlen
  have hlt : byteRank k.mac.toList < 256 ^ 6 := by
    have := byteRank_lt k.mac.toList
    simpa using this
  have hlt' : byteRank k'.mac.toList < 256 ^ 6 := by
    have := byteRank_lt k'.mac.toList
    simpa using this
  unfold keycmp FibKey.rank
  split
  · next hv =>
    have hvn : k.vid.toNat < k'.vid.toNat := UInt16.lt_iff_toNat_lt.mp hv
    have hne : k ≠ k' := fun heq => absurd (heq ▸ hv) (UInt16.lt_irrefl _)
    refine ⟨iff_of_true (by omega) (by omega), iff_of_false (by omega) hne,
      iff_of_false (by omega) (by omega)⟩
  · next hv =>
    split
    · next hv' =>
      have hvn : k'.vid.toNat < k.vid.toNat := UInt16.lt_iff_toNat_lt.mp hv'
      have hne : k ≠ k' := fun heq => absurd (heq ▸ hv') (UInt16.lt_irrefl _)
      refine ⟨iff_of_false (by omega) (by omega), iff_of_false (by omega) hne,
        iff_of_true (by omega) (by omega)⟩
    · next hv' =>
      have heq : k.vid = k'.vid := UInt16.le_antisymm (UInt16.not_lt.mp hv') (UInt16.not_lt.mp hv)
      rw [heq]
      refine ⟨hneg.trans (by omega), hzero.trans ⟨FibKey.ext_toList heq, ?_⟩,
        hpos.trans (by omega)⟩
      rintro rfl
      rfl

namespace Fib

/-- Node `a` comes before node `b`. -/
def KeyLt (s : Fib) (a b : Nat) : Prop := keycmp (s.mem a).key (s.mem b).key < 0

theorem isCut_keycmp (s : Fib) (k : FibKey) :
    Lib.Tree.IsCut s.KeyLt fun n => keycmp k (s.mem n).key := by
  intro a b hab ha
  have hlt := (keycmp_spec _ _).1.mp hab
  have hle : k.rank ≤ (s.mem a).key.rank := by
    by_contra hgt
    have hpos := (keycmp_spec k (s.mem a).key).2.2.mpr (by omega)
    exact absurd hpos (not_lt.mpr ha)
  exact (keycmp_spec _ _).1.mpr (by omega)

variable {s : Fib} {l : List Nat}

theorem keys_nodup (h : l.Pairwise s.KeyLt) : (l.map fun n => (s.mem n).key).Nodup := by
  rw [List.Nodup, List.pairwise_map]
  refine h.imp ?_
  intro a b hab heq
  have hlt := (keycmp_spec _ _).1.mp hab
  rw [heq] at hlt
  exact absurd hlt (lt_irrefl _)

theorem nodup_of_pairwise (h : l.Pairwise s.KeyLt) : l.Nodup :=
  (keys_nodup h).of_map _

/-! ## Free and used nodes -/

structure Layout (s : Fib) (free used : List Nat) : Prop where
  freeQ : IsQueue (nextOf s.mem) s.fibnHead s.fibnTail free
  perm : (free ++ used).Perm (List.range s.fibAllocSize)
  bound : s.fibAllocSize ≤ fibSizeMax

/-- The nodes carry in `t` what they carried in `s`. -/
structure Carries (s t : Fib) : Prop where
  key : ∀ a, (t.mem a).key = (s.mem a).key
  wfsid : ∀ a, (t.mem a).wfsid = (s.mem a).wfsid
  timeTag : ∀ a, (t.mem a).timeTag = (s.mem a).timeTag

theorem Carries.of_mem {t : Fib} (h : t.mem = s.mem) : Carries s t :=
  ⟨fun a => by rw [h], fun a => by rw [h], fun a => by rw [h]⟩

theorem Carries.trans {t u : Fib} (h : Carries s t) (h' : Carries t u) : Carries s u :=
  ⟨fun a => (h'.key a).trans (h.key a), fun a => (h'.wfsid a).trans (h.wfsid a),
    fun a => (h'.timeTag a).trans (h.timeTag a)⟩

theorem Carries.keyLt {t : Fib} (h : Carries s t) : t.KeyLt = s.KeyLt := by
  funext a b
  unfold KeyLt
  rw [h.key a, h.key b]

theorem nextOf_setNext (mem : Nat → FibNode) (n : Nat) (v : Option Nat) :
    nextOf (setNext mem n v) = Function.update (nextOf mem) n v := by
  funext a
  by_cases h : a = n
  · subst h; simp [nextOf, setNext]
  · simp [nextOf, setNext, Function.update_of_ne h]

theorem update_field {β : Type} (field : FibNode → β) {mem : Nat → FibNode} {n : Nat}
    {node : FibNode} (h : field node = field (mem n)) (a : Nat) :
    field (Function.update mem n node a) = field (mem a) := by
  by_cases ha : a = n
  · subst ha
    rw [Function.update_self]
    exact h
  · rw [Function.update_of_ne ha]

/-! ## Freeing -/

theorem fibnFree_eq (s : Fib) (n : Nat) :
    s.fibnFree n = { s with
      mem := (s.fibnFree n).mem
      fibnHead := pushHead s.fibnHead s.fibnTail n
      fibnTail := some n } := by
  unfold fibnFree pushHead
  cases s.fibnTail <;> rfl

theorem fibnFree_next (s : Fib) (n : Nat) :
    nextOf (s.fibnFree n).mem = pushNext (nextOf s.mem) s.fibnTail n := by
  unfold fibnFree pushNext
  cases s.fibnTail <;> simp [nextOf_setNext]

theorem fibnFree_field {β : Type} (field : FibNode → β)
    (h : ∀ (node : FibNode) v, field { node with nextFree := v } = field node) (s : Fib)
    (n a : Nat) : field ((s.fibnFree n).mem a) = field (s.mem a) := by
  unfold Fib.fibnFree setNext
  cases s.fibnTail with
  | none => exact update_field field (h _ _) a
  | some t => exact (update_field field (h _ _) a).trans (update_field field (h _ _) a)

theorem carries_fibnFree (s : Fib) (n : Nat) : Carries s (s.fibnFree n) :=
  ⟨fibnFree_field FibNode.key (fun _ _ => rfl) s n,
    fibnFree_field FibNode.wfsid (fun _ _ => rfl) s n,
    fibnFree_field FibNode.timeTag (fun _ _ => rfl) s n⟩

@[simp] theorem fibnFree_fibRoot (s : Fib) (n : Nat) : (s.fibnFree n).fibRoot = s.fibRoot := by
  rw [fibnFree_eq]

@[simp] theorem fibnFree_fibSize (s : Fib) (n : Nat) : (s.fibnFree n).fibSize = s.fibSize := by
  rw [fibnFree_eq]

def outside (s : Fib) : Bool × Nat := (s.fibTimer, s.fibAllocSize)

@[simp] theorem fibnFree_outside (s : Fib) (n : Nat) : (s.fibnFree n).outside = s.outside := by
  rw [fibnFree_eq]
  rfl

namespace Layout

variable {s : Fib} {free used : List Nat} {n : Nat}

theorem nodup (h : Layout s free used) : (free ++ used).Nodup :=
  h.perm.nodup_iff.mpr List.nodup_range

theorem not_free (h : Layout s free used) {a : Nat} (ha : a ∈ used) : a ∉ free := by
  have hnd := h.nodup
  rw [List.nodup_append] at hnd
  exact fun hf => hnd.2.2 a hf a ha rfl

theorem length_eq (h : Layout s free used) : free.length + used.length = s.fibAllocSize := by
  have := h.perm.length_eq
  rwa [List.length_append, List.length_range] at this

theorem perm_used (h : Layout s free used) {used' : List Nat} (hp : used.Perm used') :
    Layout s free used' :=
  ⟨h.freeQ, (hp.append_left free).symm.trans h.perm, h.bound⟩

/-- **`fibn_free`** moves a node to the end of the free list. -/
theorem fibnFree (h : Layout s free (n :: used)) : Layout (s.fibnFree n) (free ++ [n]) used := by
  have hn : n ∉ free := h.not_free List.mem_cons_self
  rw [fibnFree_eq]
  refine ⟨?_, ?_, h.bound⟩
  · show IsQueue (nextOf (s.fibnFree n).mem) _ _ _
    rw [fibnFree_next]
    exact h.freeQ.push hn
  · rw [List.append_assoc, List.singleton_append]
    exact h.perm

theorem setNode (h : Layout s free used) {node : FibNode}
    (hnext : node.nextFree = (s.mem n).nextFree) : Layout (s.setNode n node) free used := by
  refine ⟨?_, h.perm, h.bound⟩
  have hsame : nextOf (s.setNode n node).mem = nextOf s.mem := by
    funext a
    by_cases ha : a = n
    · subst ha
      simp [nextOf, Fib.setNode, hnext]
    · simp [nextOf, Fib.setNode, Function.update_of_ne ha]
  rw [hsame]
  exact h.freeQ

theorem congr (h : Layout s free used) {t : Fib} (hmem : t.mem = s.mem)
    (hhead : t.fibnHead = s.fibnHead) (htail : t.fibnTail = s.fibnTail)
    (hsize : t.fibAllocSize = s.fibAllocSize) : Layout t free used := by
  refine ⟨?_, ?_, ?_⟩
  · rw [hmem, hhead, htail]
    exact h.freeQ
  · rw [hsize]
    exact h.perm
  · rw [hsize]
    exact h.bound

/-! ## Allocating -/

/-- **`fibn_alloc`** hands out a node that was free or is new. -/
theorem alloc (h : Layout s free used) {kmalloc : Bool} {t : Fib}
    (ha : s.fibnAlloc kmalloc = some (n, t)) :
    Carries s t ∧ t.fibRoot = s.fibRoot ∧ t.fibSize = s.fibSize ∧
      ∃ free', Layout t free' (n :: used) := by
  unfold fibnAlloc at ha
  split at ha
  · next m hhead =>
    simp only [Option.some.injEq, Prod.mk.injEq] at ha
    obtain ⟨rfl, rfl⟩ := ha
    refine ⟨.of_mem rfl, rfl, rfl, ?_⟩
    cases free with
    | nil =>
      have hnone := h.freeQ.head_eq
      rw [hhead] at hnone
      exact nomatch hnone
    | cons a free' =>
      have hma : m = a := Option.some.inj (hhead.symm.trans h.freeQ.chain.1)
      subst hma
      refine ⟨free', h.freeQ.pop, ?_, h.bound⟩
      exact List.perm_middle.trans h.perm
  · next hhead =>
    split at ha
    · split at ha
      · obtain ⟨rfl, rfl⟩ := ha
        have hnil : free = [] := h.freeQ.head_eq_none_iff.mp hhead
        subst hnil
        have htail : s.fibnTail = none := h.freeQ.tail_eq_none_iff.mpr rfl
        refine ⟨⟨?_, ?_, ?_⟩, rfl, rfl, [], ?_, ?_, ?_⟩
        · exact update_field FibNode.key rfl
        · exact update_field FibNode.wfsid rfl
        · exact update_field FibNode.timeTag rfl
        · rw [hhead, htail]
          exact .nil _
        · -- the new node gets the next number
          show ([] ++ s.fibAllocSize :: used).Perm (List.range (s.fibAllocSize + 1))
          rw [List.range_succ, List.nil_append]
          exact (h.perm.cons _).trans (List.perm_append_singleton _ _).symm
        · show s.fibAllocSize + 1 ≤ fibSizeMax
          omega
      · exact nomatch ha
    · exact nomatch ha

theorem alloc_isSome (h : Layout s free used) (hlt : used.length < fibSizeMax) :
    ∃ r, s.fibnAlloc true = some r := by
  unfold fibnAlloc
  cases hhead : s.fibnHead with
  | some n => exact ⟨_, rfl⟩
  | none =>
    have hnil : free = [] := h.freeQ.head_eq_none_iff.mp hhead
    have hlen := h.length_eq
    rw [hnil, List.length_nil] at hlen
    have hsize : s.fibAllocSize < fibSizeMax := by omega
    exact ⟨_, by simp only [if_pos hsize, if_true]; rfl⟩

end Layout

end Fib

end VmkDrivers.Wfs
