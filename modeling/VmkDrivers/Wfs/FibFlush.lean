/-
  VmkDrivers.Wfs.FibFlush

  Flushing a station: what `ixgbe_wfs_fib_delete_wfsid` does to the nodes.

  The function takes the nodes out of the tree from its right end and inserts
  those of other stations into a second one.  The nodes that go into the
  second tree come before the ones in it, so the insertion links them and
  never merges, whatever the order of the tree (`rebuildLoop_spec`).
-/

import VmkDrivers.Wfs.FibRefine

namespace VmkDrivers.Wfs

open VmkDrivers.Lib

namespace Fib

/-- The table `t` is `s` without the entries of the station `w`, whose nodes have gone to the
    end of the free list `free`. -/
structure Flushed (s t : Fib) (w : UInt8) (free : List Nat) : Prop where
  /-- The entries left, in key order. -/
  entries : t.fibRoot.inorder = s.fibRoot.inorder.filter fun n => (s.mem n).wfsid ≠ w
  sorted : t.fibRoot.inorder.Pairwise t.KeyLt
  key : ∀ n, (t.mem n).key = (s.mem n).key
  ip : ∀ n, (t.mem n).ip = (s.mem n).ip
  wfsid : ∀ n, (t.mem n).wfsid = (s.mem n).wfsid
  timeTag : ∀ n, (t.mem n).timeTag = (s.mem n).timeTag
  freed : IsQueue (nextOf t.mem) t.fibnHead t.fibnTail
    (free ++ (s.fibRoot.inorder.filter fun n => (s.mem n).wfsid = w).reverse)
  size : t.fibSize = t.fibRoot.inorder.length

/-- **Flushing a station removes exactly its entries**, from every ordered tree whose nodes
    are not free, as those of every table in order are (`FibOk.layout`). -/
theorem flush_exact (rb : Balancer Nat) {s : Fib} {free : List Nat}
    (hsorted : s.fibRoot.inorder.Pairwise s.KeyLt)
    (hqueue : IsQueue (nextOf s.mem) s.fibnHead s.fibnTail free)
    (hused : ∀ n ∈ s.fibRoot.inorder, n ∉ free) {w : UInt8} (hw : ValidWfsid w) :
    ∃ t, s.ixgbeWfsFibDeleteWfsid rb w = .ok t ∧ Flushed s t w free := by
  have hdrop : ∀ a b : FibNode, a.wfsid = b.wfsid → a.timeTag = b.timeTag →
      decide (a.wfsid = w) = decide (b.wfsid = w) := by
    intro a b hab _
    rw [hab]
  have hnil : (Lib.Tree.nil : Lib.Tree Nat).inorder = [] := rfl
  have hsorted₀ : (s.fibRoot.inorder ++ (Lib.Tree.nil : Lib.Tree Nat).inorder).Pairwise
      s.KeyLt := by
    rw [hnil, List.append_nil]
    exact hsorted
  obtain ⟨t, root, hrun, hpay, -, hfreed, hroot, hsize⟩ :=
    rebuildLoop_spec rb (s := { s with fibSize := 0 }) hdrop le_rfl hqueue hused hsorted₀
  have hcarry : Carries s t := carries_of_payload hpay
  have hkeep : (fun n => !decide ((s.mem n).wfsid = w)) =
      fun n => decide ((s.mem n).wfsid ≠ w) := by
    funext n
    rw [decide_not]
  rw [hnil, List.append_nil, hkeep] at hroot
  rw [hkeep] at hsize
  refine ⟨{ t with fibRoot := root }, ?_, ?_⟩
  · have hrebuild : rebuild rb (fun n => decide (n.wfsid = w)) s = .ok (t, root) := hrun
    unfold ixgbeWfsFibDeleteWfsid
    rw [if_neg hw, hrebuild]
    rfl
  · exact
      { entries := hroot
        sorted := by
          change root.inorder.Pairwise t.KeyLt
          rw [hcarry.keyLt, hroot]
          exact hsorted.sublist List.filter_sublist
        key := hcarry.key
        ip := by
          intro n
          change (payload (t.mem n)).ip = (payload (s.mem n)).ip
          rw [hpay n]
        wfsid := hcarry.wfsid
        timeTag := hcarry.timeTag
        freed := hfreed
        size := by
          rw [hsize, hroot]
          change (0 : Int) + _ = _
          omega }

def threeEntries : Fib :=
  { mem := fun n =>
      { key := ⟨UInt16.ofNat n, Vector.replicate 6 0⟩, ip := 10, timeTag := 7
        wfsid := if n = 1 then 2 else 1 }
    fibRoot := .spine [0, 1, 2], fibnHead := some 3, fibnTail := some 3
    fibAllocSize := 4, fibSize := 3 }

theorem flush_exact_threeEntries :
    ∃ t, threeEntries.ixgbeWfsFibDeleteWfsid .plain 1 = .ok t ∧ Flushed threeEntries t 1 [3] := by
  apply flush_exact .plain
  · change [0, 1, 2].Pairwise fun a b =>
      keycmp (threeEntries.mem a).key (threeEntries.mem b).key < 0
    decide
  · exact ⟨⟨rfl, rfl⟩, rfl, by decide⟩
  · decide
  · decide

end Fib

end VmkDrivers.Wfs
