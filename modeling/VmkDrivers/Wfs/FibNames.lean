/-
  VmkDrivers.Wfs.FibNames

  The stations the forwarding table names.

  A call names at most the station it was given; `ixgbe_wfs_fib_delete_wfsid`
  leaves no entry of its station.  Trimming only drops entries, so both hold
  of a full table too.
-/

import VmkDrivers.Wfs.FibFull
import VmkDrivers.Wfs.FibMap

namespace VmkDrivers.Wfs

open VmkDrivers.Lib Fib

namespace Fib

/-- Some entry of the table has the station id `w`. -/
def Names (s : Fib) (w : UInt8) : Prop := ∃ n ∈ s.fibRoot.inorder, (s.mem n).wfsid = w

instance (s : Fib) (w : UInt8) : Decidable (s.Names w) :=
  inferInstanceAs (Decidable (∃ n ∈ s.fibRoot.inorder, (s.mem n).wfsid = w))

variable {s t u : Fib} {w : UInt8}

theorem names_iff (h : FibOk s) : s.Names w ↔ ∃ k, s.content k = some w := by
  constructor
  · rintro ⟨n, hmem, hw⟩
    exact ⟨(s.mem n).key, (tableOf_eq_some_iff h.keys_nodup).mpr ⟨n, hmem, rfl, hw⟩⟩
  · rintro ⟨k, hk⟩
    obtain ⟨n, hmem, -, hw⟩ := (tableOf_eq_some_iff h.keys_nodup).mp hk
    exact ⟨n, hmem, hw⟩

/-! ## Trimming -/

/-- The nodes of `t` are nodes of `s`, with what they carry. -/
structure Trimmed (s t : Fib) : Prop where
  carries : Carries s t
  nodes : ∀ n ∈ t.fibRoot.inorder, n ∈ s.fibRoot.inorder

theorem Trimmed.trans (h : Trimmed s t) (h' : Trimmed t u) : Trimmed s u :=
  ⟨h.carries.trans h'.carries, fun n hn => h.nodes n (h'.nodes n hn)⟩

theorem Trimmed.content (h : Trimmed s t) (hs : FibOk s) (ht : FibOk t) {k : FibKey}
    (hk : t.content k = some w) : s.content k = some w := by
  obtain ⟨n, hmem, hkey, hw⟩ := (tableOf_eq_some_iff ht.keys_nodup).mp hk
  refine (tableOf_eq_some_iff hs.keys_nodup).mpr ⟨n, h.nodes n hmem, ?_, ?_⟩
  · rw [← hkey, h.carries.key]
  · rw [← hw, h.carries.wfsid]

theorem trimDone_trimmed (h : trimDone s = .ok t) : Trimmed s t := by
  unfold trimDone at h
  split at h
  · cases h
  · cases h
    exact ⟨.of_mem rfl, fun n hn => hn⟩

variable (rb : Balancer Nat)

theorem trimLoop_trimmed {i : Nat} {root root' : Lib.Tree Nat} (hnd : root.inorder.Nodup)
    (h : trimLoop rb i s root = .ok (t, root')) :
    Carries s t ∧ ∀ n ∈ root'.inorder, n ∈ root.inorder := by
  induction i generalizing s root with
  | zero =>
    cases h
    exact ⟨.of_mem rfl, fun n hn => hn⟩
  | succ i ih =>
    rw [trimLoop] at h
    split at h
    · cases h
    · next n hlast =>
      rw [Lib.Tree.last_eq] at hlast
      have hmem := List.mem_of_getLast? hlast
      have herase := rb.erase_inorder n root hmem hnd
      obtain ⟨hcarry, hnodes⟩ := ih (by rw [herase]; exact hnd.erase n) h
      have hfree : Carries s { s.fibnFree n with fibSize := s.fibSize - 1 } :=
        (carries_fibnFree s n).trans (.of_mem rfl)
      refine ⟨hfree.trans hcarry, fun m hm => ?_⟩
      have hm' := hnodes m hm
      rw [herase] at hm'
      exact List.mem_of_mem_erase hm'

theorem myTrimTree_trimmed (hs : FibOk s) (h : myTrimTree rb s = .ok t) : Trimmed s t := by
  unfold myTrimTree at h
  split at h
  · exact trimDone_trimmed h
  · have hdrop : ∀ a b : FibNode, a.wfsid = b.wfsid → a.timeTag = b.timeTag →
        decide (a.timeTag ≠ s.currentTimeTag) = decide (b.timeTag ≠ s.currentTimeTag) := by
      intro a b _ hab
      rw [hab]
    obtain ⟨s₁, root, hrun, hcarry, -, hok, hroot⟩ := rebuild_spec rb hdrop hs
    have hsub : ∀ n ∈ root.inorder, n ∈ s.fibRoot.inorder := by
      intro n hn
      rw [hroot] at hn
      exact (List.mem_filter.mp hn).1
    simp only [hrun, bind, Except.bind] at h
    split at h
    · cases htrim : trimLoop rb (fibSizeMax - fibSizeMin) s₁ root with
      | error f =>
        rw [htrim] at h
        cases h
      | ok r =>
        rw [htrim] at h
        obtain ⟨hcarry', hnodes⟩ := trimLoop_trimmed rb (nodup_of_pairwise hok.sorted) htrim
        have hsub' : Trimmed s { r.1 with fibRoot := r.2 } :=
          ⟨hcarry.trans (hcarry'.trans (.of_mem rfl)), fun n hn => hsub n (hnodes n hn)⟩
        exact hsub'.trans (trimDone_trimmed h)
    · have hsub' : Trimmed s { s₁ with fibRoot := root } := ⟨hcarry.trans (.of_mem rfl), hsub⟩
      exact hsub'.trans (trimDone_trimmed h)

theorem allocOrTrim_content {n : Nat} {k k' : Bool} (hs : FibOk s)
    (h : allocOrTrim rb s k k' = .ok (n, t)) {key : FibKey} (hkey : t.content key = some w) :
    s.content key = some w := by
  have halloc {s₁ : Fib} {b : Bool} (hok : FibOk s₁) (ha : s₁.fibnAlloc b = some (n, t)) :
      t.content = s₁.content := by
    obtain ⟨free, hlay⟩ := hok.layout
    obtain ⟨hcarry, hroot, -⟩ := hlay.alloc ha
    exact hcarry.content_eq hroot
  unfold allocOrTrim at h
  split at h
  · next r hr =>
    cases h
    rwa [halloc hs hr] at hkey
  · cases htimer : s.fibTimer with
    | true =>
      rw [myTrimTree_armed rb hs htimer] at h
      cases h
    | false =>
      obtain ⟨s₁, htrim, hok, -⟩ := myTrimTree_spec rb hs htimer
      simp only [htrim, bind, Except.bind] at h
      split at h
      · next r hr =>
        cases h
        rw [halloc hok hr] at hkey
        exact (myTrimTree_trimmed rb hs htrim).content hs hok hkey
      · cases h

end Fib

/-! ## Calls -/

/-- The call enters the station `w`. -/
def FibOp.Enters (w : UInt8) : FibOp → Prop
  | .update _ _ _ _ _ _ wfsid => wfsid = w
  | _ => False

variable {rb : Balancer Nat} {s t : Fib} {w : UInt8} {k : FibKey}

open FibOp

theorem content_of_step {op : FibOp} (hs : Fib.FibOk s) (hstep : FibStep rb s op t)
    (hk : t.content k = some w) :
    op.Enters w ∨ (∃ k, s.content k = some w) ∧ op ≠ .deleteWfsid w := by
  obtain ⟨res, hstep⟩ := hstep
  cases op with
  | update key kmalloc kmalloc' vid mac ip wfsid =>
    -- an update enters its own id and leaves those of the other keys
    have hset {m : FibMap} {k' : FibKey} (hm : ∀ key, m key = some w → s.content key = some w)
        (h : Function.update m k' (some wfsid) k = some w) :
        wfsid = w ∨ (∃ k, s.content k = some w) := by
      rcases eq_or_ne k k' with rfl | hne
      · rw [Function.update_self] at h
        exact .inl (Option.some.inj h)
      · rw [Function.update_of_ne hne] at h
        exact .inr ⟨k, hm k h⟩
    refine Or.imp_right (fun h => ⟨h, FibOp.noConfusion⟩) ?_
    by_cases hw : Fib.ValidWfsid wfsid
    · cases hn : s.mySearch key s.fibRoot (vid &&& 0xfff) mac with
      | some n =>
        obtain ⟨u, hu, -, hcontent⟩ := update_of_found rb hs kmalloc kmalloc' ip hw hn
        rw [step, hu] at hstep
        cases hstep
        exact hset (fun _ h => h) (hcontent ▸ hk)
      | none =>
        rcases allocOrTrim_spec rb hs kmalloc kmalloc' with
          ⟨-, n, s₁, halloc, hheld⟩ | ⟨-, f, -, halloc⟩
        · obtain ⟨u, hu, -, hcontent⟩ := update_of_alloc rb ip hw hn halloc hheld
          rw [step, hu] at hstep
          cases hstep
          exact hset (fun _ => allocOrTrim_content rb hs halloc) (hcontent ▸ hk)
        · rw [step, ixgbeWfsFibUpdate, if_neg hw, hn] at hstep
          simp only [halloc, bind, Except.bind] at hstep
          cases hstep
    · rw [step, ixgbeWfsFibUpdate, if_pos (not_not.mp hw)] at hstep
      cases hstep
  | lookup key vid mac =>
    cases hstep
    exact .inr ⟨⟨k, hk⟩, FibOp.noConfusion⟩
  | delete key vid mac =>
    cases hstep
    rw [(delete_spec rb hs key vid mac).2] at hk
    refine .inr ⟨⟨k, ?_⟩, FibOp.noConfusion⟩
    rcases eq_or_ne k key with rfl | hne
    · rw [Function.update_self] at hk
      cases hk
    · rwa [Function.update_of_ne hne] at hk
  | deleteWfsid wfsid =>
    by_cases hw : Fib.ValidWfsid wfsid
    · obtain ⟨u, hu, -, hcontent⟩ := deleteWfsid_spec rb hs hw
      rw [step, hu] at hstep
      cases hstep
      rw [hcontent] at hk
      dsimp only at hk
      split at hk
      · cases hk
      · next hne =>
        refine .inr ⟨⟨k, hk⟩, fun heq => hne ?_⟩
        cases heq
        exact hk
    · rw [step, ixgbeWfsFibDeleteWfsid, if_pos (not_not.mp hw)] at hstep
      cases hstep
  | timer =>
    obtain ⟨free, hlay⟩ := hs.layout
    have hfired : Fib.FibOk { s with fibTimer := false } :=
      ⟨⟨free, hlay.congr rfl rfl rfl rfl⟩, hs.sorted, hs.size⟩
    obtain ⟨u, hu, hok, -⟩ := myTrimTree_spec rb hfired rfl
    rw [step, timerAction, hu] at hstep
    cases hstep
    exact .inr ⟨⟨k, (myTrimTree_trimmed rb hfired hu).content hfired hok hk⟩, FibOp.noConfusion⟩

/-- **Names.** A station the table names was entered by the call, or it was named before and
    the call did not remove it. -/
theorem names_of_step {op : FibOp} (hs : Fib.FibOk s) (hstep : FibStep rb s op t)
    (h : t.Names w) : op.Enters w ∨ s.Names w ∧ op ≠ .deleteWfsid w := by
  obtain ⟨k, hk⟩ := (names_iff (hs.of_step rb hstep)).mp h
  exact (content_of_step hs hstep hk).imp_right fun h => ⟨(names_iff hs).mpr h.1, h.2⟩

theorem names_of_update {key : FibKey} {k k' : Bool} {vid : UInt16} {mac : Mac} {ip : UInt32}
    (hs : Fib.FibOk s) (hstep : FibStep rb s (.update key k k' vid mac ip w) t) : t.Names w := by
  rw [names_iff (hs.of_step rb hstep)]
  obtain ⟨res, hstep⟩ := hstep
  by_cases hw : Fib.ValidWfsid w
  · cases hn : s.mySearch key s.fibRoot (vid &&& 0xfff) mac with
    | some n =>
      obtain ⟨u, hu, -, hcontent⟩ := update_of_found rb hs k k' ip hw hn
      rw [step, hu] at hstep
      cases hstep
      exact ⟨key, by rw [hcontent, Function.update_self]⟩
    | none =>
      rcases allocOrTrim_spec rb hs k k' with ⟨-, n, s₁, halloc, hheld⟩ | ⟨-, f, -, halloc⟩
      · obtain ⟨u, hu, -, hcontent⟩ := update_of_alloc rb ip hw hn halloc hheld
        rw [step, hu] at hstep
        cases hstep
        exact ⟨_, by rw [hcontent, Function.update_self]⟩
      · rw [step, ixgbeWfsFibUpdate, if_neg hw, hn] at hstep
        simp only [halloc, bind, Except.bind] at hstep
        cases hstep
  · rw [step, ixgbeWfsFibUpdate, if_pos (not_not.mp hw)] at hstep
    cases hstep

/-! ## Reachable tables -/

theorem validWfsid_iff : Fib.ValidWfsid w ↔ ∃ id, WfsId.byte id = w := by
  unfold Fib.ValidWfsid
  rw [not_or, UInt8.not_lt, gt_iff_lt, UInt8.not_lt]
  constructor
  · intro hrange
    exact ⟨_, WfsId.ofByte?_eq_some_iff.mp (dif_pos hrange)⟩
  · rintro ⟨id, rfl⟩
    revert id
    decide

theorem station_of_run {kmalloc : Nat → Bool} {ops : List FibOp}
    (hinit : (ixgbeWfsFibInit kmalloc).2 = true)
    (hrun : Run (FibStep rb) (ixgbeWfsFibInit kmalloc).1 ops t) (hk : t.content k = some w) :
    ∃ id, WfsId.byte id = w := by
  obtain ⟨hinv, hempty⟩ := Fib.Inv.of_init kmalloc hinit ∅
  have hrun' := hrun.invariant
    (I := fun s => Fib.FibOk s ∧ ∀ k w, s.content k = some w → ∃ id, WfsId.byte id = w) ?_
    ⟨hinv.ok, fun k w h => by rw [hempty] at h; cases h⟩
  · exact hrun'.2 k w hk
  · rintro s op u ⟨hok, hstations⟩ hstep
    refine ⟨hok.of_step rb hstep, fun k w hkw => ?_⟩
    rcases content_of_step hok hstep hkw with henters | ⟨⟨k', hbefore⟩, -⟩
    · obtain ⟨res, hres⟩ := hstep
      have hvalid := validId_of_step rb hres
      cases op with
      | update key k₁ k₂ vid mac ip wfsid =>
        obtain rfl : wfsid = w := henters
        exact validWfsid_iff.mp hvalid
      | lookup key vid mac => exact henters.elim
      | delete key vid mac => exact henters.elim
      | deleteWfsid wfsid => exact henters.elim
      | timer => exact henters.elim
    · exact hstations k' w hbefore

end VmkDrivers.Wfs
