/-
  VmkDrivers.Wfs.FibTimer

  The ageing timer of the forwarding table (`ixgbe_wfs_fib.c`), from
  `ixgbe_wfs_fib_init` to `ixgbe_wfs_fib_cleanup`.

  An expiry of the timer is pending, or its callback has begun and waits for
  `fib_lock`; a call that holds the lock may come in between.  The callback
  arms the timer again at its end, in `my_trim_tree`.  An update for which
  there is no node gets there as well, while the expiry is still to come, so
  there is one expiry all along exactly if every update finds a node
  (`fib_timer_armed_once_iff`).
-/

import VmkDrivers.Lib.ExceptLoop
import VmkDrivers.Wfs.FibMap
import VmkDrivers.Wfs.FibNodes

namespace VmkDrivers.Wfs

open VmkDrivers.Lib Fib

/-! ## Expiries and calls -/

structure TimedFib where
  fib : Fib
  /-- Callbacks that have begun and wait for `fib_lock`. -/
  fired : Nat := 0
  /-- `ixgbe_wfs_fib_cleanup` has returned. -/
  cleaned : Bool := false

/-- What happens between `ixgbe_wfs_fib_init` and the end. -/
inductive TimedOp where
  /-- A call of the interface, under `fib_lock`. -/
  | call (op : FibOp)
  /-- The timer expires. -/
  | expire
  /-- `timer_action` gets `fib_lock`. -/
  | callback
  | cleanup

namespace TimedFib

variable (rb : Balancer Nat)

/-- `timer_action`, once it has `fib_lock`. -/
def callback (s : TimedFib) : Except Fault TimedFib := do
  let fib ← s.fib.myTrimTree rb
  return { s with fib, fired := s.fired - 1 }

/-- `del_timer_sync` removes the expiry if it is pending; otherwise it waits for a callback that
    has begun, and tries again as that has armed the timer anew. -/
def delTimerSync (s : TimedFib) : Except Fault TimedFib :=
  if s.fib.fibTimer then .ok { s with fib := { s.fib with fibTimer := false } }
  else if s.fired = 0 then .ok s
  else do
    let s ← s.callback rb
    return { s with fib := { s.fib with fibTimer := false } }

/-- `ixgbe_wfs_fib_cleanup`.  The nodes are freed and not looked at any more. -/
def ixgbeWfsFibCleanup (s : TimedFib) : Except Fault TimedFib := do
  let s ← s.delTimerSync rb
  return { s with cleaned := true }

/-- When something can happen.  A callback without nodes would do anything. -/
def Enabled (s : TimedFib) : TimedOp → Prop
  | .call op => s.cleaned = false ∧ op ≠ .timer
  | .expire => s.fib.fibTimer = true
  | .callback => s.cleaned = false ∧ 0 < s.fired
  | .cleanup => s.cleaned = false

def exec (s : TimedFib) : TimedOp → Except Fault TimedFib
  | .call op => do
    let (fib, _) ← op.step rb s.fib
    return { s with fib }
  | .expire => .ok { s with fib := { s.fib with fibTimer := false }, fired := s.fired + 1 }
  | .callback => s.callback rb
  | .cleanup => s.ixgbeWfsFibCleanup rb

def scheduled (s : TimedFib) : Nat := s.fired + if s.fib.fibTimer then 1 else 0

/-- The table and its timer after `ixgbe_wfs_fib_init`. -/
def initial (kmalloc : Nat → Bool) : TimedFib := { fib := (ixgbeWfsFibInit kmalloc).1 }

end TimedFib

def TimedStep (rb : Balancer Nat) :
    Except Fault TimedFib → TimedOp → Except Fault TimedFib → Prop
  | .ok s, op, r => s.Enabled op ∧ r = s.exec rb op
  | .error _, _, _ => False

theorem TimedStep.unique {rb : Balancer Nat} {r t t' : Except Fault TimedFib} {op : TimedOp}
    (h : TimedStep rb r op t) (h' : TimedStep rb r op t') : t = t' := by
  cases r with
  | error f => exact h.elim
  | ok s => exact h.2.trans h'.2.symm

/-! ## What is promised -/

/-- One expiry is scheduled until the cleanup and none afterwards.  The only crash there is comes
    from a call for no station. -/
def ArmedOnce : Except Fault TimedFib → Prop
  | .ok s => s.scheduled = if s.cleaned then 0 else 1
  | .error f => f = .bugOn .fibWfsid

/-- An update for a station finds the leftover key in the table, or a node for a new one. -/
def UpdateFindsNode : Except Fault TimedFib → TimedOp → Prop
  | .ok s, .call (.update key kmalloc _ _ _ _ wfsid) =>
    Fib.ValidWfsid wfsid → s.fib.content key ≠ none ∨ s.fib.HasNode kmalloc
  | _, _ => True

/-! ## The timer in the calls -/

namespace Fib

variable (rb : Balancer Nat) {s t : Fib} {k : Bool} {key : FibKey} {wfsid : UInt8}

theorem fibnFree_timer (s : Fib) (n : Nat) : (s.fibnFree n).fibTimer = s.fibTimer :=
  congrArg Prod.fst (fibnFree_outside s n)

theorem fibnAlloc_timer {n : Nat} (h : s.fibnAlloc k = some (n, t)) : t.fibTimer = s.fibTimer := by
  unfold fibnAlloc at h
  split at h
  · obtain ⟨-, rfl⟩ := Prod.mk.inj (Option.some.inj h)
    rfl
  · split_ifs at h
    obtain ⟨-, rfl⟩ := Prod.mk.inj (Option.some.inj h)
    rfl

theorem myInsert_timer (s : Fib) (root : Lib.Tree Nat) (n : Nat) :
    (myInsert rb s root n).1.fibTimer = s.fibTimer := by
  unfold myInsert
  split
  · split <;> rfl
  · rfl

theorem myTrimTree_arms (h : myTrimTree rb s = .ok t) : t.fibTimer = true := by
  have hdone {u : Fib} (hu : trimDone u = .ok t) : t.fibTimer = true := by
    unfold trimDone at hu
    split at hu
    · cases hu
    · cases hu
      rfl
  unfold myTrimTree at h
  split at h
  · exact hdone h
  · obtain ⟨⟨u, root⟩, -, h⟩ := bind_eq_ok.mp h
    dsimp only at h
    split at h
    · obtain ⟨r, -, h⟩ := bind_eq_ok.mp h
      exact hdone h
    · exact hdone h

theorem update_timer {k' : Bool} {vid : UInt16} {mac : Mac} {ip : UInt32} (h : FibOk s)
    (hupdate : s.ixgbeWfsFibUpdate rb key k k' vid mac ip wfsid = .ok t) :
    (s.content key ≠ none ∨ s.HasNode k → t.fibTimer = s.fibTimer) ∧
      (¬(s.content key ≠ none ∨ s.HasNode k) → t.fibTimer = true) := by
  unfold ixgbeWfsFibUpdate at hupdate
  split at hupdate
  · cases hupdate
  · cases hn : s.mySearch key s.fibRoot (vid &&& 0xfff) mac with
    | some n =>
      rw [hn] at hupdate
      cases hupdate
      refine ⟨fun _ => rfl, fun hno => absurd (.inl ?_) hno⟩
      rw [(mySearch_some h hn).2.2]
      exact Option.some_ne_none _
    | none =>
      rw [hn] at hupdate
      obtain ⟨⟨n, u⟩, halloc, hupdate⟩ := bind_eq_ok.mp hupdate
      have hafter : t.fibTimer = u.fibTimer := by
        dsimp only at hupdate
        split at hupdate
        · cases hupdate
          exact (fibnFree_timer _ n).trans (myInsert_timer rb _ _ n)
        · cases hupdate
          exact myInsert_timer rb _ _ n
      have hmiss := mySearch_none h hn
      rw [hafter]
      unfold allocOrTrim at halloc
      split at halloc
      · next r hr =>
        cases halloc
        refine ⟨fun _ => fibnAlloc_timer hr, fun hno => absurd (.inr ?_) hno⟩
        exact (hasNode_iff k).mpr ⟨_, hr⟩
      · next hnone =>
        obtain ⟨v, htrim, halloc⟩ := bind_eq_ok.mp halloc
        refine ⟨fun hfinds => ?_, fun _ => ?_⟩
        · obtain ⟨r, hr⟩ := (hasNode_iff k).mp (hfinds.resolve_left fun hne => hne hmiss)
          rw [hr] at hnone
          cases hnone
        · split at halloc
          · next r hr =>
            cases halloc
            exact (fibnAlloc_timer hr).trans (myTrimTree_arms rb htrim)
          · cases halloc

theorem allocOrTrim_fault {k' : Bool} {f : Fault} (h : FibOk s)
    (halloc : allocOrTrim rb s k k' = .error f) : f = .bugOn .timerPending ∨ f = .nullDeref := by
  unfold allocOrTrim at halloc
  split at halloc
  · cases halloc
  · cases htimer : s.fibTimer with
    | true =>
      rw [myTrimTree_armed rb h htimer] at halloc
      exact .inl (Except.error.inj halloc).symm
    | false =>
      obtain ⟨t, htrim, -, -⟩ := myTrimTree_spec rb h htimer
      rw [htrim] at halloc
      dsimp only [bind, Except.bind] at halloc
      split at halloc
      · cases halloc
      · exact .inr (Except.error.inj halloc).symm

theorem update_fault {k' : Bool} {vid : UInt16} {mac : Mac} {ip : UInt32} {f : Fault} (h : FibOk s)
    (hw : ValidWfsid wfsid)
    (hupdate : s.ixgbeWfsFibUpdate rb key k k' vid mac ip wfsid = .error f) :
    f = .bugOn .timerPending ∨ f = .nullDeref := by
  rw [ixgbeWfsFibUpdate, if_neg hw] at hupdate
  split at hupdate
  · cases hupdate
  · cases halloc : allocOrTrim rb s k k' with
    | error f' =>
      rw [halloc] at hupdate
      obtain rfl := Except.error.inj hupdate
      exact allocOrTrim_fault rb h halloc
    | ok r =>
      rw [halloc] at hupdate
      dsimp only [bind, Except.bind] at hupdate
      split at hupdate <;> cases hupdate

theorem Holding.le_length (h : FibOk s) {keys : Finset FibKey}
    (hkeys : ∀ k ∈ keys, s.content k ≠ none) : keys.card ≤ s.fibRoot.inorder.length := by
  rw [← List.length_map (f := fun n => (s.mem n).key), ← List.toFinset_card_of_nodup h.keys_nodup]
  apply Finset.card_le_card
  intro k hk
  obtain ⟨n, hn, hkey⟩ : ∃ n ∈ s.fibRoot.inorder, (s.mem n).key = k := by
    have hne := hkeys k hk
    contrapose! hne
    exact tableOf_eq_none_iff.mpr hne
  exact List.mem_toFinset.mpr (List.mem_map.mpr ⟨n, hn, hkey⟩)

theorem update_of_node (h : FibOk s) (hw : ValidWfsid wfsid)
    (hnode : s.content key ≠ none ∨ s.HasNode k) (k' : Bool) (vid : UInt16) (mac : Mac)
    (ip : UInt32) :
    ∃ t, s.ixgbeWfsFibUpdate rb key k k' vid mac ip wfsid = .ok t ∧ FibOk t ∧
      t.fibTimer = s.fibTimer := by
  rcases update_takes rb h key k k' vid mac ip wfsid with ⟨-, t, ht, hok⟩ | ⟨hno, -⟩
  · exact ⟨t, ht, hok, (update_timer rb h ht).1 hnode⟩
  · exact absurd ⟨hw, hnode.imp_right .inl⟩ hno

theorem call_timer {op : FibOp} (h : FibOk s) (htimer : op ≠ .timer)
    (hop : ∀ key k k' vid mac ip wfsid, op ≠ .update key k k' vid mac ip wfsid) :
    (∃ t res, op.step rb s = .ok (t, res) ∧ FibOk t ∧ t.fibTimer = s.fibTimer) ∨
      op.step rb s = .error (.bugOn .fibWfsid) := by
  cases op with
  | update key k k' vid mac ip wfsid => exact absurd rfl (hop key k k' vid mac ip wfsid)
  | lookup key vid mac => exact .inl ⟨s, _, rfl, h, rfl⟩
  | delete key vid mac =>
    refine .inl ⟨_, _, rfl, (delete_spec rb h key vid mac).1, ?_⟩
    unfold ixgbeWfsFibDelete
    split
    · exact fibnFree_timer _ _
    · rfl
  | deleteWfsid wfsid =>
    by_cases hw : ValidWfsid wfsid
    · have hdrop : ∀ a b : FibNode, a.wfsid = b.wfsid → a.timeTag = b.timeTag →
          decide (a.wfsid = wfsid) = decide (b.wfsid = wfsid) := by
        intro a b hab _
        rw [hab]
      obtain ⟨t, root, hrun, _, hout, hok, _⟩ := rebuild_spec rb hdrop h
      refine .inl ⟨{ t with fibRoot := root }, none, ?_, hok, congrArg Prod.fst hout⟩
      rw [FibOp.step, ixgbeWfsFibDeleteWfsid, if_neg hw, hrun]
      rfl
    · refine .inr ?_
      rw [FibOp.step, ixgbeWfsFibDeleteWfsid, if_pos (not_not.mp hw)]
      rfl
  | timer => exact absurd rfl htimer

theorem update_armed (h : FibOk s) (hw : ValidWfsid wfsid)
    (hno : ¬(s.content key ≠ none ∨ s.HasNode k)) (htimer : s.fibTimer = true) (k' : Bool)
    (vid : UInt16) (mac : Mac) (ip : UInt32) :
    s.ixgbeWfsFibUpdate rb key k k' vid mac ip wfsid = .error (.bugOn .timerPending) := by
  obtain ⟨hkey, hnode⟩ := not_or.mp hno
  have hmiss : s.mySearch key s.fibRoot (vid &&& 0xfff) mac = none := by
    refine Option.eq_none_iff_forall_ne_some.mpr fun n hn => hkey ?_
    rw [(mySearch_some h hn).2.2]
    exact Option.some_ne_none _
  have hnone : s.fibnAlloc k = none :=
    Option.eq_none_iff_forall_ne_some.mpr fun r hr => hnode ((hasNode_iff k).mpr ⟨r, hr⟩)
  have halloc : allocOrTrim rb s k k' = .error (.bugOn .timerPending) := by
    rw [allocOrTrim, hnone, myTrimTree_armed rb h htimer]
    rfl
  rw [ixgbeWfsFibUpdate, if_neg hw, hmiss]
  simp only [halloc, bind, Except.bind]

end Fib

/-! ## One step -/

namespace TimedFib

variable {rb : Balancer Nat} {s t : TimedFib}

/-- The invariant: a table in order, with one expiry scheduled until the cleanup. -/
structure Armed (s : TimedFib) : Prop where
  fib : Fib.FibOk s.fib
  scheduled : s.scheduled = if s.cleaned then 0 else 1

theorem Armed.fired_eq (h : Armed s) (hc : s.cleaned = false) :
    s.fired = if s.fib.fibTimer then 0 else 1 := by
  have hone := h.scheduled
  rw [hc] at hone
  unfold TimedFib.scheduled at hone
  cases htimer : s.fib.fibTimer <;> simp_all

theorem Armed.callback (rb : Balancer Nat) (h : Armed s) (hc : s.cleaned = false)
    (hfired : 0 < s.fired) :
    ∃ fib, s.callback rb = .ok { s with fib, fired := 0 } ∧ Fib.FibOk fib ∧
      fib.fibTimer = true := by
  have heq := h.fired_eq hc
  have htimer : s.fib.fibTimer = false := by
    cases ht : s.fib.fibTimer with
    | false => rfl
    | true =>
      rw [ht] at heq
      simp only [if_true] at heq
      omega
  rw [htimer] at heq
  obtain ⟨fib, htrim, hok, -⟩ := myTrimTree_spec rb h.fib htimer
  refine ⟨fib, ?_, hok, myTrimTree_arms rb htrim⟩
  rw [TimedFib.callback, htrim, heq]
  rfl

theorem Armed.cleanup (rb : Balancer Nat) (h : Armed s) (hc : s.cleaned = false) :
    ∃ t, s.ixgbeWfsFibCleanup rb = .ok t ∧ Armed t := by
  have heq := h.fired_eq hc
  cases htimer : s.fib.fibTimer with
  | true =>
    rw [htimer] at heq
    refine ⟨{ s with fib := { s.fib with fibTimer := false }, cleaned := true }, ?_,
      ⟨h.fib.of_timer false, ?_⟩⟩
    · rw [ixgbeWfsFibCleanup, delTimerSync, if_pos htimer]
      rfl
    · simp [TimedFib.scheduled, heq]
  | false =>
    rw [htimer] at heq
    simp only [Bool.false_eq_true, if_false] at heq
    obtain ⟨fib, hcall, hok, -⟩ := h.callback rb hc (by omega)
    refine ⟨{ s with fib := { fib with fibTimer := false }, fired := 0, cleaned := true }, ?_,
      ⟨hok.of_timer false, ?_⟩⟩
    · rw [ixgbeWfsFibCleanup, delTimerSync, if_neg (by simp [htimer]), if_neg (by omega), hcall]
      rfl
    · simp [TimedFib.scheduled]

theorem Armed.call (h : Armed s) {fib : Fib} (hok : Fib.FibOk fib)
    (htimer : fib.fibTimer = s.fib.fibTimer) : Armed { s with fib } := by
  refine ⟨hok, ?_⟩
  have hsame : ({ s with fib } : TimedFib).scheduled = s.scheduled := by
    unfold TimedFib.scheduled
    rw [htimer]
  exact hsame.trans h.scheduled

end TimedFib

open TimedFib in
/-- The invariant along a run: the only crash is the one of a call for no station. -/
def TimerInv : Except Fault TimedFib → Prop
  | .ok s => Armed s
  | .error f => f = .bugOn .fibWfsid

theorem TimerInv.armedOnce {r : Except Fault TimedFib} (h : TimerInv r) : ArmedOnce r := by
  cases r with
  | ok s => exact TimedFib.Armed.scheduled h
  | error f => exact h

variable {rb : Balancer Nat} {s : TimedFib} {k : Nat}

open TimedFib

theorem not_armedOnce_of_update (h : s.Armed) (hc : s.cleaned = false) {key : FibKey} {k k' : Bool}
    {vid : UInt16} {mac : Mac} {ip : UInt32} {wfsid : UInt8} (hw : Fib.ValidWfsid wfsid)
    (hno : ¬(s.fib.content key ≠ none ∨ s.fib.HasNode k)) :
    ¬ArmedOnce (s.exec rb (.call (.update key k k' vid mac ip wfsid))) := by
  intro hp
  have hfired := h.fired_eq hc
  rw [exec, FibOp.step] at hp
  cases hu : s.fib.ixgbeWfsFibUpdate rb key k k' vid mac ip wfsid with
  | error f =>
    rw [hu] at hp
    obtain rfl : f = .bugOn .fibWfsid := hp
    rcases update_fault rb h.fib hw hu with hf | hf <;> cases hf
  | ok fib =>
    rw [hu] at hp
    have hafter : fib.fibTimer = true := (update_timer rb h.fib hu).2 hno
    -- had the timer been pending, the update would have crashed
    have hbefore : s.fib.fibTimer = false := by
      refine Bool.eq_false_iff.mpr fun htimer => ?_
      rw [update_armed rb h.fib hw hno htimer] at hu
      cases hu
    rw [hbefore] at hfired
    have htwo : s.fired + (if fib.fibTimer then 1 else 0) = if s.cleaned then 0 else 1 := hp
    rw [hc, hafter, hfired] at htwo
    cases htwo

theorem timerInv_of_other {op : FibOp} (h : s.Armed) (htimer : op ≠ .timer)
    (hop : ∀ key k k' vid mac ip wfsid, op ≠ .update key k k' vid mac ip wfsid) :
    TimerInv (s.exec rb (.call op)) := by
  rw [exec]
  rcases call_timer rb h.fib htimer hop with ⟨fib, res, hstep, hok, hsame⟩ | hfault
  · rw [hstep]
    exact h.call hok hsame
  · rw [hfault]
    rfl

/-- **One step.** What happens keeps the invariant if an update finds a node, and the timer is
    not armed twice only then. -/
theorem timer_step {r t : Except Fault TimedFib} {op : TimedOp} (h : TimerInv r)
    (hstep : TimedStep rb r op t) :
    (UpdateFindsNode r op → TimerInv t) ∧ (ArmedOnce t → UpdateFindsNode r op) := by
  cases r with
  | error f => exact hstep.elim
  | ok s =>
    obtain ⟨henabled, rfl⟩ := hstep
    have hs : s.Armed := h
    cases op with
    | expire =>
      refine ⟨fun _ => ⟨hs.fib.of_timer false, ?_⟩, fun _ => trivial⟩
      have htimer : s.fib.fibTimer = true := henabled
      have hsched := hs.scheduled
      simp only [scheduled, htimer, if_true] at hsched ⊢
      exact hsched
    | callback =>
      refine ⟨fun _ => ?_, fun _ => trivial⟩
      obtain ⟨hc, hfired⟩ := henabled
      obtain ⟨fib, hcall, hok, htimer⟩ := hs.callback rb hc hfired
      rw [exec, hcall]
      refine ⟨hok, ?_⟩
      simp [scheduled, htimer, hc]
    | cleanup =>
      refine ⟨fun _ => ?_, fun _ => trivial⟩
      obtain ⟨t, ht, harmed⟩ := hs.cleanup rb henabled
      rw [exec, ht]
      exact harmed
    | call op =>
      obtain ⟨hc, hnotimer⟩ := henabled
      cases op with
      | update key k k' vid mac ip wfsid =>
        refine ⟨fun hguard => ?_, fun hp hw => ?_⟩
        · by_cases hw : Fib.ValidWfsid wfsid
          · obtain ⟨fib, hu, hok, htimer⟩ := update_of_node rb hs.fib hw (hguard hw) k' vid mac ip
            rw [exec, FibOp.step, hu]
            exact hs.call hok htimer
          · rw [exec, FibOp.step, ixgbeWfsFibUpdate, if_pos (not_not.mp hw)]
            rfl
        · exact not_not.mp fun hno => not_armedOnce_of_update hs hc hw hno hp
      | lookup | delete | deleteWfsid =>
        refine ⟨fun _ => timerInv_of_other hs (by simp) (by simp), fun _ => trivial⟩
      | timer => exact absurd rfl hnotimer

theorem initial_armed {kmalloc : Nat → Bool} (hinit : (ixgbeWfsFibInit kmalloc).2 = true) :
    (initial kmalloc).Armed ∧ (initial kmalloc).fib.fibTimer = true := by
  have htimer : (ixgbeWfsFibInit kmalloc).1.fibTimer = true := by
    unfold ixgbeWfsFibInit at hinit ⊢
    split at hinit
    · cases hinit
    · rfl
  refine ⟨⟨(init_spec (Prod.ext rfl hinit)).1, ?_⟩, htimer⟩
  show (0 + if (ixgbeWfsFibInit kmalloc).1.fibTimer then 1 else 0) = 1
  rw [htimer]
  rfl

/-! ## Learning addresses -/

/-- What is left on the stack for `my_search` in the runs below. -/
def zeroKey : FibKey := ⟨0, Vector.replicate 6 0⟩

/-- The `i`-th address that is learned. -/
def learnedMac (i : Nat) : Mac := #v[2, 0, 0, 0, UInt8.ofNat (i / 256), UInt8.ofNat i]

def learnedKey (i : Nat) : FibKey := ⟨5, learnedMac i⟩

/-- The `i`-th address is learned, of the station 1. -/
def learnOp (i : Nat) : TimedOp := .call (.update zeroKey true true 5 (learnedMac i) 0 1)

def learnRun (k : Nat) : List TimedOp := (List.range k).map learnOp

theorem learnedKey_injective {i j : Nat} (hi : i < 65536) (hj : j < 65536)
    (h : learnedKey i = learnedKey j) : i = j := by
  have hmac : (learnedMac i).toList = (learnedMac j).toList := congrArg (fun k => k.mac.toList) h
  simp only [learnedMac, Vector.toList_mk, List.cons.injEq, and_true, true_and] at hmac
  have hhi := congrArg UInt8.toNat hmac.1
  have hlo := congrArg UInt8.toNat hmac.2
  simp only [UInt8.toNat_ofNat'] at hhi hlo
  omega

/-- The keys of the first `k` addresses. -/
def learnedKeys (k : Nat) : Finset FibKey := (Finset.range k).image learnedKey

theorem card_learnedKeys (hk : k ≤ fibSizeMax) : (learnedKeys k).card = k := by
  have hle : k ≤ 4096 := hk
  rw [learnedKeys, Finset.card_image_of_injOn, Finset.card_range]
  intro i hi j hj h
  rw [Finset.mem_coe, Finset.mem_range] at hi hj
  exact learnedKey_injective (by omega) (by omega) h

theorem length_of_learned {s : Fib} (h : s.FibOk)
    (hcontent : ∀ key, s.content key ≠ none ↔ key ∈ learnedKeys k) (hk : k ≤ fibSizeMax) :
    s.fibRoot.inorder.length = k := by
  have hle := h.length_le fun key => (hcontent key).mp
  have hge := h.le_length fun key => (hcontent key).mpr
  rw [card_learnedKeys hk] at hle hge
  omega

theorem zeroKey_not_mem (k : Nat) : zeroKey ∉ learnedKeys k := by
  intro h
  obtain ⟨i, -, hi⟩ := Finset.mem_image.mp h
  have hvid : (5 : UInt16) = 0 := congrArg FibKey.vid hi
  exact absurd hvid (by decide)

theorem mem_learnedKeys_succ {key : FibKey} :
    key ∈ learnedKeys (k + 1) ↔ key = learnedKey k ∨ key ∈ learnedKeys k := by
  rw [learnedKeys, Finset.range_add_one, Finset.image_insert, Finset.mem_insert, ← learnedKeys]

/-- The table with the first `k` addresses, and the timer pending. -/
structure Learned (s : TimedFib) (k : Nat) : Prop where
  armed : s.Armed
  timer : s.fib.fibTimer = true
  cleaned : s.cleaned = false
  content : ∀ key, s.fib.content key ≠ none ↔ key ∈ learnedKeys k

namespace Learned

variable {rb : Balancer Nat} {s : TimedFib} {k : Nat}

theorem length_eq (h : Learned s k) (hk : k ≤ fibSizeMax) : s.fib.fibRoot.inorder.length = k :=
  length_of_learned h.armed.fib h.content hk

theorem content_zeroKey (h : Learned s k) : s.fib.content zeroKey = none :=
  not_not.mp fun hne => zeroKey_not_mem k ((h.content zeroKey).mp hne)

theorem learn (rb : Balancer Nat) (h : Learned s k) (hk : k < fibSizeMax) :
    ∃ t, TimedStep rb (.ok s) (learnOp k) (.ok t) ∧ Learned t (k + 1) := by
  have hlt : s.fib.fibRoot.inorder.length < fibSizeMax := by
    rw [h.length_eq hk.le]
    exact hk
  have hw : Fib.ValidWfsid 1 := by decide
  obtain ⟨fib, hu, hok, hcontent⟩ :=
    update_spec rb h.armed.fib hlt zeroKey true 5 (learnedMac k) 0 hw
  obtain ⟨free, hlay⟩ := h.armed.fib.layout
  have hnode : s.fib.HasNode true := (hasNode_iff true).mpr (hlay.alloc_isSome hlt)
  have htimer := (update_timer rb h.armed.fib hu).1 (.inr hnode)
  refine ⟨{ s with fib }, ⟨⟨h.cleaned, nofun⟩, ?_⟩, h.armed.call hok htimer,
    htimer.trans h.timer, h.cleaned, fun key => ?_⟩
  · rw [learnOp, exec, FibOp.step, hu]
    rfl
  · rw [if_pos h.content_zeroKey] at hcontent
    change fib.content = Function.update s.fib.content (learnedKey k) (some 1) at hcontent
    show fib.content key ≠ none ↔ _
    rw [hcontent, mem_learnedKeys_succ, ← h.content]
    by_cases hkey : key = learnedKey k
    · rw [hkey, Function.update_self]
      exact iff_of_true (Option.some_ne_none _) (.inl rfl)
    · rw [Function.update_of_ne hkey, or_iff_right hkey]

theorem no_node (h : Learned s fibSizeMax) : ¬s.fib.HasNode true := by
  obtain ⟨free, hlay⟩ := h.armed.fib.layout
  have hlen := hlay.length_eq
  have hbound := hlay.bound
  rw [List.nil_append, h.length_eq le_rfl] at hlen
  have hfree : free = [] := List.length_eq_zero_iff.mp (by omega)
  rintro (hhead | ⟨hsize, -⟩)
  · exact hhead (hlay.freeQ.head_eq_none_iff.mpr hfree)
  · omega

theorem learn_full (h : Learned s fibSizeMax) (i : Nat) :
    TimedStep rb (.ok s) (learnOp i) (.error (.bugOn .timerPending)) := by
  refine ⟨⟨h.cleaned, nofun⟩, ?_⟩
  have hno : ¬(s.fib.content zeroKey ≠ none ∨ s.fib.HasNode true) :=
    not_or.mpr ⟨not_not.mpr h.content_zeroKey, h.no_node⟩
  rw [learnOp, exec, FibOp.step, update_armed rb h.armed.fib (by decide) hno h.timer]
  rfl

end Learned

theorem learnRun_run (rb : Balancer Nat) {kmalloc : Nat → Bool}
    (hinit : (ixgbeWfsFibInit kmalloc).2 = true) {k : Nat} (hk : k ≤ fibSizeMax) :
    ∃ s, Run (TimedStep rb) (.ok (.initial kmalloc)) (learnRun k) (.ok s) ∧ Learned s k := by
  induction k with
  | zero =>
    obtain ⟨harmed, htimer⟩ := initial_armed hinit
    refine ⟨.initial kmalloc, .nil _, harmed, htimer, rfl, fun key => ?_⟩
    have hempty : (initial kmalloc).fib.content = fun _ => none :=
      (init_spec (Prod.ext rfl hinit)).2
    rw [hempty]
    simp [learnedKeys]
  | succ k ih =>
    obtain ⟨s, hrun, hs⟩ := ih (by omega)
    obtain ⟨t, hstep, ht⟩ := hs.learn rb hk
    refine ⟨t, ?_, ht⟩
    rw [learnRun, List.range_succ, List.map_append, ← learnRun]
    exact hrun.append (.single hstep)

/-! ## Executing runs -/

instance (s : TimedFib) : DecidablePred s.Enabled
  | .call .timer => .isFalse fun h => h.2 rfl
  | .call (.update ..) => decidable_of_iff (s.cleaned = false) ⟨fun h => ⟨h, nofun⟩, And.left⟩
  | .call (.lookup ..) => decidable_of_iff (s.cleaned = false) ⟨fun h => ⟨h, nofun⟩, And.left⟩
  | .call (.delete ..) => decidable_of_iff (s.cleaned = false) ⟨fun h => ⟨h, nofun⟩, And.left⟩
  | .call (.deleteWfsid ..) =>
    decidable_of_iff (s.cleaned = false) ⟨fun h => ⟨h, nofun⟩, And.left⟩
  | .expire => inferInstanceAs (Decidable (s.fib.fibTimer = true))
  | .callback => inferInstanceAs (Decidable (_ ∧ _))
  | .cleanup => inferInstanceAs (Decidable (s.cleaned = false))

instance : ∀ r op, Decidable (UpdateFindsNode r op)
  | .ok s, .call (.update key kmalloc _ _ _ _ wfsid) =>
    inferInstanceAs (Decidable (Fib.ValidWfsid wfsid → s.fib.content key ≠ none ∨
      s.fib.HasNode kmalloc))
  | .ok _, .call (.lookup ..) => .isTrue trivial
  | .ok _, .call (.delete ..) => .isTrue trivial
  | .ok _, .call (.deleteWfsid ..) => .isTrue trivial
  | .ok _, .call .timer => .isTrue trivial
  | .ok _, .expire => .isTrue trivial
  | .ok _, .callback => .isTrue trivial
  | .ok _, .cleanup => .isTrue trivial
  | .error _, _ => .isTrue trivial

def TimedOp.next? (rb : Balancer Nat) :
    Except Fault TimedFib → TimedOp → Option (Except Fault TimedFib)
  | .ok s, op => if s.Enabled op then some (s.exec rb op) else none
  | .error _, _ => none

theorem TimedOp.next?_eq_some_iff (rb : Balancer Nat) (r : Except Fault TimedFib) (op : TimedOp)
    (t : Except Fault TimedFib) : TimedOp.next? rb r op = some t ↔ TimedStep rb r op t := by
  cases r with
  | error f => exact iff_of_false nofun id
  | ok s =>
    show (if s.Enabled op then some (s.exec rb op) else none) = some t ↔
      s.Enabled op ∧ t = s.exec rb op
    split
    · next h => simp [h, eq_comm]
    · next h => simp [h]

/-! ## The timer -/

/-- **The timer** of a table is armed once at any time exactly if every update finds a node. -/
theorem fib_timer_armed_once_iff {rb : Balancer Nat} {kmalloc : Nat → Bool} {ops : List TimedOp}
    {r : Except Fault TimedFib} (hinit : (ixgbeWfsFibInit kmalloc).2 = true)
    (hrun : Run (TimedStep rb) (.ok (.initial kmalloc)) ops r) :
    Always (TimedStep rb) ArmedOnce (.ok (.initial kmalloc)) ops ↔
      Run (Guarded (TimedStep rb) UpdateFindsNode) (.ok (.initial kmalloc)) ops r := by
  refine always_iff_guarded (I := TimerInv) (fun _ _ _ _ h h' => h.unique h')
    (fun _ h => h.armedOnce) (fun _ _ _ h hstep => timer_step h hstep) hrun ?_
  exact (initial_armed hinit).1

def expiryRun : List TimedOp :=
  [learnOp 0, .expire, learnOp 1, .callback, learnOp 2, .cleanup]

theorem fib_timer_armed_once_expiryRun :
    Always (TimedStep .plain) ArmedOnce (.ok (.initial fun _ => true)) expiryRun := by
  have hdone : (Run.exec (fun r op => if UpdateFindsNode r op then TimedOp.next? .plain r op
      else none) (.ok (.initial fun _ => true)) expiryRun).isSome = true := by
    decide +kernel
  obtain ⟨r, hr⟩ := Option.isSome_iff_exists.mp hdone
  have hguarded := (Run.exec_eq_some_iff
    (guarded_eq_some_iff (TimedOp.next?_eq_some_iff .plain))).mp hr
  have hrun : Run (TimedStep .plain) (.ok (.initial fun _ => true)) expiryRun r :=
    hguarded.mono fun _ _ _ h => h.2
  exact (fib_timer_armed_once_iff init_of_kmalloc hrun).mpr hguarded

/-- More addresses than nodes stop the host. -/
theorem fib_timer_pending_learnRun :
    Run (TimedStep .plain) (.ok (.initial fun _ => true)) (learnRun (fibSizeMax + 1))
        (.error (.bugOn .timerPending)) ∧
      ¬Always (TimedStep .plain) ArmedOnce (.ok (.initial fun _ => true))
        (learnRun (fibSizeMax + 1)) := by
  obtain ⟨s, hrun, hs⟩ := learnRun_run .plain init_of_kmalloc le_rfl
  have hcrash : Run (TimedStep .plain) (.ok (.initial fun _ => true)) (learnRun (fibSizeMax + 1))
      (.error (.bugOn .timerPending)) := by
    rw [learnRun, List.range_succ, List.map_append, ← learnRun]
    exact hrun.append (.single (hs.learn_full fibSizeMax))
  refine ⟨hcrash, fun halways => ?_⟩
  have hcause : Fault.bugOn .timerPending = .bugOn .fibWfsid := halways _ _ List.prefix_rfl hcrash
  cases hcause

end VmkDrivers.Wfs
