/-
  VmkDrivers.Vmklinux.Retry

  Whether there is always someone left to run what is queued.

  A dispatch that the helper refuses arms `delayTimer` first and gives its posts
  back later, in a section of its own.  A dispatch in between takes these posts
  for ones that are under way.  If it is the last one, as it is when the timer
  expires so early, nobody comes back for the items (`no_work_stranded_iff`).
-/

import VmkDrivers.Vmklinux.Accounting

namespace VmkDrivers.Vmklinux

open VmkDrivers.Lib

variable {W : Type}

/-- The world will take an item off the queue, dispatch again, submit a request or arm the timer. -/
def World.covers : World W → Bool
  | .post (_ + 1) _ | .arm .. => true
  | .timeout => true
  | .callout | .take .. | .call .. | .complete .. | .done .. => true
  | _ => false

def World.owed : World W → Nat
  | .restore d _ => d
  | _ => 0

/-- A request is with the helper, the timer is pending, or a world goes on with the queue. -/
def Covered (q : Workqueue W) (ws : Multiset (World W)) : Prop :=
  0 < q.requests ∨ q.delayTimer = true ∨ ∃ p ∈ ws, p.covers = true

instance (q : Workqueue W) (ws : Multiset (World W)) : Decidable (Covered q ws) :=
  letI : Decidable (∃ p ∈ ws, p.covers = true) := Multiset.decidableExistsMultiset
  inferInstanceAs (Decidable (_ ∨ _ ∨ _))

/-- What is queued will be looked after. -/
def NotStranded : WorkState W → Prop
  | .ok s => 0 < s.shared.qLen → Covered s.shared s.active
  | .error _ => False

def World.items (q : Workqueue W) : World W → Option Int
  | .queue .. => some (q.qLen + 1)
  | .timeout | .done .. => some q.qLen
  | _ => none

/-- The world dispatches items that nobody else looks after, while posts that are about to be given
    back are as many as the items, or as there may be. -/
def Strands [DecidableEq W] (q : Workqueue W) (ws : Multiset (World W)) (p : World W) : Prop :=
  ∃ items ∈ p.items q, 0 < items ∧ ¬Covered q (ws.erase p) ∧
    (items ≤ total World.owed ws ∨ q.maxDispatch ≤ total World.owed ws)

instance [DecidableEq W] (q : Workqueue W) (ws : Multiset (World W)) (p : World W) :
    Decidable (Strands q ws p) :=
  inferInstanceAs (Decidable (∃ items ∈ p.items q, _))

def KeepsRetry [DecidableEq W] : WorkState W → PoolEvent (World W) (WorkEvent W) Bool → Prop
  | .ok s, .move p _ => ¬Strands s.shared s.active p
  | _, _ => True

instance [DecidableEq W] (r : WorkState W) (e : PoolEvent (World W) (WorkEvent W) Bool) :
    Decidable (KeepsRetry r e) :=
  match r, e with
  | .ok s, .move p _ => inferInstanceAs (Decidable (¬Strands s.shared s.active p))
  | .ok _, .begin _ => .isTrue trivial
  | .error _, _ => .isTrue trivial

/-! ## One step -/

section Steps

variable {q q' : Workqueue W} {p : World W} {ws rest : Multiset (World W)} {ps : List (World W)}
  {flush : Option Nat}

theorem covered_cons : Covered q (p ::ₘ rest) ↔ p.covers = true ∨ Covered q rest := by
  simp only [Covered, Multiset.mem_cons, exists_eq_or_imp]
  tauto

theorem Covered.add (h : Covered q rest) (hrequests : q.requests ≤ q'.requests)
    (htimer : q.delayTimer = true → q'.delayTimer = true) : Covered q' (ps + rest) := by
  rcases h with h | h | ⟨p, hp, hcovers⟩
  · exact .inl (by omega)
  · exact .inr (.inl (htimer h))
  · exact .inr (.inr ⟨p, Multiset.mem_add.mpr (.inr hp), hcovers⟩)

theorem covered_of_mem (hp : p ∈ ps) (hcovers : p.covers = true) : Covered q (ps + rest) :=
  .inr (.inr ⟨p, Multiset.mem_add.mpr (.inl hp), hcovers⟩)

theorem covered_resume (flush : Option Nat) :
    Covered q ((Workqueue.resume flush : List (World W)) + rest) ↔ Covered q rest := by
  cases flush with
  | none => simp [Workqueue.resume]
  | some n =>
    show Covered q (([.await n] : List (World W)) + rest) ↔ _
    rw [← Multiset.cons_coe, Multiset.coe_nil, Multiset.cons_add, zero_add, covered_cons]
    simp [World.covers]

theorem holdings_of_not_covered (h : ¬Covered q ws) :
    (holdings ws).trackers = 0 ∧ (holdings ws).posted = total World.owed ws := by
  induction ws using Multiset.induction_on with
  | empty => exact ⟨rfl, rfl⟩
  | cons p ws ih =>
    rw [covered_cons, not_or] at h
    obtain ⟨hp, hws⟩ := h
    obtain ⟨htrackers, hposted⟩ := ih hws
    rw [holdings, total_cons, total_cons, Holding.add_def]
    rw [htrackers, hposted]
    have hhold : p.holding.trackers = 0 ∧ p.holding.posted = p.owed := by
      cases p with
      | post d flush =>
        cases d with
        | zero => exact ⟨rfl, rfl⟩
        | succ d => exact absurd rfl hp
      | look w timer got => cases got <;> exact ⟨rfl, rfl⟩
      | lookAgain w timer got => cases got <;> exact ⟨rfl, rfl⟩
      | cancelEnd w timer got => cases got <;> exact ⟨rfl, rfl⟩
      | arm => exact absurd rfl hp
      | timeout => exact absurd rfl hp
      | callout => exact absurd rfl hp
      | take => exact absurd rfl hp
      | call => exact absurd rfl hp
      | complete => exact absurd rfl hp
      | done => exact absurd rfl hp
      | _ => exact ⟨rfl, rfl⟩
    rw [hhold.1, hhold.2]
    exact ⟨rfl, rfl⟩

/-- **A dispatch** leaves its items with somebody exactly if somebody looks after them already or
    there are fewer posts owed than items and than there may be. -/
theorem Dispatched.covered [DecidableEq W] (h : Inv q (holdings rest))
    (hd : Dispatched q flush q' ps) :
    (0 < q'.qLen → Covered q' (ps + rest)) ↔ ¬(0 < q.qLen ∧ ¬Covered q rest ∧
      (q.qLen ≤ total World.owed rest ∨ q.maxDispatch ≤ total World.owed rest)) := by
  obtain ⟨-, hposted, hdispatched, -, -⟩ := h.counts
  by_cases hcovered : Covered q rest
  · refine iff_of_true (fun _ => hcovered.add ?_ ?_) fun hno => hno.2.1 hcovered
    · cases hd <;> exact le_rfl
    · cases hd <;> exact id
  · obtain ⟨htrackers, howed⟩ := holdings_of_not_covered hcovered
    have hrequests : q.requests = 0 := by
      by_contra hne
      exact hcovered (.inl (Nat.pos_of_ne_zero hne))
    rw [htrackers, Multiset.card_zero] at hdispatched
    rw [howed, hrequests] at hposted
    cases hd with
    | enough henough =>
      rw [covered_resume]
      refine ⟨fun hcov hno => hcovered (hcov hno.1), fun hno hpos => ?_⟩
      exact absurd ⟨hpos, hcovered, by omega⟩ hno
    | posts d hpos hdef =>
      obtain ⟨d, rfl⟩ := Nat.exists_eq_succ_of_ne_zero hpos.ne'
      refine iff_of_true (fun _ => ?_) fun hno => by omega
      exact covered_of_mem (p := .post (d + 1) flush) (List.mem_singleton.mpr rfl) rfl

theorem Covered.idle (h : 0 < q.qLen → Covered q (p ::ₘ rest)) (hp : p.covers = false)
    (hrequests : q'.requests = q.requests) (htimer : q'.delayTimer = q.delayTimer)
    (hlen : q'.qLen ≤ q.qLen) (hpos : 0 < q'.qLen) : Covered q' (ps + rest) := by
  rcases covered_cons.mp (h (by omega)) with hcov | hcov
  · rw [hp] at hcov
    cases hcov
  · exact hcov.add hrequests.ge fun ht => htimer.trans ht

theorem drain_fst (n : Nat) : ∃ waiting, (q.drain n).1 = { q with waiting } := by
  unfold Workqueue.drain
  split
  · exact ⟨q.waiting, rfl⟩
  · exact ⟨_, rfl⟩

variable [DecidableEq W]

theorem scan_fst (w : W) (timer got : Bool) :
    ∃ waiting, (q.scan w timer got).1 = { q with waiting } := by
  unfold Workqueue.scan
  split
  · exact ⟨_, rfl⟩
  · exact ⟨q.waiting, rfl⟩

theorem Moves.covered (hinv : Inv q (holdings (p ::ₘ rest))) (hmove : Moves q p q' ps)
    (hitems : p.items q = none) (h : 0 < q.qLen → Covered q (p ::ₘ rest)) (hpos : 0 < q'.qLen) :
    Covered q' (ps + rest) := by
  cases hmove with
  | queue => cases hitems
  | timeout => cases hitems
  | done => cases hitems
  | posted => exact Covered.idle h rfl rfl rfl le_rfl hpos
  | submitted => exact .inl (Nat.succ_pos _)
  | refused => exact covered_of_mem (List.mem_singleton.mpr rfl) rfl
  | arm => exact .inr (.inl rfl)
  | restore => exact Covered.idle h rfl rfl rfl le_rfl hpos
  | idleCallout hhead =>
    have hlen := hinv.counts.len
    rw [hhead] at hlen
    exact absurd hlen.symm hpos.ne'
  | callout => exact covered_of_mem (List.mem_singleton.mpr rfl) rfl
  | take => exact covered_of_mem (List.mem_singleton.mpr rfl) rfl
  | call => exact covered_of_mem (List.mem_singleton.mpr rfl) rfl
  | splice => exact covered_of_mem (List.mem_singleton.mpr rfl) rfl
  | complete => exact covered_of_mem (List.mem_singleton.mpr rfl) rfl
  | delay => exact Covered.idle h rfl rfl rfl le_rfl hpos
  | grab => exact Covered.idle h rfl rfl rfl le_rfl hpos
  | noGrab => exact Covered.idle h rfl rfl rfl le_rfl hpos
  | cancelTimer => exact Covered.idle h rfl rfl rfl le_rfl hpos
  | noTimer => exact Covered.idle h rfl rfl rfl le_rfl hpos
  | unbound => exact Covered.idle h rfl rfl rfl le_rfl hpos
  | @scan w timer got =>
    obtain ⟨waiting, hq⟩ := scan_fst (q := q) w timer got
    rw [hq] at hpos ⊢
    exact Covered.idle h rfl rfl rfl le_rfl hpos
  | @remove w timer e =>
    obtain ⟨waiting, hq⟩ := scan_fst (q := q.unqueue e) w timer true
    rw [hq] at hpos ⊢
    exact Covered.idle h rfl rfl rfl (Int.sub_le_self _ (by decide)) hpos
  | @lookAgain w timer got =>
    obtain ⟨waiting, hq⟩ := scan_fst (q := { q with waiting := q.waiting - 1 }) w timer got
    rw [hq] at hpos ⊢
    exact Covered.idle h rfl rfl rfl le_rfl hpos
  | cancelEnd => exact Covered.idle h rfl rfl rfl le_rfl hpos
  | retry => exact Covered.idle h rfl rfl rfl le_rfl hpos
  | flush => exact Covered.idle h rfl rfl rfl le_rfl hpos
  | await => exact Covered.idle h rfl rfl rfl le_rfl hpos
  | @drain n =>
    obtain ⟨waiting, hq⟩ := drain_fst (q := q) n
    rw [hq] at hpos ⊢
    exact Covered.idle h rfl rfl rfl le_rfl hpos
  | @drainAgain n =>
    obtain ⟨waiting, hq⟩ := drain_fst (q := { q with waiting := q.waiting - 1 }) n
    rw [hq] at hpos ⊢
    exact Covered.idle h rfl rfl rfl le_rfl hpos
  | unlock => exact Covered.idle h rfl rfl rfl le_rfl hpos

theorem strands_iff {items : Int} (hitems : p.items q = some items) (howed : p.owed = 0) :
    Strands q (p ::ₘ rest) p ↔ 0 < items ∧ ¬Covered q rest ∧
      (items ≤ total World.owed rest ∨ q.maxDispatch ≤ total World.owed rest) := by
  rw [Strands, total_cons, howed, zero_add, Multiset.erase_cons_head, hitems]
  simp

theorem Moves.covered_iff {items : Int} (hinv : Inv q (holdings (p ::ₘ rest)))
    (hmove : Moves q p q' ps) (hitems : p.items q = some items) :
    (0 < q'.qLen → Covered q' (ps + rest)) ↔ ¬Strands q (p ::ₘ rest) p := by
  rw [holdings, total_cons] at hinv
  cases hmove with
  | queue hd =>
    cases hitems
    rw [strands_iff rfl rfl]
    exact hd.covered hinv.enqueue
  | timeout hd =>
    cases hitems
    rw [show World.timeout.holding = (0 : Holding W) from rfl, zero_add] at hinv
    rw [strands_iff rfl rfl]
    exact hd.covered hinv
  | done hd =>
    cases hitems
    rw [strands_iff rfl rfl]
    exact Dispatched.covered (q := q.release _) hinv.release hd
  | _ => cases hitems

theorem begin_covered {ev : WorkEvent W} (hbegin : q.begin ev = some (q', ps))
    (h : 0 < q.qLen → Covered q rest) (hpos : 0 < q'.qLen) : Covered q' (ps + rest) := by
  cases begins_of_begin hbegin with
  | nothing => exact (h hpos).add le_rfl id
  | grab => exact Covered.add (h hpos) le_rfl id
  | cancel => exact (h hpos).add le_rfl id
  | flush => exact (h hpos).add le_rfl id
  | expire => exact Covered.add (h hpos) le_rfl id
  | delayTimer => exact covered_of_mem (List.mem_singleton.mpr rfl) rfl
  | helper => exact covered_of_mem (List.mem_singleton.mpr rfl) rfl

end Steps

/-! ## Runs -/

section Runs

variable [DecidableEq W]

theorem notStranded_step {r t : WorkState W} {e : PoolEvent (World W) (WorkEvent W) Bool}
    (hinv : Program.Holds (fun q ws => Inv q (holdings ws)) r) (h : NotStranded r)
    (hstep : WorkStep r e t) : NotStranded t ↔ KeepsRetry r e := by
  rcases Program.step_cases hstep with ⟨s, ev, u, ps, rfl, rfl, hbegin, rfl⟩ |
    ⟨q, p, submitted, rest, o, rfl, rfl, hmove, rfl⟩
  · exact iff_of_true (begin_covered hbegin h) trivial
  · have hq : Inv q (holdings (p ::ₘ rest)) := hinv
    obtain ⟨q', ps, rfl, hmoves⟩ : ∃ q' ps, o = .ok (q', ps) ∧ Moves q p q' ps := by
      rw [holdings, total_cons] at hq
      exact move_ok hq hmove
    cases hitems : p.items q with
    | none =>
      refine iff_of_true (hmoves.covered hq hitems h) ?_
      rintro ⟨items, hmem, -⟩
      rw [hitems] at hmem
      cases hmem
    | some items => exact hmoves.covered_iff hq hitems

/-- **Retry**: something that is queued always has somebody left to run it exactly if no dispatch
    of the run strands items. -/
theorem no_work_stranded_iff {singlethread : Bool} {pcpus : Nat}
    {es : List (PoolEvent (World W) (WorkEvent W) Bool)} {r : WorkState W}
    (hrun : Run WorkStep (.created singlethread pcpus) es r) :
    Always WorkStep NotStranded (.created singlethread pcpus) es ↔
      Run (Guarded WorkStep KeepsRetry) (.created singlethread pcpus) es r := by
  have hcreated : Program.Holds (fun q ws => Inv q (holdings ws))
      (WorkState.created singlethread pcpus : WorkState W) := inv_created singlethread pcpus
  refine always_iff_guarded (T := WorkStep) (fun _ _ _ _ h h' => Program.Step.unique h h')
    (I := fun r => Program.Holds (fun q ws => Inv q (holdings ws)) r ∧ NotStranded r)
    (fun _ h => h.2) ?_ hrun ⟨hcreated, fun h => absurd h (lt_irrefl 0)⟩
  rintro s e t ⟨hinv, h⟩ hstep
  have hiff := notStranded_step hinv h hstep
  exact ⟨fun hguard => ⟨inv_step hinv hstep, hiff.mpr hguard⟩, hiff.mp⟩

end Runs

/-- The helper refuses a request, the posts are given back, the timer expires, and a second request
    runs the item. -/
def retriedRun : List (PoolEvent (World Nat) (WorkEvent Nat) Bool) :=
  [.begin (.queueWork 0), .move (.queue (.work 0) none) true, .move (.post 1 none) false,
    .move (.arm 1 none) true, .move (.restore 1 none) true, .begin .delayTimer,
    .move .timeout true, .move (.post 1 none) true, .move (.post 0 none) true, .begin .helper,
    .move .callout true, .move (.take ⟨.work 0, 0⟩ 0) true, .move (.call ⟨.work 0, 0⟩ 0) true,
    .move (.done ⟨.work 0, 0⟩ 0) true]

theorem no_work_stranded_retriedRun :
    Always WorkStep NotStranded (.created true 1) retriedRun := by
  have hstep : ∀ r e t, (if KeepsRetry r e then (workqueueProgram Nat).next? r e else none) = some t →
      Guarded WorkStep KeepsRetry r e t := fun r e t =>
    (guarded_eq_some_iff (T := WorkStep) (fun _ _ _ => Iff.rfl) r e t).mp
  have hsome : (Run.exec (fun r e => if KeepsRetry r e then (workqueueProgram Nat).next? r e
      else none) (.created true 1) retriedRun).isSome = true := by decide
  obtain ⟨r, hr⟩ := Option.isSome_iff_exists.mp hsome
  have hguarded := Run.of_exec hstep hr
  exact (no_work_stranded_iff (hguarded.mono fun _ _ _ h => h.2)).mpr hguarded

def strandingRun : List (PoolEvent (World Nat) (WorkEvent Nat) Bool) :=
  [.begin (.queueWork 0), .move (.queue (.work 0) none) true, .move (.post 1 none) false,
    .move (.arm 1 none) true, .begin .delayTimer, .move .timeout true,
    .move (.restore 1 none) true]

/-- The item stays on the queue, and no request, timer or world is left. -/
theorem no_work_stranded_strandingRun :
    ∃ s, Run WorkStep (.created true 1) strandingRun (.ok s) ∧ s.shared.qLen = 1 ∧
      s.shared.requests = 0 ∧ s.shared.delayTimer = false ∧ s.active = 0 ∧
      ¬Always WorkStep NotStranded (.created true 1) strandingRun := by
  have hrun : ∃ s, Run WorkStep (.created true 1) strandingRun (.ok s) ∧ s.shared.qLen = 1 ∧
      s.shared.requests = 0 ∧ s.shared.delayTimer = false ∧ s.active = 0 := by
    refine ⟨_, .cons rfl (.cons rfl (.cons rfl (.cons rfl (.cons rfl (.cons rfl (.cons rfl
      (.nil _))))))), rfl, rfl, rfl, rfl⟩
  obtain ⟨s, hs, hlen, hrequests, htimer, hactive⟩ := hrun
  refine ⟨s, hs, hlen, hrequests, htimer, hactive, fun halways => ?_⟩
  have hcovered := halways strandingRun _ List.prefix_rfl hs (by rw [hlen]; decide)
  rcases hcovered with h | h | ⟨p, hp, -⟩
  · exact absurd hrequests h.ne'
  · exact absurd (htimer.symm.trans h) (by decide)
  · rw [hactive] at hp
    exact Multiset.notMem_zero p hp

end VmkDrivers.Vmklinux
