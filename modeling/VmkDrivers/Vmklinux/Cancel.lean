/-
  VmkDrivers.Vmklinux.Cancel

  `vmklnx_cancel_work_sync` is complete (`cancel_work_sync_complete`).

  A call that has the pending bit keeps the item off the queue and the timer,
  and the scan that follows finds every tracker with it, so that the function
  does not run when the bit is cleared.  What a call returns, and the handler of
  a timer that is under way, are frames of the worlds.
-/

import VmkDrivers.Lib.Frames
import VmkDrivers.Vmklinux.Flush

namespace VmkDrivers.Vmklinux

open VmkDrivers.Lib

variable {W : Type}

/-! ## Calls and handlers -/

/-- What a world is in: `delayed_work_timer_fn`, or a call of `vmklnx_cancel_work_sync` with its
    `ret`. -/
inductive Caller (W : Type) where
  | other
  | timer (w : W)
  | cancel (call : Nat) (ret : Bool)
deriving DecidableEq, Repr

structure History (W : Type) where
  calls : Nat := 0
  /-- Handlers that are under way. -/
  handlers : W → Nat := fun _ => 0
  /-- The calls that took their item off the queue, off its timer, and that lowered `qLen`. -/
  fromQueue : List Nat := []
  fromTimer : List Nat := []
  lowered : List Nat := []
  returned : List (Nat × Bool) := []

/-- The item that a world in `vmklnx_cancel_work_sync` cancels. -/
def World.cancels : World W → Option W
  | .cancel w _ | .cancelTimer w | .look w .. | .lookAgain w .. | .cancelEnd w .. => some w
  | _ => none

section Frames

variable [DecidableEq W]

/-- `ret = 1` -/
def Workqueue.setsRet (q : Workqueue W) : World W → Bool
  | .cancelTimer w => q.timer w
  | .look w _ _ => q.bound w && q.OnQueue (.work w) && q.pending (.work w)
  | _ => false

def Workqueue.takenOff (q q' : Workqueue W) (w : W) : Bool :=
  q.OnQueue (.work w) && !q'.OnQueue (.work w)

def Workqueue.stopped (q q' : Workqueue W) (w : W) : Bool := q.timer w && !q'.timer w

def History.record (g : History W) (call : Nat) (w : W) (q q' : Workqueue W) : History W :=
  { g with
    fromQueue := g.fromQueue ++ if q.takenOff q' w then [call] else []
    fromTimer := g.fromTimer ++ if q.stopped q' w then [call] else []
    lowered := g.lowered ++ List.replicate (q.qLen - q'.qLen).toNat call }

/-- The frames of the worlds.  `del_timer_sync` waits for a handler that is under way. -/
def cancelFraming : Framing (Workqueue W) (World W) (WorkEvent W) (Caller W) (History W) where
  start g
    | .cancelWorkSync _ _ => ({ g with calls := g.calls + 1 }, .cancel g.calls false)
    | .delayedWorkTimer w =>
      ({ g with handlers := Function.update g.handlers w (g.handlers w + 1) }, .timer w)
    | _ => (g, .other)
  may g _ q
    | .cancelTimer w => q.timer w || g.handlers w = 0
    | _ => true
  next g caller q p q' ps :=
    match caller with
    | .other => (g, .other)
    | .timer w =>
      (if ps = [] then { g with handlers := Function.update g.handlers w (g.handlers w - 1) }
        else g, .timer w)
    | .cancel call ret =>
      let ret := ret || q.setsRet p
      let g := p.cancels.elim g fun w => g.record call w q q'
      (if ps = [] then { g with returned := g.returned ++ [(call, ret)] } else g,
        .cancel call ret)

/-- A queue with the calls of `vmklnx_cancel_work_sync`, or the assertion that failed. -/
abbrev CancelState (W : Type) :=
  Except WorkAssert (Pool (Workqueue W × History W) (World W × Caller W))

abbrev CancelStep : CancelState W → PoolEvent (World W × Caller W) (WorkEvent W) Bool →
    CancelState W → Prop :=
  ((workqueueProgram W).framed cancelFraming).Step

def CancelState.created (singlethread : Bool) (pcpus : Nat) : CancelState W :=
  .ok ⟨(createWorkqueue singlethread pcpus, {}), 0⟩

end Frames

/-! ## Nothing executes the item -/

structure Settled (q : Workqueue W) (ws : Multiset (World W)) : Prop where
  ended : ∀ w timer, World.cancelEnd w timer true ∈ ws → ∀ e, q.Executing e → e.item ≠ .work w
  unbound : ∀ w, q.bound w = false → ∀ e, e ∈ q.head ∨ q.Executing e → e.item ≠ .work w

open Workqueue

section Settling

variable [DecidableEq W] {q q' : Workqueue W} {p : World W} {rest : Multiset (World W)}
  {ps : List (World W)} {w : W} {timer got : Bool} {flush : Option Nat} {d : Holding W}
  {q₀ : Workqueue W}

theorem Settled.onward {ws : Multiset (World W)} (h : Settled q ws) (hinv : Inv q (holdings ws))
    (hon : Onward q q') (hbound : ∀ w, q'.bound w = false → q.bound w = false)
    (hrest : ∀ p ∈ rest, p ∈ ws)
    (hps : ∀ w timer, .cancelEnd w timer true ∈ ps → ∀ e, q'.Executing e → e.item ≠ .work w) :
    Settled q' (ps + rest) := by
  refine ⟨fun w timer hmem => ?_, fun w hw e he => ?_⟩
  · rcases Multiset.mem_add.mp hmem with hmem | hmem
    · exact hps w timer hmem
    · rintro e ⟨tr, he⟩
      rcases hon.executing tr e he with he | he
      · exact h.ended w timer (hrest _ hmem) e ⟨tr, he⟩
      · -- the call has the pending bit, the item is not on the queue
        intro hitem
        have hbit : Item.work w ∈ (holdings ws).bits :=
          mem_bits.mpr ⟨_, hrest _ hmem, Multiset.mem_singleton_self _⟩
        exact (hinv.tokens.of_mem (hitem ▸ List.mem_map_of_mem he)).2 hbit
  · refine h.unbound w (hbound w hw) e ?_
    rcases he with he | ⟨tr, he⟩
    · exact .inl (hon.head e he)
    · exact (hon.executing tr e he).symm.imp_right fun he => ⟨tr, he⟩

theorem Settled.idle (h : Settled q (p ::ₘ rest)) (hinv : Inv q (holdings (p ::ₘ rest)))
    (hon : Onward q q') (hbound : ∀ w, q'.bound w = false → q.bound w = false)
    (hps : ∀ w timer, World.cancelEnd w timer true ∉ ps) : Settled q' (ps + rest) :=
  h.onward hinv hon hbound (fun _ hp => Multiset.mem_cons_of_mem hp) fun w timer hmem =>
    absurd hmem (hps w timer)

omit [DecidableEq W] in
theorem resume_calm (w : W) (timer : Bool) :
    World.cancelEnd w timer true ∉ (resume flush : List (World W)) := by
  cases flush <;> simp [resume]

omit [DecidableEq W] in
theorem Dispatched.calm (hd : Dispatched q flush q' ps) :
    q'.bound = q.bound ∧ ∀ w timer, World.cancelEnd w timer true ∉ ps := by
  cases hd with
  | enough => exact ⟨rfl, resume_calm⟩
  | posts => exact ⟨rfl, by simp⟩

theorem Inv.not_executing (h : Inv q d) (hrunning : ¬q.Running w) (e : Entry W)
    (he : q.Executing e) : e.item ≠ .work w := by
  obtain ⟨tr, he⟩ := he
  intro hitem
  refine hrunning ⟨tr, h.trackers.mem_used ((h.trackers.executing tr e).mp he), ?_⟩
  rw [he, Option.map_some, hitem]

theorem Settled.scan (h : Settled q₀ (p ::ₘ rest)) (hinv : Inv q₀ (holdings (p ::ₘ rest)))
    (hon : Onward q₀ q) (hbound : q.bound = q₀.bound) (hd : Inv q d) :
    Settled (q.scan w timer got).1 ((q.scan w timer got).2 + rest) := by
  obtain ⟨waiting, hq⟩ := scan_fst (q := q) w timer got
  rw [hq]
  refine h.onward hinv (hon.counters q.curPosted waiting) (fun _ hw => hbound ▸ hw)
    (fun _ hp => Multiset.mem_cons_of_mem hp) ?_
  intro v timer' hmem e he
  unfold Workqueue.scan at hmem
  split at hmem
  · exact absurd hmem (by simp)
  · next hrunning =>
    obtain ⟨rfl, -, -⟩ := World.cancelEnd.inj (List.mem_singleton.mp hmem)
    exact hd.not_executing hrunning e he

theorem Settled.enqueue {i : Item W} (h : Settled q (.queue i flush ::ₘ rest))
    (hinv : Inv q (holdings (.queue i flush ::ₘ rest))) : Settled (q.enqueue i) rest := by
  refine ⟨fun w timer hmem => h.ended w timer (Multiset.mem_cons_of_mem hmem), fun w hw e he => ?_⟩
  have hold : q.bound w = false ∧ i ≠ .work w := by
    cases i with
    | plunger n => exact ⟨hw, nofun⟩
    | work v =>
      by_cases hv : w = v
      · have htrue : (q.enqueue (.work v)).bound w = true := by
          rw [hv]
          exact Function.update_self ..
        rw [htrue] at hw
        cases hw
      · have hsame : (q.enqueue (.work v)).bound w = q.bound w := Function.update_of_ne hv _ _
        exact ⟨hsame ▸ hw, fun heq => hv (Item.work.inj heq).symm⟩
  rw [mem_head_enqueue] at he
  rcases he with (he | rfl) | he
  · exact h.unbound w hold.1 e (.inl he)
  · exact hold.2
  · exact h.unbound w hold.1 e (.inr he)

theorem Settled.drain {n : Nat} (h : Settled q₀ (p ::ₘ rest))
    (hinv : Inv q₀ (holdings (p ::ₘ rest))) (hon : Onward q₀ q)
    (hbound : ∀ w, q.bound w = false → q₀.bound w = false) :
    Settled (q.drain n).1 ((q.drain n).2 + rest) := by
  refine h.idle hinv (drain_onward n hon).1 (fun w hw => hbound w ?_) ?_
  · obtain ⟨waiting, hq⟩ := drain_fst (q := q) n
    rw [hq] at hw
    exact hw
  · unfold Workqueue.drain
    split <;> simp

theorem Moves.settled (hinv : Inv q (holdings (p ::ₘ rest))) (hmove : Moves q p q' ps)
    (h : Settled q (p ::ₘ rest)) : Settled q' (ps + rest) := by
  have hsame : Onward q q := .same rfl rfl rfl rfl rfl rfl rfl
  cases hmove with
  | @queue i _ _ _ hd =>
    have henq := h.enqueue hinv
    rw [holdings, total_cons] at hinv
    have hon : Onward (q.enqueue i) (q.enqueue i) := .same rfl rfl rfl rfl rfl rfl rfl
    exact henq.onward hinv.enqueue (hd.onward hon).1 (fun _ hw => hd.calm.1 ▸ hw)
      (fun _ hp => hp) fun w timer hmem => absurd hmem (hd.calm.2 w timer)
  | posted => exact h.idle hinv hsame (fun _ hw => hw) resume_calm
  | submitted => exact h.idle hinv (.same rfl rfl rfl rfl rfl rfl rfl) (fun _ hw => hw) (by simp)
  | refused => exact h.idle hinv hsame (fun _ hw => hw) (by simp)
  | arm => exact h.idle hinv (.same rfl rfl rfl rfl rfl rfl rfl) (fun _ hw => hw) (by simp)
  | restore => exact h.idle hinv (.same rfl rfl rfl rfl rfl rfl rfl) (fun _ hw => hw) resume_calm
  | timeout hd => exact h.idle hinv (hd.onward hsame).1 (fun _ hw => hd.calm.1 ▸ hw) hd.calm.2
  | idleCallout => exact h.idle hinv (.same rfl rfl rfl rfl rfl rfl rfl) (fun _ hw => hw) (by simp)
  | callout hhead hfree => exact h.idle hinv (.callout hhead) (fun _ hw => hw) (by simp)
  | take => exact h.idle hinv (.same rfl rfl rfl rfl rfl rfl rfl) (fun _ hw => hw) (by simp)
  | call => exact h.idle hinv (.same rfl rfl rfl rfl rfl rfl rfl) (fun _ hw => hw) (by simp)
  | splice => exact h.idle hinv .spliced (fun _ hw => hw) (by simp)
  | complete => exact h.idle hinv (.complete _ _) (fun _ hw => hw) (by simp)
  | done hd => exact h.idle hinv (hd.onward (.release _)).1 (fun _ hw => hd.calm.1 ▸ hw) hd.calm.2
  | @delay w =>
    refine h.idle hinv (.same rfl rfl rfl rfl rfl rfl rfl) (fun v hv => ?_) (by simp)
    by_cases hvw : v = w
    · simp [hvw] at hv
    · exact (Function.update_of_ne hvw _ _).symm.trans hv
  | grab => exact h.idle hinv (.same rfl rfl rfl rfl rfl rfl rfl) (fun _ hw => hw) (by simp)
  | @noGrab w timer => exact h.idle hinv hsame (fun _ hw => hw) (by cases timer <;> simp)
  | cancelTimer => exact h.idle hinv (.same rfl rfl rfl rfl rfl rfl rfl) (fun _ hw => hw) (by simp)
  | noTimer => exact h.idle hinv hsame (fun _ hw => hw) (by simp)
  | unbound hbound =>
    refine h.onward hinv hsame (fun _ hw => hw) (fun _ hp => Multiset.mem_cons_of_mem hp) ?_
    intro w timer hmem e he
    obtain ⟨rfl, -, -⟩ := World.cancelEnd.inj (List.mem_singleton.mp hmem)
    exact h.unbound _ hbound e (.inr he)
  | scan => exact h.scan hinv hsame rfl hinv
  | @remove w timer e he hitem =>
    exact h.scan hinv (.unqueue e) rfl (hinv.unqueue he hitem)
  | lookAgain =>
    exact h.scan hinv (hsame.counters q.curPosted (q.waiting - 1)) rfl (hinv.idle _ _ _ _ _)
  | cancelEnd => exact h.idle hinv (.same rfl rfl rfl rfl rfl rfl rfl) (fun _ hw => hw) (by simp)
  | retry => exact h.idle hinv hsame (fun _ hw => hw) (by simp)
  | flush =>
    exact h.idle hinv ⟨fun _ he => he, fun _ _ he => .inl he, fun _ _ _ htr => htr, rfl, rfl,
      fun _ hn => hn, Nat.le_succ _⟩ (fun _ hw => hw) (by simp)
  | await => exact h.idle hinv hsame (fun _ hw => hw) (by simp)
  | @drain n => exact h.drain hinv hsame (fun _ hw => hw)
  | @drainAgain n =>
    exact h.drain hinv (hsame.counters q.curPosted (q.waiting - 1)) (fun _ hw => hw)
  | unlock => exact h.idle hinv (.same rfl rfl rfl rfl rfl rfl rfl) (fun _ hw => hw) (by simp)

theorem begin_settled {ev : WorkEvent W} (hinv : Inv q (holdings rest)) (h : Settled q rest)
    (hbegin : q.begin ev = some (q', ps)) : Settled q' (ps + rest) := by
  have hnew : Onward q q' ∧ q'.bound = q.bound ∧ ∀ w timer, World.cancelEnd w timer true ∉ ps := by
    cases ev with
    | queueWork w | queueDelayedWork w | delayedWorkTimer w | delayTimer | helper =>
      simp only [begin] at hbegin
      split at hbegin <;> cases hbegin <;>
        exact ⟨.same rfl rfl rfl rfl rfl rfl rfl, rfl, by simp⟩
    | cancelWorkSync w timer | flushWorkqueue =>
      cases hbegin
      exact ⟨.same rfl rfl rfl rfl rfl rfl rfl, rfl, by simp⟩
  obtain ⟨hon, hbound, hps⟩ := hnew
  exact h.onward hinv hon (fun _ hw => hbound ▸ hw) (fun _ hp => hp) fun w timer hmem =>
    absurd hmem (hps w timer)

theorem settled_run {singlethread : Bool} {pcpus : Nat} {r : WorkState W}
    {es : List (PoolEvent (World W) (WorkEvent W) Bool)}
    (hrun : Run WorkStep (.created singlethread pcpus) es r) :
    Program.Holds (fun q ws => Inv q (holdings ws) ∧ Settled q ws) r := by
  refine Program.keeps_run ?_ ?_ ?_ hrun
  · rintro q ws ev q' ps ⟨hinv, h⟩ hbegin
    refine ⟨?_, begin_settled hinv h hbegin⟩
    rw [holdings, total_add, total_coe]
    exact begin_inv hinv (begins_of_begin hbegin)
  · rintro q p rest submitted o ⟨hinv, h⟩ hmove
    have hinv' := hinv
    rw [holdings, total_cons] at hinv'
    obtain ⟨q', ps, rfl, hmoves⟩ := move_ok hinv' hmove
    refine ⟨q', ps, rfl, ?_, hmoves.settled hinv h⟩
    rw [holdings, total_add, total_coe]
    exact hmoves.inv hinv' (card_taking_le rest)
  · refine ⟨inv_created singlethread pcpus, fun w timer hmem => ?_, fun w _ e he => ?_⟩
    · exact absurd hmem (Multiset.notMem_zero _)
    · rcases he with he | ⟨tr, he⟩ <;> cases he

end Settling

/-! ## What a call does -/

section Calls

variable [DecidableEq W] {q q' : Workqueue W} {d : Holding W} {p : World W}
  {ps : List (World W)} {w : W} {timer got submitted : Bool} {q₁ : Workqueue W}

theorem vmkAssert_bind_eq_ok {cond : Prop} [Decidable cond] {a : WorkAssert} {α : Type} {x : α}
    {k : Unit → Except WorkAssert α} (h : (vmkAssert cond a >>= k) = .ok x) : k () = .ok x := by
  by_cases hc : cond
  · rwa [vmkAssert_bind hc] at h
  · rw [vmkAssert, if_neg hc] at h
    cases h

/-- A step of a call: what it took the item off, and `ret`. -/
structure CancelMove (q : Workqueue W) (p : World W) (w : W) (q' : Workqueue W)
    (ps : List (World W)) : Prop where
  next : ps = [] ∨ ∃ p', ps = [p'] ∧ p'.cancels = some w
  ret : q.setsRet p = (q.takenOff q' w || q.stopped q' w)
  lowered : (q.qLen - q'.qLen).toNat = if q.takenOff q' w then 1 else 0

theorem CancelMove.same (hnext : ps = [] ∨ ∃ p', ps = [p'] ∧ p'.cancels = some w)
    (hret : q.setsRet p = false) (hhead : q'.head = q.head) (hlen : q'.qLen = q.qLen)
    (htimer : q'.timer = q.timer) : CancelMove q p w q' ps := by
  have htaken : q.takenOff q' w = false := by
    simp [takenOff, Workqueue.OnQueue, hhead]
  have hstopped : q.stopped q' w = false := by simp [stopped, htimer]
  refine ⟨hnext, ?_, ?_⟩
  · rw [hret, htaken, hstopped]
    rfl
  · rw [htaken, hlen, sub_self]
    rfl

theorem scan_next (hscan : q₁.scan w timer got = (q', ps)) :
    (ps = [] ∨ ∃ p', ps = [p'] ∧ p'.cancels = some w) ∧ ∃ waiting, q' = { q₁ with waiting } := by
  obtain ⟨waiting, hq⟩ := scan_fst (q := q₁) w timer got
  rw [hscan] at hq
  refine ⟨?_, waiting, hq⟩
  unfold Workqueue.scan at hscan
  split at hscan
  · exact .inr ⟨_, (congrArg Prod.snd hscan).symm, rfl⟩
  · exact .inr ⟨_, (congrArg Prod.snd hscan).symm, rfl⟩

theorem CancelMove.scan (hscan : q₁.scan w timer got = (q', ps)) (hret : q.setsRet p = false)
    (hhead : q₁.head = q.head) (hlen : q₁.qLen = q.qLen) (htimer : q₁.timer = q.timer) :
    CancelMove q p w q' ps := by
  obtain ⟨hnext, waiting, rfl⟩ := scan_next hscan
  exact .same hnext hret hhead hlen htimer

theorem cancelMove_look (hinv : Inv q ((World.look w timer got).holding + d))
    (hlook : q.look w timer got = .ok (q', ps)) :
    CancelMove q (.look w timer got) w q' ps := by
  unfold Workqueue.look at hlook
  split at hlook
  · next hbound =>
    cases hlook
    exact .same (.inr ⟨_, rfl, rfl⟩) (by simp [setsRet, hbound]) rfl rfl rfl
  · next hbound =>
    split at hlook
    · next hfind =>
      have hoff : ¬q.OnQueue (.work w) := by
        intro hon
        obtain ⟨e, he, hitem⟩ := List.mem_map.mp hon
        exact List.find?_eq_none.mp hfind e he (by simpa using hitem)
      exact .scan (Except.ok.inj hlook) (by simp [setsRet, hoff]) rfl rfl rfl
    · next e hfind =>
      have he := List.mem_of_find?_eq_some hfind
      have hitem : e.item = .work w := by simpa using List.find?_some hfind
      have hon : q.OnQueue (.work w) := List.mem_map.mpr ⟨e, he, hitem⟩
      have hpending : q.pending (.work w) = true := (hinv.tokens.of_mem hon).1
      rw [if_pos hpending] at hlook
      obtain ⟨hnext, waiting, rfl⟩ :=
        scan_next (Except.ok.inj (vmkAssert_bind_eq_ok (vmkAssert_bind_eq_ok hlook)))
      -- the item was there once
      have hoff : ¬(q.unqueue e).OnQueue (.work w) := (hinv.unqueue he hitem).tokens.of_cons.2.1
      have htaken : q.takenOff { q.unqueue e with waiting } w = true := by
        have hoff' : ¬Workqueue.OnQueue { q.unqueue e with waiting } (.work w) := hoff
        simp [takenOff, hon, hoff']
      refine ⟨hnext, ?_, ?_⟩
      · rw [htaken]
        simp [setsRet, hbound, hon, hpending]
      · rw [htaken]
        show (q.qLen - (q.qLen - 1)).toNat = 1
        rw [sub_sub_cancel]
        rfl

theorem cancelMove_of_move (hinv : Inv q (p.holding + d)) (hp : p.cancels = some w)
    (hmove : q.move p submitted = some (.ok (q', ps))) : CancelMove q p w q' ps := by
  cases p with
  | cancel v timer =>
    cases hp
    simp only [move] at hmove
    split at hmove
    · cases hmove
      exact .same (.inr ⟨_, rfl, rfl⟩) rfl rfl rfl rfl
    · cases hmove
      refine .same (.inr ⟨_, rfl, ?_⟩) rfl rfl rfl rfl
      split <;> rfl
  | cancelTimer v =>
    cases hp
    simp only [move] at hmove
    split at hmove
    · next htimer =>
      have hok := vmkAssert_bind_eq_ok (Option.some.inj hmove)
      cases hok
      refine ⟨.inr ⟨_, rfl, rfl⟩, ?_, ?_⟩
      · simp [setsRet, stopped, htimer]
      · simp [takenOff, Workqueue.OnQueue]
    · next htimer =>
      cases hmove
      exact .same (.inr ⟨_, rfl, rfl⟩) (Bool.eq_false_iff.mpr htimer) rfl rfl rfl
  | look v timer got =>
    cases hp
    exact cancelMove_look hinv (Option.some.inj hmove)
  | lookAgain v timer got =>
    cases hp
    exact .scan (Except.ok.inj (Option.some.inj hmove)) rfl rfl rfl rfl
  | cancelEnd v timer got =>
    cases hp
    cases got with
    | true =>
      cases hmove
      exact .same (.inl rfl) rfl rfl rfl rfl
    | false =>
      cases hmove
      exact .same (.inr ⟨_, rfl, rfl⟩) rfl rfl rfl rfl
  | _ => cases hp

end Calls

/-! ## What calls return -/

def Caller.calls : Caller W → Multiset Nat
  | .cancel call _ => {call}
  | _ => 0

abbrev callsOf (ws : Multiset (World W × Caller W)) : Multiset Nat := total (fun x => x.2.calls) ws

def History.Took (g : History W) (call : Nat) : Prop :=
  call ∈ g.fromQueue ∨ call ∈ g.fromTimer

structure Calls (g : History W) (ws : Multiset (World W × Caller W)) : Prop where
  worlds : ∀ p call ret, (p, Caller.cancel call ret) ∈ ws → p.cancels ≠ none
  nodup : (callsOf ws + (g.returned.map Prod.fst : List Nat)).Nodup
  fresh : ∀ call, call ∈ callsOf ws + (g.returned.map Prod.fst : List Nat) ∨ g.Took call →
    call < g.calls
  ret : ∀ p call ret, (p, Caller.cancel call ret) ∈ ws → (ret = true ↔ g.Took call)
  returned : ∀ x ∈ g.returned, x.2 = true ↔ g.Took x.1
  lowered : g.lowered = g.fromQueue

section Returns

variable {g : History W} {ws rest : Multiset (World W × Caller W)} {call : Nat}
  {ret : Bool} {p p' : World W} {ps : List (World W)} {caller : Caller W}

abbrev frames (ps : List (World W)) (caller : Caller W) : Multiset (World W × Caller W) :=
  (ps.map fun p => (p, caller) : List (World W × Caller W))

theorem callsOf_frames (hcaller : caller.calls = 0) (ps : List (World W))
    (rest : Multiset (World W × Caller W)) : callsOf (frames ps caller + rest) = callsOf rest := by
  rw [callsOf, total_add, total_eq_zero, zero_add]
  intro x hx
  obtain ⟨p, -, rfl⟩ := List.mem_map.mp hx
  exact hcaller

theorem mem_callsOf (hmem : (p, Caller.cancel call ret) ∈ ws) : call ∈ callsOf ws :=
  mem_total.mpr ⟨_, hmem, Multiset.mem_singleton_self call⟩

theorem callsOf_cons (p : World W) (call : Nat) (ret : Bool)
    (rest : Multiset (World W × Caller W)) :
    callsOf ((p, .cancel call ret) ::ₘ rest) = call ::ₘ callsOf rest := by
  rw [callsOf, total_cons, Caller.calls, Multiset.singleton_add]

theorem Calls.idle (h : Calls g ws) (handlers : W → Nat) (hcaller : caller.calls = 0)
    (hrest : ∀ x ∈ rest, x ∈ ws) (hcalls : callsOf rest = callsOf ws) :
    Calls { g with handlers } (frames ps caller + rest) := by
  have hmem : ∀ p call ret, (p, Caller.cancel call ret) ∈ frames ps caller + rest →
      (p, Caller.cancel call ret) ∈ ws := by
    intro p call ret hp
    rcases Multiset.mem_add.mp hp with hp | hp
    · obtain ⟨p', -, heq⟩ := List.mem_map.mp hp
      rw [(Prod.mk.inj heq).2] at hcaller
      exact absurd hcaller (Multiset.singleton_ne_zero call)
    · exact hrest _ hp
  refine ⟨fun p call ret hp => h.worlds p call ret (hmem p call ret hp), ?_, ?_,
    fun p call ret hp => h.ret p call ret (hmem p call ret hp), h.returned, h.lowered⟩
  · rw [callsOf_frames hcaller, hcalls]
    exact h.nodup
  · rw [callsOf_frames hcaller, hcalls]
    exact h.fresh

theorem Calls.start (h : Calls g ws) (w : W) (timer : Bool) :
    Calls { g with calls := g.calls + 1 } ((.cancel w timer, .cancel g.calls false) ::ₘ ws) := by
  have hcalls := callsOf_cons (.cancel w timer) g.calls false ws
  refine ⟨fun p call ret hp => ?_, ?_, fun call hcall => ?_, fun p call ret hp => ?_, h.returned,
    h.lowered⟩
  · rcases Multiset.mem_cons.mp hp with heq | hp
    · obtain ⟨rfl, -⟩ := Prod.mk.inj heq
      exact Option.some_ne_none w
    · exact h.worlds p call ret hp
  · rw [hcalls, Multiset.cons_add, Multiset.nodup_cons]
    exact ⟨fun hmem => absurd (h.fresh _ (.inl hmem)) (lt_irrefl _), h.nodup⟩
  · rw [hcalls, Multiset.cons_add, Multiset.mem_cons] at hcall
    rcases hcall with (rfl | hcall) | hcall
    · exact Nat.lt_succ_self _
    · exact Nat.lt_succ_of_lt (h.fresh call (.inl hcall))
    · exact Nat.lt_succ_of_lt (h.fresh call (.inr hcall))
  · rcases Multiset.mem_cons.mp hp with heq | hp
    · obtain ⟨-, heq⟩ := Prod.mk.inj heq
      obtain ⟨rfl, rfl⟩ := Caller.cancel.inj heq
      exact iff_of_false nofun fun htook => absurd (h.fresh _ (.inr htook)) (lt_irrefl _)
    · exact h.ret p call ret hp

variable [DecidableEq W] {q q' : Workqueue W} {w : W}

theorem History.took_record (g : History W) (call : Nat) (w : W) (q q' : Workqueue W) (k : Nat) :
    (g.record call w q q').Took k ↔
      g.Took k ∨ k = call ∧ (q.takenOff q' w || q.stopped q' w) = true := by
  cases htaken : q.takenOff q' w <;> cases hstopped : q.stopped q' w <;>
    simp [History.record, History.Took, htaken, hstopped] <;> tauto

theorem History.lowered_record (hmove : CancelMove q p w q' ps)
    (hlowered : g.lowered = g.fromQueue) :
    (g.record call w q q').lowered = (g.record call w q q').fromQueue := by
  simp only [History.record, hlowered, hmove.lowered]
  cases q.takenOff q' w <;> rfl

theorem Calls.record (h : Calls g ((p, .cancel call ret) ::ₘ rest))
    (hmove : CancelMove q p w q' ps) :
    (∀ k, k ∈ callsOf rest + (g.returned.map Prod.fst : List Nat) →
        k ≠ call ∧ ((g.record call w q q').Took k ↔ g.Took k)) ∧
      ((ret || q.setsRet p) = true ↔ (g.record call w q q').Took call) := by
  have hnodup := h.nodup
  rw [callsOf, total_cons, Caller.calls, Multiset.singleton_add, Multiset.cons_add,
    Multiset.nodup_cons] at hnodup
  refine ⟨fun k hk => ?_, ?_⟩
  · have hne : k ≠ call := fun heq => hnodup.1 (heq ▸ hk)
    refine ⟨hne, ?_⟩
    rw [History.took_record]
    exact or_iff_left fun hnew => hne hnew.1
  · rw [History.took_record, hmove.ret, Bool.or_eq_true,
      h.ret p call ret (Multiset.mem_cons_self _ _)]
    simp only [true_and]

theorem Calls.next (h : Calls g ((p, .cancel call ret) ::ₘ rest))
    (hmove : CancelMove q p w q' [p']) (hp' : p'.cancels = some w) :
    Calls (g.record call w q q') ((p', .cancel call (ret || q.setsRet p)) ::ₘ rest) := by
  obtain ⟨hothers, hself⟩ := h.record hmove
  refine ⟨fun p'' k ret' hmem => ?_, ?_, fun k hk => ?_, fun p'' k ret' hmem => ?_, fun x hx => ?_,
    History.lowered_record hmove h.lowered⟩
  · rcases Multiset.mem_cons.mp hmem with heq | hmem
    · obtain ⟨rfl, -⟩ := Prod.mk.inj heq
      rw [hp']
      exact Option.some_ne_none w
    · exact h.worlds p'' k ret' (Multiset.mem_cons_of_mem hmem)
  · have hnodup := h.nodup
    rw [callsOf_cons] at hnodup ⊢
    exact hnodup
  · have hfresh := h.fresh k
    rw [callsOf_cons] at hk hfresh
    rcases hk with hk | hk
    · exact hfresh (.inl hk)
    · rw [History.took_record] at hk
      rcases hk with hk | ⟨rfl, -⟩
      · exact hfresh (.inr hk)
      · exact hfresh (.inl (by simp))
  · rcases Multiset.mem_cons.mp hmem with heq | hmem
    · obtain ⟨-, heq⟩ := Prod.mk.inj heq
      obtain ⟨rfl, rfl⟩ := Caller.cancel.inj heq
      exact hself
    · have hk := (hothers k (Multiset.mem_add.mpr (.inl (mem_callsOf hmem)))).2
      exact (h.ret p'' k ret' (Multiset.mem_cons_of_mem hmem)).trans hk.symm
  · have hk := (hothers x.1 (Multiset.mem_add.mpr (.inr (List.mem_map_of_mem hx)))).2
    exact (h.returned x hx).trans hk.symm

theorem Calls.leave (h : Calls g ((p, .cancel call ret) ::ₘ rest))
    (hmove : CancelMove q p w q' []) :
    Calls { g.record call w q q' with
      returned := g.returned ++ [(call, ret || q.setsRet p)] } rest := by
  obtain ⟨hothers, hself⟩ := h.record hmove
  have hcalls : callsOf rest +
      (((g.returned ++ [(call, ret || q.setsRet p)]).map Prod.fst : List Nat) : Multiset Nat) =
      call ::ₘ (callsOf rest + (g.returned.map Prod.fst : List Nat)) := by
    rw [List.map_append, ← Multiset.coe_add, ← add_assoc, add_comm, List.map_singleton,
      Multiset.coe_singleton, Multiset.singleton_add]
  have hnodup := h.nodup
  have hfresh := h.fresh
  rw [callsOf_cons, Multiset.cons_add] at hnodup hfresh
  refine ⟨fun p'' k ret' hmem => h.worlds p'' k ret' (Multiset.mem_cons_of_mem hmem), ?_,
    fun k hk => ?_, fun p'' k ret' hmem => ?_, fun x hx => ?_,
    History.lowered_record hmove h.lowered⟩
  · rw [hcalls]
    exact hnodup
  · rw [hcalls] at hk
    rcases hk with hk | hk
    · exact hfresh k (.inl hk)
    · have hk' : (g.record call w q q').Took k := hk
      rw [History.took_record] at hk'
      rcases hk' with hk' | ⟨rfl, -⟩
      · exact hfresh k (.inr hk')
      · exact hfresh k (.inl (Multiset.mem_cons_self _ _))
  · have hk := (hothers k (Multiset.mem_add.mpr (.inl (mem_callsOf hmem)))).2
    exact (h.ret p'' k ret' (Multiset.mem_cons_of_mem hmem)).trans hk.symm
  · rcases List.mem_append.mp hx with hx | hx
    · have hk := (hothers x.1 (Multiset.mem_add.mpr (.inr (List.mem_map_of_mem hx)))).2
      exact (h.returned x hx).trans hk.symm
    · obtain rfl := List.mem_singleton.mp hx
      exact hself

end Returns

/-! ## Runs -/

section Runs

variable [DecidableEq W] {s t : CancelState W} {singlethread : Bool} {pcpus : Nat}
  {es : List (PoolEvent (World W × Caller W) (WorkEvent W) Bool)} {g : History W}
  {ps : List (World W)}

theorem settled_of_cancel_run (hrun : Run CancelStep (.created singlethread pcpus) es s) :
    Program.Holds (fun q ws => Inv q (holdings ws) ∧ Settled q ws) (Program.forget s) :=
  settled_run (Program.forget_run hrun)

theorem calls_begin {ws : Multiset (World W × Caller W)} {q q' : Workqueue W} {ev : WorkEvent W}
    (h : Calls g ws) (hbegin : q.begin ev = some (q', ps)) :
    Calls (cancelFraming.start g ev).1 (frames ps (cancelFraming.start g ev).2 + ws) := by
  have hidle : ∀ handlers, ∀ caller : Caller W, caller.calls = 0 →
      Calls { g with handlers } (frames ps caller + ws) := fun handlers caller hcaller =>
    h.idle handlers hcaller (fun _ hx => hx) rfl
  cases ev with
  | cancelWorkSync w timer =>
    obtain ⟨-, rfl⟩ := Prod.mk.inj (Option.some.inj hbegin)
    exact h.start w timer
  | delayedWorkTimer w => exact hidle _ _ rfl
  | _ => exact hidle g.handlers _ rfl

theorem calls_move {rest : Multiset (World W × Caller W)} {q q' : Workqueue W} {d : Holding W}
    {p : World W} {caller : Caller W} {submitted : Bool} (h : Calls g ((p, caller) ::ₘ rest))
    (hinv : Inv q (p.holding + d)) (hmove : q.move p submitted = some (.ok (q', ps))) :
    Calls (cancelFraming.next g caller q p q' ps).1
      (frames ps (cancelFraming.next g caller q p q' ps).2 + rest) := by
  have hidle : ∀ handlers, caller.calls = 0 →
      Calls { g with handlers } (frames ps caller + rest) := fun handlers hcaller => by
    refine h.idle handlers hcaller (fun _ hx => Multiset.mem_cons_of_mem hx) ?_
    rw [callsOf, callsOf, total_cons, hcaller, zero_add]
  cases caller with
  | other => exact hidle g.handlers rfl
  | timer w =>
    simp only [cancelFraming]
    split
    · exact hidle _ rfl
    · exact hidle g.handlers rfl
  | cancel call ret =>
    obtain ⟨w, hw⟩ := Option.ne_none_iff_exists'.mp
      (h.worlds p call ret (Multiset.mem_cons_self _ _))
    have hcancel := cancelMove_of_move hinv hw hmove
    simp only [cancelFraming, hw, Option.elim_some]
    rcases hcancel.next with rfl | ⟨p', rfl, hp'⟩
    · rw [if_pos rfl, frames, List.map_nil, Multiset.coe_nil, zero_add]
      exact h.leave hcancel
    · rw [if_neg (List.cons_ne_nil p' [])]
      exact h.next hcancel hp'

theorem calls_step (hinv : Program.Holds (fun q ws => Inv q (holdings ws)) (Program.forget s))
    (h : Program.Holds (fun x ws => Calls x.2 ws) s) {e : PoolEvent _ (WorkEvent W) Bool}
    (hstep : CancelStep s e t) : Program.Holds (fun x ws => Calls x.2 ws) t := by
  have hinv' := inv_step hinv (Program.forget_step hstep)
  rcases Program.step_cases hstep with ⟨p, ev, u, ps, rfl, rfl, hbegin, rfl⟩ |
    ⟨⟨q, g⟩, ⟨p, caller⟩, b, rest, o, rfl, rfl, hmove, rfl⟩
  · obtain ⟨⟨q', qs⟩, hbase, heq⟩ := Option.map_eq_some_iff.mp hbegin
    cases heq
    exact calls_begin h hbase
  · obtain ⟨-, hmove⟩ := Option.ite_none_right_eq_some.mp hmove
    obtain ⟨o', hbase, rfl⟩ := Option.map_eq_some_iff.mp hmove
    have hpre : Inv q (holdings (((p, caller) ::ₘ rest).map Prod.fst)) := hinv
    rw [Multiset.map_cons, holdings, total_cons] at hpre
    obtain ⟨q', ps, rfl, -⟩ := move_ok hpre hbase
    exact calls_move h hpre hbase

theorem calls_run (hrun : Run CancelStep (.created singlethread pcpus) es s) :
    ∃ p, s = .ok p ∧ Inv p.shared.1 (holdings (p.active.map Prod.fst)) ∧
      Settled p.shared.1 (p.active.map Prod.fst) ∧ Calls p.shared.2 p.active := by
  have hcalls : Program.Holds (fun q ws => Inv q (holdings ws)) (Program.forget s) ∧
      Program.Holds (fun x ws => Calls x.2 ws) s := by
    refine hrun.invariant (I := fun s =>
      Program.Holds (fun q ws => Inv q (holdings ws)) (Program.forget s) ∧
        Program.Holds (fun x ws => Calls x.2 ws) s) ?_ ?_
    · rintro s e t ⟨hinv, h⟩ hstep
      exact ⟨inv_step hinv (Program.forget_step hstep), calls_step hinv h hstep⟩
    · exact ⟨inv_created singlethread pcpus, by simp, by simp, by simp [History.Took], by simp,
        nofun, rfl⟩
  have hbase := settled_of_cancel_run hrun
  cases s with
  | ok p => exact ⟨p, rfl, hbase.1, hbase.2, hcalls.2⟩
  | error a => exact hcalls.1.elim

end Runs

def World.Executes (w : W) : World W → Prop
  | .take e _ | .call e _ | .done e _ => e.item = .work w
  | _ => False

structure Cancelled [DecidableEq W] (p : Pool (Workqueue W × History W) (World W × Caller W))
    (w : W) : Prop where
  queue : ¬p.shared.1.OnQueue (.work w)
  timer : p.shared.1.timer w = false
  handler : ∀ flush caller, (World.queue (.work w) flush, caller) ∉ p.active
  function : ∀ x ∈ p.active, ¬x.1.Executes w

theorem mem_trackers {x : Entry W × Nat} {ws : Multiset (World W)} :
    x ∈ (holdings ws).trackers ↔ ∃ p ∈ ws, x ∈ p.holding.trackers := by
  induction ws using Multiset.induction_on with
  | empty => simp [Holding.zero_def]
  | cons p ws ih => simp [Holding.add_def, ih]

theorem World.Executes.holds {p : World W} {w : W} (h : p.Executes w) :
    ∃ x ∈ p.holding.trackers, x.1.item = .work w := by
  cases p with
  | take e tr | call e tr | done e tr => exact ⟨(e, tr), Multiset.mem_singleton_self _, h⟩
  | _ => exact h.elim

section Promised

variable [DecidableEq W]

/-- **Cancellation**: when a call clears the pending bit, the item is on no queue and no timer, no
    handler is about to queue it and no world is in its function; `qLen` was lowered by the calls
    that took it off the queue, and 1 is returned by those that took it off the queue or its
    timer. -/
theorem cancel_work_sync_complete {s : CancelState W} {singlethread : Bool} {pcpus : Nat}
    {es : List (PoolEvent (World W × Caller W) (WorkEvent W) Bool)}
    (hrun : Run CancelStep (.created singlethread pcpus) es s) :
    ∃ p, s = .ok p ∧
      (∀ w timer caller, (.cancelEnd w timer true, caller) ∈ p.active → Cancelled p w) ∧
      p.shared.2.lowered = p.shared.2.fromQueue ∧
      ∀ x ∈ p.shared.2.returned, x.2 = true ↔ p.shared.2.Took x.1 := by
  obtain ⟨p, rfl, hinv, hsettled, hcalls⟩ := calls_run hrun
  refine ⟨p, rfl, fun w timer caller hmem => ?_, hcalls.lowered, hcalls.returned⟩
  -- the pending bit is with the call
  have hend : World.cancelEnd w timer true ∈ p.active.map Prod.fst := Multiset.mem_map_of_mem _ hmem
  obtain ⟨rest, hrest⟩ := Multiset.exists_cons_of_mem hend
  have hbits := hinv
  rw [hrest, holdings, total_cons] at hbits
  obtain ⟨-, hqueue, htimer, hnone⟩ := hbits.tokens.of_cons
  refine ⟨hqueue, ?_, fun flush caller' hqueue => ?_, fun x hx hexec => ?_⟩
  · simpa [timerBit] using htimer
  · have hqueue' : World.queue (.work w) flush ∈ p.active.map Prod.fst :=
      Multiset.mem_map_of_mem _ hqueue
    rw [hrest, Multiset.mem_cons] at hqueue'
    exact hnone (mem_bits.mpr ⟨_, hqueue'.resolve_left (by simp), Multiset.mem_singleton_self _⟩)
  · obtain ⟨⟨e, tr⟩, he, hitem⟩ := hexec.holds
    have hheld := mem_trackers.mpr ⟨x.1, Multiset.mem_map_of_mem _ hx, he⟩
    exact hsettled.ended w timer hend e ⟨tr, (hinv.trackers.executing tr e).mpr hheld⟩ hitem

end Promised

def delayedRun : List (PoolEvent (World Nat × Caller Nat) (WorkEvent Nat) Bool) :=
  [.begin (.queueDelayedWork 0), .move (.delay 0, .other) true, .begin (.cancelWorkSync 0 true),
    .move (.cancel 0 true, .cancel 0 false) true, .move (.cancelTimer 0, .cancel 0 false) true,
    .move (.look 0 true true, .cancel 0 true) true]

theorem cancel_work_sync_complete_delayed : ∃ s, Run CancelStep (.created false 1) delayedRun s ∧
    ∃ p, s = .ok p ∧ Cancelled p 0 ∧ p.shared.2.Took 0 := by
  have hexec : ∃ p, Run.exec ((workqueueProgram Nat).framed cancelFraming).next?
      (CancelState.created false 1) delayedRun = some (.ok p) ∧
      (.cancelEnd 0 true true, .cancel 0 true) ∈ p.active ∧ 0 ∈ p.shared.2.fromTimer :=
    ⟨_, rfl, by decide, by decide⟩
  obtain ⟨p, hp, hend, htook⟩ := hexec
  have hrun : Run CancelStep (.created false 1) delayedRun (.ok p) :=
    Run.of_exec (fun _ _ _ h => h) hp
  obtain ⟨p', heq, hcancelled, -⟩ := cancel_work_sync_complete hrun
  cases heq
  exact ⟨_, hrun, p, rfl, hcancelled 0 true _ hend, .inr htook⟩

/-- The function queues its item again with a delay; the call looks for the timer before it is
    armed, and takes the item off the queue when the handler has just put it there. -/
def handlerRun : List (PoolEvent (World Nat × Caller Nat) (WorkEvent Nat) Bool) :=
  [.begin (.queueWork 0), .move (.queue (.work 0) none, .other) true,
    .move (.post 1 none, .other) true, .move (.post 0 none, .other) true, .begin .helper,
    .move (.callout, .other) true, .move (.take ⟨.work 0, 0⟩ 7, .other) true,
    .begin (.queueDelayedWork 0), .begin (.cancelWorkSync 0 true),
    .move (.cancel 0 true, .cancel 0 false) true, .move (.cancelTimer 0, .cancel 0 false) true,
    .move (.delay 0, .other) true, .move (.call ⟨.work 0, 0⟩ 7, .other) true,
    .move (.done ⟨.work 0, 0⟩ 7, .other) true, .begin (.delayedWorkTimer 0),
    .move (.queue (.work 0) none, .timer 0) true, .move (.look 0 true false, .cancel 0 false) true]

/-- The pending bit is about to be cleared, and the handler is under way. -/
theorem cancel_beside_handler : ∃ p, Run CancelStep (.created false 1) handlerRun (.ok p) ∧
    (.cancelEnd 0 true true, .cancel 0 true) ∈ p.active ∧
      (.post 1 none, .timer 0) ∈ p.active ∧ p.shared.2.handlers 0 = 1 := by
  have hexec : ∃ p, Run.exec ((workqueueProgram Nat).framed cancelFraming).next?
      (CancelState.created false 1) handlerRun = some (.ok p) ∧
      (.cancelEnd 0 true true, .cancel 0 true) ∈ p.active ∧
      (.post 1 none, .timer 0) ∈ p.active ∧ p.shared.2.handlers 0 = 1 :=
    ⟨_, rfl, by decide, by decide, rfl⟩
  obtain ⟨p, hp, hstate⟩ := hexec
  exact ⟨p, Run.of_exec (fun _ _ _ h => h) hp, hstate⟩

end VmkDrivers.Vmklinux
