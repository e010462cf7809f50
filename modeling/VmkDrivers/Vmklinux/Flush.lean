/-
  VmkDrivers.Vmklinux.Flush

  What `flush_workqueue` waits for (`flush_workqueue_waits`).

  A plunger has a ticket of its own.  When it runs, all earlier tickets are off
  the queue, and the trackers that still execute one of them are moved to
  `trackFlushList`, its own among them (`Passed`).  Later items and trackers do
  not come between, so that a flush that finds the list empty leaves no earlier
  ticket behind (`Drained`).  The mutex is not needed for this.
-/

import VmkDrivers.Vmklinux.Retry

namespace VmkDrivers.Vmklinux

open VmkDrivers.Lib

variable {W : Type}

/-! ## What a plunger leaves behind -/

def Workqueue.Executing (q : Workqueue W) (e : Entry W) : Prop := ∃ tr, q.executing tr = some e

/-- Tickets up to `T` are off the queue, and the trackers that execute one are to be waited for. -/
structure Passed (q : Workqueue W) (T : Nat) : Prop where
  head : ∀ e ∈ q.head, T < e.ticket
  executing : ∀ tr e, q.executing tr = some e → e.ticket ≤ T → tr ∈ q.trackFlushList

/-- Tickets up to `T` are off the queue and the trackers. -/
structure Drained (q : Workqueue W) (T : Nat) : Prop where
  head : ∀ e ∈ q.head, T < e.ticket
  executing : ∀ e, q.Executing e → T < e.ticket

def World.FlushOk (q : Workqueue W) : World W → Prop
  | .queue (.plunger n) _ => q.placed n = none
  | .complete n e _ => q.placed n = some e.ticket ∧ Passed q e.ticket
  | .drain n | .drainAgain n => q.completion n = true
  | .unlock n => ∃ T, q.placed n = some T ∧ Drained q T
  | _ => True

structure Flushes (q : Workqueue W) (ws : Multiset (World W)) : Prop where
  placed : ∀ n T, q.placed n = some T → T < q.queued
  fresh : ∀ n, q.plungers ≤ n → q.placed n = none
  plunger : ∀ e, e ∈ q.head ∨ q.Executing e → ∀ n, e.item = .plunger n →
    q.placed n = some e.ticket
  completion : ∀ n, q.completion n = true → ∃ T, q.placed n = some T ∧ Passed q T
  worlds : ∀ p ∈ ws, p.FlushOk q

structure Onward (q q' : Workqueue W) : Prop where
  head : ∀ e ∈ q'.head, e ∈ q.head
  executing : ∀ tr e, q'.executing tr = some e → q.executing tr = some e ∨ e ∈ q.head
  flushed : ∀ tr e, q'.executing tr = some e → tr ∈ q.trackFlushList → tr ∈ q'.trackFlushList
  placed : q'.placed = q.placed
  queued : q'.queued = q.queued
  completion : ∀ n, q.completion n = true → q'.completion n = true
  plungers : q.plungers ≤ q'.plungers

section Onward

variable {q q' : Workqueue W} {T : Nat}

theorem Onward.same (hhead : q'.head = q.head) (hexecuting : q'.executing = q.executing)
    (hflush : q'.trackFlushList = q.trackFlushList) (hplaced : q'.placed = q.placed)
    (hqueued : q'.queued = q.queued) (hcompletion : q'.completion = q.completion)
    (hplungers : q'.plungers = q.plungers) : Onward q q' :=
  ⟨fun _ he => hhead ▸ he, fun _ _ he => .inl (hexecuting ▸ he), fun _ _ _ htr => hflush ▸ htr,
    hplaced, hqueued, fun _ hn => hcompletion ▸ hn, hplungers.ge⟩

theorem Onward.counters (h : Onward q q') (curPosted waiting : Int) :
    Onward q { q' with curPosted, waiting } :=
  ⟨h.head, h.executing, h.flushed, h.placed, h.queued, h.completion, h.plungers⟩

theorem Passed.onward (h : Passed q T) (hon : Onward q q') : Passed q' T := by
  refine ⟨fun e he => h.head e (hon.head e he), fun tr e he hle => ?_⟩
  rcases hon.executing tr e he with hold | hhead
  · exact hon.flushed tr e he (h.executing tr e hold hle)
  · exact absurd (h.head e hhead) (not_lt.mpr hle)

theorem Drained.onward (h : Drained q T) (hon : Onward q q') : Drained q' T := by
  refine ⟨fun e he => h.head e (hon.head e he), ?_⟩
  rintro e ⟨tr, he⟩
  rcases hon.executing tr e he with hold | hhead
  · exact h.executing e ⟨tr, hold⟩
  · exact h.head e hhead

theorem World.FlushOk.onward {p : World W} (h : p.FlushOk q) (hon : Onward q q') :
    p.FlushOk q' := by
  unfold World.FlushOk at h ⊢
  split at h
  · rw [hon.placed]
    exact h
  · rw [hon.placed]
    exact ⟨h.1, h.2.onward hon⟩
  · exact hon.completion _ h
  · exact hon.completion _ h
  · obtain ⟨T, hT, hdrained⟩ := h
    rw [hon.placed]
    exact ⟨T, hT, hdrained.onward hon⟩
  · trivial

theorem Flushes.onward {ws ws' : Multiset (World W)} (h : Flushes q ws) (hon : Onward q q')
    (hcompletion : ∀ n, q'.completion n = true →
      q.completion n = true ∨ ∃ T, q'.placed n = some T ∧ Passed q' T)
    (hworlds : ∀ p ∈ ws', p ∈ ws ∨ p.FlushOk q') : Flushes q' ws' := by
  refine ⟨?_, ?_, ?_, fun n hn => ?_, fun p hp => ?_⟩
  · rw [hon.placed, hon.queued]
    exact h.placed
  · rw [hon.placed]
    exact fun n hn => h.fresh n (hon.plungers.trans hn)
  · rw [hon.placed]
    rintro e (he | ⟨tr, he⟩)
    · exact h.plunger e (.inl (hon.head e he))
    · rcases hon.executing tr e he with hold | hhead
      · exact h.plunger e (.inr ⟨tr, hold⟩)
      · exact h.plunger e (.inl hhead)
  · rcases hcompletion n hn with hold | hnew
    · obtain ⟨T, hT, hpassed⟩ := h.completion n hold
      rw [hon.placed]
      exact ⟨T, hT, hpassed.onward hon⟩
    · exact hnew
  · rcases hworlds p hp with hold | hnew
    · exact (h.worlds p hold).onward hon
    · exact hnew

end Onward

/-! ## What worlds hold -/

variable {ws : Multiset (World W)}

theorem mem_bits {i : Item W} : i ∈ (holdings ws).bits ↔ ∃ p ∈ ws, i ∈ p.holding.bits := by
  induction ws using Multiset.induction_on with
  | empty => simp [Holding.zero_def]
  | cons p ws ih => simp [Holding.add_def, ih]

theorem mem_running {k : Nat} (h : k ∈ (holdings ws).running) :
    ∃ x ∈ (holdings ws).trackers, x.1.ticket = k := by
  induction ws using Multiset.induction_on with
  | empty => exact absurd h (Multiset.notMem_zero k)
  | cons p ws ih =>
    simp only [holdings, total_cons, Holding.add_def, Multiset.mem_add] at h ⊢
    rcases h with h | h
    · have hp : ∃ x ∈ p.holding.trackers, x.1.ticket = k := by
        unfold World.holding at h ⊢
        split at h <;> simp_all [Holding.zero_def]
      obtain ⟨x, hx, hk⟩ := hp
      exact ⟨x, .inl hx, hk⟩
    · obtain ⟨x, hx, hk⟩ := ih h
      exact ⟨x, .inr hx, hk⟩

/-! ## One step -/

section Steps

variable {q q' : Workqueue W} {p : World W} {rest : Multiset (World W)} {ps : List (World W)}
  {i : Item W} {flush : Option Nat} {T : Nat} {q₀ : Workqueue W} {e : Entry W}

theorem Flushes.next (h : Flushes q (p ::ₘ rest)) (hon : Onward q q')
    (hcompletion : ∀ n, q'.completion n = true →
      q.completion n = true ∨ ∃ T, q'.placed n = some T ∧ Passed q' T)
    (hps : ∀ p' ∈ ps, p'.FlushOk q') :
    Flushes q' (ps + rest) ∧ ∀ n T, q.placed n = some T → q'.placed n = some T := by
  refine ⟨h.onward hon hcompletion fun p' hp' => ?_, fun n T hn => ?_⟩
  · rcases Multiset.mem_add.mp hp' with hp' | hp'
    · exact .inr (hps p' hp')
    · exact .inl (Multiset.mem_cons_of_mem hp')
  · rw [hon.placed]
    exact hn

theorem Flushes.idle (h : Flushes q (p ::ₘ rest)) (hon : Onward q q')
    (hcompletion : q'.completion = q.completion) (hps : ∀ p' ∈ ps, p'.FlushOk q') :
    Flushes q' (ps + rest) ∧ ∀ n T, q.placed n = some T → q'.placed n = some T :=
  h.next hon (fun _ hn => .inl (hcompletion ▸ hn)) hps

theorem resume_flushOk : ∀ p ∈ (Workqueue.resume flush : List (World W)), p.FlushOk q := by
  intro p hp
  cases flush with
  | none => cases hp
  | some n =>
    obtain rfl := List.mem_singleton.mp hp
    trivial

theorem Dispatched.onward (hd : Dispatched q flush q' ps) (hon : Onward q₀ q) :
    Onward q₀ q' ∧ q'.completion = q.completion ∧ ∀ p ∈ ps, p.FlushOk q' := by
  cases hd with
  | enough => exact ⟨hon, rfl, resume_flushOk⟩
  | posts d =>
    refine ⟨hon.counters _ _, rfl, fun p hp => ?_⟩
    obtain rfl := List.mem_singleton.mp hp
    trivial

theorem Onward.release (tr : Nat) : Onward q (q.release tr) := by
  refine ⟨fun _ he => he, fun tr' e he => ?_, fun tr' e he htr => ?_, rfl, rfl, fun _ hn => hn,
    le_rfl⟩
  all_goals
    have hne : tr' ≠ tr := by
      rintro rfl
      simp [Workqueue.release] at he
  · exact .inl (by simpa [Workqueue.release, hne] using he)
  · exact (List.mem_erase_of_ne hne).mpr htr

theorem Onward.callout {head : List (Entry W)} {tr : Nat} {free : List Nat}
    (hhead : q.head = e :: head) :
    Onward q (({ q with curPosted := q.curPosted - 1 }.pop head).track e tr free) := by
  refine ⟨fun e' he' => ?_, fun tr' e' he' => ?_, fun _ _ _ htr => htr, rfl, rfl, fun _ hn => hn,
    le_rfl⟩
  · rw [hhead]
    exact List.mem_cons_of_mem e he'
  · by_cases htr : tr' = tr
    · subst htr
      have hee : e = e' := by simpa [Workqueue.track] using he'
      rw [hhead, hee]
      exact .inr (List.mem_cons_self ..)
    · exact .inl (by simpa [Workqueue.track, Workqueue.pop, htr] using he')

theorem Onward.spliced : Onward q q.spliced :=
  ⟨fun _ he => he, fun _ _ he => .inl he, fun _ _ _ htr => List.mem_append_right _ htr, rfl, rfl,
    fun _ hn => hn, le_rfl⟩

theorem drain_onward (n : Nat) (hon : Onward q₀ q) :
    Onward q₀ (q.drain n).1 ∧ (q.drain n).1.completion = q.completion := by
  obtain ⟨waiting, hq⟩ := drain_fst (q := q) n
  rw [hq]
  exact ⟨hon.counters q.curPosted waiting, rfl⟩

theorem drain_snd {n : Nat} (hpassed : ∃ T, q.placed n = some T ∧ Passed q T)
    (hcompletion : q.completion n = true) : ∀ p ∈ (q.drain n).2, p.FlushOk (q.drain n).1 := by
  intro p hp
  unfold Workqueue.drain at hp ⊢
  split at hp
  · next hempty =>
    obtain rfl := List.mem_singleton.mp hp
    obtain ⟨T, hT, hpassed⟩ := hpassed
    rw [if_pos hempty]
    refine ⟨T, hT, hpassed.head, ?_⟩
    rintro e ⟨tr, he⟩
    by_contra hle
    have hmem := hpassed.executing tr e he (not_lt.mp hle)
    rw [hempty] at hmem
    cases hmem
  · next hempty =>
    obtain rfl := List.mem_singleton.mp hp
    rw [if_neg hempty]
    exact hcompletion

variable [DecidableEq W]

theorem placed_enqueue (i : Item W) (n : Nat) :
    (q.enqueue i).placed n = if i = .plunger n then some q.queued else q.placed n := by
  cases i with
  | work w => rfl
  | plunger m =>
    simp only [Workqueue.enqueue, Function.update_apply, Item.plunger.injEq]
    exact if_congr eq_comm rfl rfl

theorem mem_head_enqueue : e ∈ (q.enqueue i).head ↔ e ∈ q.head ∨ e = ⟨i, q.queued⟩ := by
  simp only [Workqueue.enqueue, List.mem_append, List.mem_singleton]

theorem Passed.enqueue (h : Passed q T) (hT : T < q.queued) : Passed (q.enqueue i) T := by
  refine ⟨fun e he => ?_, h.executing⟩
  rcases mem_head_enqueue.mp he with he | rfl
  · exact h.head e he
  · exact hT

theorem Drained.enqueue (h : Drained q T) (hT : T < q.queued) : Drained (q.enqueue i) T := by
  refine ⟨fun e he => ?_, h.executing⟩
  rcases mem_head_enqueue.mp he with he | rfl
  · exact h.head e he
  · exact hT

theorem placed_enqueue_of_some (h : Flushes q (.queue i flush ::ₘ rest)) {n : Nat}
    (hn : q.placed n = some T) : (q.enqueue i).placed n = some T := by
  rw [placed_enqueue, if_neg, hn]
  rintro rfl
  have hnone : q.placed n = none := h.worlds _ (Multiset.mem_cons_self _ _)
  rw [hnone] at hn
  cases hn

theorem World.FlushOk.enqueue (hinv : Inv q (holdings (.queue i flush ::ₘ rest)))
    (h : Flushes q (.queue i flush ::ₘ rest)) (hp : p ∈ rest) : p.FlushOk (q.enqueue i) := by
  have hok := h.worlds p (Multiset.mem_cons_of_mem hp)
  unfold World.FlushOk at hok ⊢
  split at hok
  · next n flush' =>
    -- the bit of the plunger has one owner
    rw [holdings, total_cons] at hinv
    obtain ⟨-, -, -, hbits⟩ := hinv.tokens.of_cons
    rw [placed_enqueue, if_neg]
    · exact hok
    · rintro rfl
      exact hbits (mem_bits.mpr ⟨_, hp, Multiset.mem_singleton_self _⟩)
  · exact ⟨placed_enqueue_of_some h hok.1, hok.2.enqueue (h.placed _ _ hok.1)⟩
  · exact hok
  · exact hok
  · obtain ⟨T, hT, hdrained⟩ := hok
    exact ⟨T, placed_enqueue_of_some h hT, hdrained.enqueue (h.placed _ _ hT)⟩
  · trivial

theorem Flushes.enqueue (hinv : Inv q (holdings (.queue i flush ::ₘ rest)))
    (h : Flushes q (.queue i flush ::ₘ rest)) : Flushes (q.enqueue i) rest := by
  have hown : q.pending i = true := by
    rw [holdings, total_cons] at hinv
    exact hinv.tokens.of_cons.1
  refine ⟨fun n T hT => ?_, fun n hn => ?_, fun e he n hitem => ?_, fun n hn => ?_, ?_⟩
  · rw [placed_enqueue] at hT
    split at hT
    · cases hT
      exact Nat.lt_succ_self _
    · exact (h.placed n T hT).trans (Nat.lt_succ_self _)
  · rw [placed_enqueue, if_neg]
    · exact h.fresh n hn
    · rintro rfl
      rw [hinv.tokens.fresh n hn] at hown
      cases hown
  · rw [mem_head_enqueue] at he
    rcases he with (he | rfl) | he
    · exact placed_enqueue_of_some h (h.plunger e (.inl he) n hitem)
    · rw [placed_enqueue, if_pos hitem]
    · exact placed_enqueue_of_some h (h.plunger e (.inr he) n hitem)
  · obtain ⟨T, hT, hpassed⟩ := h.completion n hn
    exact ⟨T, placed_enqueue_of_some h hT, hpassed.enqueue (h.placed n T hT)⟩
  · exact fun p hp => World.FlushOk.enqueue hinv h hp

theorem Onward.unqueue (e : Entry W) : Onward q (q.unqueue e) :=
  ⟨fun _ he => List.mem_of_mem_erase he, fun _ _ he => .inl he, fun _ _ _ htr => htr, rfl, rfl,
    fun _ hn => hn, le_rfl⟩

theorem passed_spliced {tr : Nat} {r : Holding W} (hinv : Inv q ((World.call e tr).holding + r)) :
    Passed q.spliced e.ticket := by
  refine ⟨(hinv.tickets.held _ (Multiset.mem_cons_self _ _)).2, fun tr' e' he' _ => ?_⟩
  exact hinv.trackers.mem_used ((hinv.trackers.executing tr' e').mp he')

theorem scan_onward {w : W} {timer got : Bool} (hon : Onward q₀ q) :
    Onward q₀ (q.scan w timer got).1 ∧ (q.scan w timer got).1.completion = q.completion := by
  obtain ⟨waiting, hq⟩ := scan_fst (q := q) w timer got
  rw [hq]
  exact ⟨hon.counters q.curPosted waiting, rfl⟩

theorem scan_snd {w : W} {timer got : Bool} : ∀ p ∈ (q.scan w timer got).2, p.FlushOk q' := by
  intro p hp
  unfold Workqueue.scan at hp
  split at hp
  all_goals
    obtain rfl := List.mem_singleton.mp hp
    trivial

omit [DecidableEq W] in
theorem Onward.complete (n : Nat) (finished : List Nat) : Onward q { q with
    completion := Function.update q.completion n true
    finished } := by
  refine ⟨fun _ he => he, fun _ _ he => .inl he, fun _ _ _ htr => htr, rfl, rfl, fun m hm => ?_,
    le_rfl⟩
  by_cases hmn : m = n
  · subst hmn
    exact Function.update_self ..
  · simpa [hmn] using hm

theorem Moves.flushes (hinv : Inv q (holdings (p ::ₘ rest))) (hmove : Moves q p q' ps)
    (h : Flushes q (p ::ₘ rest)) :
    Flushes q' (ps + rest) ∧ ∀ n T, q.placed n = some T → q'.placed n = some T := by
  have hsame : Onward q q := .same rfl rfl rfl rfl rfl rfl rfl
  have hp := h.worlds p (Multiset.mem_cons_self _ _)
  cases hmove with
  | @queue i flush _ _ hd =>
    obtain ⟨hon, hcompletion, hps⟩ := hd.onward (.same rfl rfl rfl rfl rfl rfl rfl)
    have henq := Flushes.enqueue hinv h
    refine ⟨henq.onward hon (fun _ hn => .inl (hcompletion ▸ hn)) fun p hp => ?_, ?_⟩
    · exact (Multiset.mem_add.mp hp).symm.imp_right (hps p)
    · intro n T hn
      rw [hon.placed]
      exact placed_enqueue_of_some h hn
  | posted => exact h.idle hsame rfl resume_flushOk
  | submitted => exact h.idle (.same rfl rfl rfl rfl rfl rfl rfl) rfl (by simp [World.FlushOk])
  | refused => exact h.idle hsame rfl (by simp [World.FlushOk])
  | arm => exact h.idle (.same rfl rfl rfl rfl rfl rfl rfl) rfl (by simp [World.FlushOk])
  | restore => exact h.idle (.same rfl rfl rfl rfl rfl rfl rfl) rfl resume_flushOk
  | timeout hd =>
    obtain ⟨hon, hcompletion, hps⟩ := hd.onward hsame
    exact h.idle hon hcompletion hps
  | idleCallout => exact h.idle (.same rfl rfl rfl rfl rfl rfl rfl) rfl (by simp)
  | callout hhead hfree => exact h.idle (.callout hhead) rfl (by simp [World.FlushOk])
  | take => exact h.idle (.same rfl rfl rfl rfl rfl rfl rfl) rfl (by simp [World.FlushOk])
  | call => exact h.idle (.same rfl rfl rfl rfl rfl rfl rfl) rfl (by simp [World.FlushOk])
  | @splice e tr n hitem =>
    rw [holdings, total_cons] at hinv
    refine h.idle .spliced rfl fun p hp => ?_
    obtain rfl := List.mem_singleton.mp hp
    -- the plunger is taken off behind all that was queued before it
    have hexecuting : q.executing tr = some e := by
      refine (hinv.trackers.executing tr e).mpr ?_
      simp [World.holding, Holding.add_def]
    exact ⟨h.plunger e (.inr ⟨tr, hexecuting⟩) n hitem, passed_spliced hinv⟩
  | @complete e tr n =>
    obtain ⟨hplaced, hpassed⟩ := hp
    refine h.next (.complete n _) (fun m hm => ?_) (by simp [World.FlushOk])
    -- the flush that this completes, and the others
    by_cases hmn : m = n
    · subst hmn
      exact .inr ⟨e.ticket, hplaced, hpassed.head, hpassed.executing⟩
    · exact .inl (by simpa [hmn] using hm)
  | @done e tr _ _ hd =>
    obtain ⟨hon, hcompletion, hps⟩ := hd.onward (.release tr)
    exact h.idle hon hcompletion hps
  | delay => exact h.idle (.same rfl rfl rfl rfl rfl rfl rfl) rfl (by simp)
  | grab => exact h.idle (.same rfl rfl rfl rfl rfl rfl rfl) rfl (by simp [World.FlushOk])
  | @noGrab w timer => exact h.idle hsame rfl (by cases timer <;> simp [World.FlushOk])
  | cancelTimer => exact h.idle (.same rfl rfl rfl rfl rfl rfl rfl) rfl (by simp [World.FlushOk])
  | noTimer => exact h.idle hsame rfl (by simp [World.FlushOk])
  | unbound => exact h.idle hsame rfl (by simp [World.FlushOk])
  | scan =>
    obtain ⟨hon, hcompletion⟩ := scan_onward hsame
    exact h.idle hon hcompletion scan_snd
  | @remove w timer e =>
    obtain ⟨hon, hcompletion⟩ := scan_onward (Onward.unqueue e)
    exact h.idle hon hcompletion scan_snd
  | lookAgain =>
    obtain ⟨hon, hcompletion⟩ := scan_onward (hsame.counters q.curPosted (q.waiting - 1))
    exact h.idle hon hcompletion scan_snd
  | cancelEnd => exact h.idle (.same rfl rfl rfl rfl rfl rfl rfl) rfl (by simp)
  | retry => exact h.idle hsame rfl (by simp [World.FlushOk])
  | flush =>
    refine h.idle ⟨fun _ he => he, fun _ _ he => .inl he, fun _ _ _ htr => htr, rfl, rfl,
      fun _ hn => hn, Nat.le_succ _⟩ rfl fun p hp => ?_
    obtain rfl := List.mem_singleton.mp hp
    -- the plunger is new, so nothing is known of it yet
    exact h.fresh q.plungers le_rfl
  | await hcomplete =>
    refine h.idle hsame rfl fun p hp => ?_
    obtain rfl := List.mem_singleton.mp hp
    exact hcomplete
  | @drain n =>
    obtain ⟨hon, hcompletion⟩ := drain_onward n hsame
    exact h.idle hon hcompletion (drain_snd (h.completion n hp) hp)
  | @drainAgain n =>
    obtain ⟨hon, hcompletion⟩ := drain_onward n (hsame.counters q.curPosted (q.waiting - 1))
    obtain ⟨T, hT, hpassed⟩ := h.completion n hp
    refine h.idle hon hcompletion (drain_snd ⟨T, hT, hpassed.head, hpassed.executing⟩ hp)
  | unlock => exact h.idle (.same rfl rfl rfl rfl rfl rfl rfl) rfl (by simp)

theorem begin_flushes {ev : WorkEvent W} (hbegin : q.begin ev = some (q', ps))
    (h : Flushes q rest) :
    Flushes q' (ps + rest) ∧ ∀ n T, q.placed n = some T → q'.placed n = some T := by
  have hnew : Onward q q' ∧ q'.completion = q.completion ∧ ∀ p ∈ ps, p.FlushOk q' := by
    cases begins_of_begin hbegin with
    | grab _ hworld =>
      rcases hworld with rfl | rfl
      all_goals exact ⟨.same rfl rfl rfl rfl rfl rfl rfl, rfl, by simp [World.FlushOk]⟩
    | nothing | cancel | flush | expire | delayTimer | helper =>
      exact ⟨.same rfl rfl rfl rfl rfl rfl rfl, rfl, by simp [World.FlushOk]⟩
  obtain ⟨hon, hcompletion, hps⟩ := hnew
  refine ⟨h.onward hon (fun _ hn => .inl (hcompletion ▸ hn)) fun p hp => ?_, fun n T hn => ?_⟩
  · exact (Multiset.mem_add.mp hp).symm.imp_right (hps p)
  · rw [hon.placed]
    exact hn

end Steps

/-! ## Runs -/

section Runs

variable [DecidableEq W]

structure FlushState (placed : Nat → Option Nat) (q : Workqueue W) (ws : Multiset (World W)) :
    Prop where
  inv : Inv q (holdings ws)
  flushes : Flushes q ws
  placed : ∀ n T, placed n = some T → q.placed n = some T

theorem flushState_step {placed : Nat → Option Nat} {r t : WorkState W}
    {e : PoolEvent (World W) (WorkEvent W) Bool} (h : Program.Holds (FlushState placed) r)
    (hstep : WorkStep r e t) : Program.Holds (FlushState placed) t := by
  have hinv : Program.Holds (fun q ws => Inv q (holdings ws)) t := by
    refine inv_step ?_ hstep
    cases r with
    | ok s => exact FlushState.inv h
    | error a => exact h
  rcases Program.step_cases hstep with ⟨s, ev, u, ps, rfl, rfl, hbegin, rfl⟩ |
    ⟨q, p, submitted, rest, o, rfl, rfl, hmove, rfl⟩
  · obtain ⟨-, hflushes, hplaced⟩ := h
    obtain ⟨hflushes', hkeep⟩ := begin_flushes hbegin hflushes
    exact ⟨hinv, hflushes', fun n T hn => hkeep n T (hplaced n T hn)⟩
  · obtain ⟨hq, hflushes, hplaced⟩ : FlushState placed q (p ::ₘ rest) := h
    obtain ⟨q', ps, rfl, hmoves⟩ : ∃ q' ps, o = .ok (q', ps) ∧ Moves q p q' ps := by
      rw [holdings, total_cons] at hq
      exact move_ok hq hmove
    obtain ⟨hflushes', hkeep⟩ := hmoves.flushes hq hflushes
    exact ⟨hinv, hflushes', fun n T hn => hkeep n T (hplaced n T hn)⟩

theorem flushState_created (singlethread : Bool) (pcpus : Nat) :
    Program.Holds (FlushState fun _ => none)
      (WorkState.created singlethread pcpus : WorkState W) := by
  refine ⟨inv_created singlethread pcpus, ⟨nofun, fun _ _ => rfl, ?_, nofun, ?_⟩, nofun⟩
  · rintro e (he | ⟨tr, he⟩) <;> cases he
  · exact fun p hp => absurd hp (Multiset.notMem_zero p)

variable {s t : Pool (Workqueue W) (World W)} {n T : Nat} {submitted : Bool}

theorem placed_of_queue {flush : Option Nat} (hinv : Inv s.shared (holdings s.active))
    (hstep : WorkStep (.ok s) (.move (.queue (.plunger n) flush) submitted) (.ok t)) :
    t.shared.placed n = some s.shared.queued := by
  rcases Program.step_cases hstep with ⟨_, _, _, _, _, hev, _⟩ |
    ⟨q, p, _, rest, o, hs, hev, hmove, ht⟩
  · cases hev
  · cases hev
    cases hs
    rw [holdings, total_cons] at hinv
    have hmove' : q.move (.queue (.plunger n) flush) submitted = some o := hmove
    obtain ⟨q', ps, rfl, hmoves⟩ := move_ok hinv hmove'
    cases ht
    cases hmoves with
    | queue hd =>
      have hon := (hd.onward (.same rfl rfl rfl rfl rfl rfl rfl)).1
      exact (congrFun hon.placed n).trans ((placed_enqueue _ n).trans (if_pos rfl))

theorem drained_of_unlock (h : Flushes s.shared s.active)
    (hstep : WorkStep (.ok s) (.move (.unlock n) submitted) (.ok t)) :
    ∃ T, s.shared.placed n = some T ∧ Drained t.shared T := by
  rcases Program.step_cases hstep with ⟨_, _, _, _, _, hev, _⟩ |
    ⟨q, p, _, rest, o, hs, hev, hmove, ht⟩
  · cases hev
  · cases hev
    cases hs
    cases hmove
    cases ht
    obtain ⟨T, hT, hdrained⟩ := h.worlds _ (Multiset.mem_cons_self _ _)
    exact ⟨T, hT, hdrained.head, hdrained.executing⟩

theorem Drained.settled (h : Drained s.shared T) (hinv : Inv s.shared (holdings s.active)) {k : Nat}
    (hk : k ≤ T) (hT : T < s.shared.queued) :
    k ∈ s.shared.cancelled ∨ k ∈ s.shared.finished := by
  rcases hinv.tickets.all k (hk.trans_lt hT) with hmem | hmem | hmem | hmem
  · obtain ⟨e, he, rfl⟩ := List.mem_map.mp hmem
    exact absurd (h.head e he) (not_lt.mpr hk)
  · obtain ⟨⟨e, tr⟩, hx, rfl⟩ := mem_running hmem
    exact absurd (h.executing e ⟨tr, (hinv.trackers.executing tr e).mpr hx⟩) (not_lt.mpr hk)
  · exact .inr hmem
  · exact .inl hmem

/-- What a flush that has returned waited for: of what was on the queue or executing when it placed
    its plunger nothing is left, and neither is the plunger. -/
structure Waited (q q' : Workqueue W) (n : Nat) : Prop where
  items : ∀ e, e ∈ q.head ∨ q.Executing e →
    (e.ticket ∈ q'.cancelled ∨ e.ticket ∈ q'.finished) ∧ e ∉ q'.head ∧ ¬q'.Executing e
  plunger : ∀ e, e ∈ q'.head ∨ q'.Executing e → e.item ≠ .plunger n

/-- **Flush**: whatever else worlds do meanwhile, from where a flush places its plunger to where it
    returns every item there was has been cancelled or has run to its end. -/
theorem flush_workqueue_waits {singlethread : Bool} {pcpus n : Nat} {submitted submitted' : Bool}
    {es es' : List (PoolEvent (World W) (WorkEvent W) Bool)}
    {s₁ s₂ s₃ s₄ : Pool (Workqueue W) (World W)}
    (hbefore : Run WorkStep (.created singlethread pcpus) es (.ok s₁))
    (hplace : WorkStep (.ok s₁) (.move (.queue (.plunger n) (some n)) submitted) (.ok s₂))
    (hrun : Run WorkStep (.ok s₂) es' (.ok s₃))
    (hreturn : WorkStep (.ok s₃) (.move (.unlock n) submitted') (.ok s₄)) :
    Waited s₁.shared s₄.shared n := by
  have h₁ : FlushState _ s₁.shared s₁.active := hbefore.invariant
    (fun _ _ _ h hstep => flushState_step h hstep) (flushState_created singlethread pcpus)
  have h₂ : FlushState _ s₂.shared s₂.active := flushState_step (r := .ok s₁) h₁ hplace
  have hplaced₂ := placed_of_queue h₁.inv hplace
  have hstart : Program.Holds (FlushState s₂.shared.placed) (.ok s₂ : WorkState W) :=
    ⟨h₂.inv, h₂.flushes, fun _ _ h => h⟩
  have h₃ : FlushState s₂.shared.placed s₃.shared s₃.active :=
    hrun.invariant (fun _ _ _ h hstep => flushState_step h hstep) hstart
  have h₄ : FlushState s₂.shared.placed s₄.shared s₄.active :=
    flushState_step (r := .ok s₃) h₃ hreturn
  obtain ⟨T, hT, hdrained⟩ := drained_of_unlock h₃.flushes hreturn
  obtain rfl : s₁.shared.queued = T := Option.some.inj ((h₃.placed n _ hplaced₂).symm.trans hT)
  have hplaced₄ := h₄.placed n _ hplaced₂
  refine ⟨fun e he => ?_, fun e he hitem => ?_⟩
  · have hlt : e.ticket < s₁.shared.queued := by
      rcases he with he | ⟨tr, he⟩
      · exact h₁.inv.tickets.fresh e he
      · exact (h₁.inv.tickets.held _ ((h₁.inv.trackers.executing tr e).mp he)).1
    refine ⟨hdrained.settled h₄.inv hlt.le (h₄.flushes.placed n _ hplaced₄), fun hhead => ?_,
      fun hexecuting => ?_⟩
    · exact absurd (hdrained.head e hhead) hlt.asymm
    · exact absurd (hdrained.executing e hexecuting) hlt.asymm
  · have hticket := h₄.flushes.plunger e he n hitem
    rw [hplaced₄] at hticket
    have heq := Option.some.inj hticket
    rcases he with he | he
    · exact absurd (hdrained.head e he) heq.not_lt
    · exact absurd (hdrained.executing e he) heq.not_lt

end Runs

def flushedBefore : List (PoolEvent (World Nat) (WorkEvent Nat) Bool) :=
  [.begin (.queueWork 0), .move (.queue (.work 0) none) true, .move (.post 1 none) true,
    .move (.post 0 none) true, .begin .helper, .move .callout true,
    .move (.take ⟨.work 0, 0⟩ 7) true, .begin .flushWorkqueue, .move .flush true]

def flushedAfter : List (PoolEvent (World Nat) (WorkEvent Nat) Bool) :=
  [.move (.post 1 (some 0)) true, .move (.post 0 (some 0)) true, .begin .helper,
    .move .callout true, .move (.take ⟨.plunger 0, 1⟩ 6) true,
    .move (.call ⟨.plunger 0, 1⟩ 6) true, .move (.complete 0 ⟨.plunger 0, 1⟩ 6) true,
    .move (.await 0) true, .move (.drain 0) true, .move (.done ⟨.plunger 0, 1⟩ 6) true,
    .move (.call ⟨.work 0, 0⟩ 7) true, .move (.done ⟨.work 0, 0⟩ 7) true,
    .move (.drainAgain 0) true]

theorem flush_workqueue_waits_flushed : ∃ s₁ s₄ : Pool (Workqueue Nat) (World Nat),
    Run WorkStep (.created false 1) flushedBefore (.ok s₁) ∧
      s₁.shared.executing 7 = some ⟨.work 0, 0⟩ ∧ Waited s₁.shared s₄.shared 0 := by
  have hexec : ∃ s₁ s₂ s₃ s₄ : Pool (Workqueue Nat) (World Nat),
      Run.exec (workqueueProgram Nat).next? (WorkState.created false 1) flushedBefore = some (.ok s₁) ∧
      (workqueueProgram Nat).next? (.ok s₁) (.move (.queue (.plunger 0) (some 0)) true) =
        some (.ok s₂) ∧
      Run.exec (workqueueProgram Nat).next? (.ok s₂) flushedAfter = some (.ok s₃) ∧
      (workqueueProgram Nat).next? (.ok s₃) (.move (.unlock 0) true) = some (.ok s₄) ∧
      s₁.shared.executing 7 = some ⟨.work 0, 0⟩ := by
    refine ⟨_, _, _, _, rfl, rfl, rfl, rfl, ?_⟩
    rfl
  obtain ⟨s₁, s₂, s₃, s₄, hbefore, hplace, hafter, hreturn, hexecuting⟩ := hexec
  have hrun₁ : Run WorkStep (.created false 1) flushedBefore (.ok s₁) :=
    Run.of_exec (fun _ _ _ h => h) hbefore
  have hrun₂ : Run WorkStep (.ok s₂) flushedAfter (.ok s₃) := Run.of_exec (fun _ _ _ h => h) hafter
  exact ⟨s₁, s₄, hrun₁, hexecuting, flush_workqueue_waits hrun₁ hplace hrun₂ hreturn⟩

end VmkDrivers.Vmklinux
