/-
  VmkDrivers.Vmklinux.Accounting

  What the counters and lists of a workqueue amount to, for any number of worlds
  under way: no assertion fails, the posts and the trackers are accounted for,
  and with a single thread the functions run one after the other in the order
  their items were queued (`workqueue_accounting`).

  `curPosted` counts the requests the helper has, the callouts not begun and the
  posts that worlds in a dispatch have still to submit or to give back.  The
  pending bit of an item has one owner at most: the queue, the timer of a delayed
  work, or a world.  The trackers in use are the ones that worlds in a callout
  hold.
-/

import VmkDrivers.Vmklinux.Workqueue

namespace VmkDrivers.Vmklinux

open VmkDrivers.Lib Workqueue

variable {W : Type}

/-! ## What worlds hold -/

structure Holding (W : Type) where
  /-- Posts that `curPosted` counts. -/
  posted : Nat := 0
  trackers : Multiset (Entry W × Nat) := 0
  /-- Tickets whose function has not returned, and those whose function is not called yet. -/
  running : Multiset Nat := 0
  taking : Multiset Nat := 0
  /-- Pending bits. -/
  bits : Multiset (Item W) := 0

namespace Holding

instance : Zero (Holding W) := ⟨{}⟩

instance : Add (Holding W) where
  add a b :=
    { posted := a.posted + b.posted, trackers := a.trackers + b.trackers
      running := a.running + b.running, taking := a.taking + b.taking, bits := a.bits + b.bits }

theorem add_def (a b : Holding W) : a + b =
    { posted := a.posted + b.posted, trackers := a.trackers + b.trackers
      running := a.running + b.running, taking := a.taking + b.taking, bits := a.bits + b.bits } := rfl

theorem zero_def : (0 : Holding W) = {} := rfl

instance : AddCommMonoid (Holding W) where
  add_assoc a b c := by simp only [add_def, add_assoc]
  zero_add a := by simp only [add_def, zero_def, zero_add]
  add_zero a := by simp only [add_def, zero_def, add_zero]
  add_comm a b := by simp only [add_def, add_comm]
  nsmul := nsmulRec

end Holding

/-- What a world holds. -/
@[grind =]
def World.holding : World W → Holding W
  | .queue i _ => { bits := {i} }
  | .post d _ | .arm d _ | .restore d _ => { posted := d }
  | .callout => { posted := 1 }
  | .take e tr =>
    { trackers := {(e, tr)}, running := {e.ticket}, taking := {e.ticket}, bits := {e.item} }
  | .call e tr | .complete _ e tr => { trackers := {(e, tr)}, running := {e.ticket} }
  | .done e tr => { trackers := {(e, tr)} }
  | .delay w => { bits := {.work w} }
  | .look w _ true | .lookAgain w _ true | .cancelEnd w _ true => { bits := {.work w} }
  | _ => 0

open World

abbrev holdings (ws : Multiset (World W)) : Holding W := total holding ws

/-! ## Trackers -/

/-- The trackers of the three lists are all there are, and those in use are the ones that worlds
    hold, with what they execute. -/
structure Trackers (max : Nat) (free list flush : List Nat) (executing : Nat → Option (Entry W))
    (held : Multiset (Entry W × Nat)) : Prop where
  perm : (free ++ (list ++ flush)).Perm (List.range max)
  used : held.map Prod.snd = ((list ++ flush : List Nat) : Multiset Nat)
  executing : ∀ tr e, executing tr = some e ↔ (e, tr) ∈ held

namespace Trackers

variable {max : Nat} {free list flush : List Nat} {executing : Nat → Option (Entry W)}
  {held : Multiset (Entry W × Nat)} {e : Entry W} {tr : Nat}

theorem nodup (h : Trackers max free list flush executing held) : (free ++ (list ++ flush)).Nodup :=
  h.perm.nodup_iff.mpr List.nodup_range

theorem card_held (h : Trackers max free list flush executing held) :
    held.card = list.length + flush.length := by
  have hcard := congrArg Multiset.card h.used
  simpa using hcard

theorem card_free (h : Trackers max free list flush executing held) :
    free.length + held.card = max := by
  have hlen := h.perm.length_eq
  simp only [List.length_append, List.length_range] at hlen
  rw [h.card_held]
  exact hlen

theorem mem_used (h : Trackers max free list flush executing held) (hheld : (e, tr) ∈ held) :
    tr ∈ list ++ flush := by
  have hmem : tr ∈ held.map Prod.snd := Multiset.mem_map.mpr ⟨(e, tr), hheld, rfl⟩
  rw [h.used] at hmem
  exact hmem

theorem executing_free (h : Trackers max free list flush executing held) (htr : tr ∈ free) :
    executing tr = none := by
  by_contra hsome
  obtain ⟨e, he⟩ := Option.ne_none_iff_exists'.mp hsome
  exact (List.nodup_append.mp h.nodup).2.2 tr htr tr (h.mem_used ((h.executing tr e).mp he)) rfl

theorem not_mem_of_cons (h : Trackers max free list flush executing ((e, tr) ::ₘ held))
    {e' : Entry W} : (e', tr) ∉ held := by
  intro hmem
  have hnodup : (((e, tr) ::ₘ held).map Prod.snd).Nodup := by
    rw [h.used]
    exact Multiset.coe_nodup.mpr (List.nodup_append.mp h.nodup).2.1
  rw [Multiset.map_cons, Multiset.nodup_cons] at hnodup
  exact hnodup.1 (Multiset.mem_map.mpr ⟨_, hmem, rfl⟩)

theorem take (h : Trackers max (tr :: free) list flush executing held) (e : Entry W) :
    Trackers max free (tr :: list) flush (Function.update executing tr (some e))
      ((e, tr) ::ₘ held) := by
  have hclear : executing tr = none := h.executing_free (by simp)
  refine ⟨?_, ?_, ?_⟩
  · exact (List.perm_middle.trans (List.Perm.refl _)).trans h.perm
  · rw [Multiset.map_cons, h.used]
    rfl
  · intro tr' e'
    by_cases htr : tr' = tr
    · subst htr
      have hno : (e', tr') ∉ held := fun hmem => by
        rw [(h.executing tr' e').mpr hmem] at hclear
        cases hclear
      simp [hno, eq_comm]
    · rw [Function.update_of_ne htr, h.executing]
      simp [htr]

theorem splice (h : Trackers max free list flush executing held) :
    Trackers max free [] (list ++ flush) executing held :=
  ⟨h.perm, h.used, h.executing⟩

theorem release [DecidableEq W] (h : Trackers max free list flush executing ((e, tr) ::ₘ held)) :
    Trackers max (tr :: free) (list.erase tr) (flush.erase tr) (Function.update executing tr none)
      held := by
  have hmem : tr ∈ list ++ flush := h.mem_used (Multiset.mem_cons_self _ _)
  have hnodup := (List.nodup_append.mp h.nodup).2.1
  have herase : list.erase tr ++ flush.erase tr = (list ++ flush).erase tr := by
    by_cases hlist : tr ∈ list
    · have hflush : tr ∉ flush := fun hf => (List.nodup_append.mp hnodup).2.2 tr hlist tr hf rfl
      rw [List.erase_append_left _ hlist, List.erase_of_not_mem hflush]
    · rw [List.erase_append_right _ hlist, List.erase_of_not_mem hlist]
  refine ⟨?_, ?_, ?_⟩
  · rw [herase]
    have hmiddle : (tr :: free ++ (list ++ flush).erase tr).Perm
        (free ++ tr :: (list ++ flush).erase tr) := List.perm_middle.symm
    have hback : (free ++ tr :: (list ++ flush).erase tr).Perm (free ++ (list ++ flush)) :=
      List.Perm.append_left free (List.perm_cons_erase hmem).symm
    exact (hmiddle.trans hback).trans h.perm
  · have hused := h.used
    rw [Multiset.map_cons] at hused
    rw [herase, ← Multiset.coe_erase, ← hused, Multiset.erase_cons_head]
  · intro tr' e'
    by_cases htr : tr' = tr
    · subst htr
      have hno : (e', tr') ∉ held := h.not_mem_of_cons
      simp [hno]
    · rw [Function.update_of_ne htr, h.executing]
      simp [htr]

end Trackers

/-! ## Pending bits -/

def timerBit (timer : W → Bool) : Item W → Nat
  | .work w => if timer w then 1 else 0
  | .plunger _ => 0

structure Tokens [DecidableEq W] (items : List (Item W)) (timer : W → Bool)
    (pending : Item W → Bool) (plungers : Nat) (bits : Multiset (Item W)) : Prop where
  owned : ∀ i, items.count i + timerBit timer i + bits.count i = if pending i then 1 else 0
  fresh : ∀ n, plungers ≤ n → pending (.plunger n) = false

namespace Tokens

variable [DecidableEq W] {items : List (Item W)} {timer : W → Bool} {pending : Item W → Bool}
  {plungers : Nat} {bits : Multiset (Item W)} {i : Item W} {w : W}

theorem of_cons (h : Tokens items timer pending plungers (i ::ₘ bits)) :
    pending i = true ∧ i ∉ items ∧ timerBit timer i = 0 ∧ i ∉ bits := by
  have hcount := h.owned i
  rw [Multiset.count_cons_self] at hcount
  have hp : pending i = true := by
    by_contra hp
    rw [if_neg hp] at hcount
    omega
  rw [if_pos hp] at hcount
  refine ⟨hp, List.count_eq_zero.mp (by omega), by omega, Multiset.count_eq_zero.mp (by omega)⟩

theorem grab (h : Tokens items timer pending plungers bits) (hp : pending i = false)
    {n : Nat} (hle : plungers ≤ n) (hi : ∀ m, i = .plunger m → m < n) :
    Tokens items timer (Function.update pending i true) n (i ::ₘ bits) := by
  refine ⟨fun j => ?_, fun m hm => ?_⟩
  · have hcount := h.owned j
    by_cases hj : j = i
    · subst hj
      rw [hp, if_neg (by simp)] at hcount
      rw [Function.update_self, if_pos rfl, Multiset.count_cons_self]
      omega
    · rw [Function.update_of_ne hj, Multiset.count_cons_of_ne hj]
      exact hcount
  · have hne : Item.plunger m ≠ i := fun heq => absurd (hi m heq.symm) (by omega)
    rw [Function.update_of_ne hne]
    exact h.fresh m (hle.trans hm)

theorem clear (h : Tokens items timer pending plungers (i ::ₘ bits)) :
    Tokens items timer (Function.update pending i false) plungers bits := by
  obtain ⟨-, hitems, htimer, hbits⟩ := h.of_cons
  refine ⟨fun j => ?_, fun m hm => ?_⟩
  · by_cases hj : j = i
    · subst hj
      simp [List.count_eq_zero.mpr hitems, Multiset.count_eq_zero.mpr hbits, htimer]
    · have hcount := h.owned j
      rw [Multiset.count_cons_of_ne hj] at hcount
      rw [Function.update_of_ne hj]
      exact hcount
  · by_cases hm' : Item.plunger m = i
    · rw [hm', Function.update_self]
    · rw [Function.update_of_ne hm']
      exact h.fresh m hm

theorem enqueue (h : Tokens items timer pending plungers (i ::ₘ bits)) :
    Tokens (items ++ [i]) timer pending plungers bits := by
  refine ⟨fun j => ?_, h.fresh⟩
  have hcount := h.owned j
  rw [List.count_append, List.count_singleton']
  rw [Multiset.count_cons] at hcount
  by_cases hj : j = i
  · subst hj
    simp only [if_true] at hcount ⊢
    omega
  · simp only [hj, if_false, Ne.symm hj] at hcount ⊢
    omega

theorem of_mem (h : Tokens items timer pending plungers bits) (hi : i ∈ items) :
    pending i = true ∧ i ∉ bits := by
  have hcount := h.owned i
  have hpos := List.count_pos_iff.mpr hi
  have hp : pending i = true := by
    by_contra hp
    rw [if_neg hp] at hcount
    omega
  rw [if_pos hp] at hcount
  exact ⟨hp, Multiset.count_eq_zero.mp (by omega)⟩

theorem remove {items' : List (Item W)} (h : Tokens items timer pending plungers bits)
    (hperm : items.Perm (i :: items')) : Tokens items' timer pending plungers (i ::ₘ bits) := by
  refine ⟨fun j => ?_, h.fresh⟩
  have hcount := h.owned j
  rw [hperm.count_eq, List.count_cons] at hcount
  rw [Multiset.count_cons]
  by_cases hj : j = i
  · subst hj
    simp only [beq_self_eq_true, if_true] at hcount ⊢
    omega
  · simp only [beq_iff_eq, hj, Ne.symm hj, if_false] at hcount ⊢
    omega

theorem arm (h : Tokens items timer pending plungers (.work w ::ₘ bits)) :
    Tokens items (Function.update timer w true) pending plungers bits := by
  obtain ⟨-, -, htimer, -⟩ := h.of_cons
  refine ⟨fun j => ?_, h.fresh⟩
  have hcount := h.owned j
  by_cases hj : j = .work w
  · subst hj
    rw [Multiset.count_cons_self] at hcount
    simp only [timerBit, Function.update_self, if_true] at htimer hcount ⊢
    omega
  · rw [Multiset.count_cons_of_ne hj] at hcount
    have hsame : timerBit (Function.update timer w true) j = timerBit timer j := by
      cases j with
      | work v => simp [timerBit, Function.update_of_ne fun hv : v = w => hj (hv ▸ rfl)]
      | plunger n => rfl
    rw [hsame]
    exact hcount

theorem expire (h : Tokens items timer pending plungers bits) (htimer : timer w = true) :
    pending (.work w) = true ∧
      Tokens items (Function.update timer w false) pending plungers (.work w ::ₘ bits) := by
  have hown := h.owned (.work w)
  simp only [timerBit, htimer, if_true] at hown
  have hp : pending (.work w) = true := by
    by_contra hp
    rw [if_neg hp] at hown
    omega
  refine ⟨hp, fun j => ?_, h.fresh⟩
  have hcount := h.owned j
  by_cases hj : j = .work w
  · subst hj
    rw [Multiset.count_cons_self]
    simp only [timerBit, htimer, if_true] at hcount
    simp only [timerBit, Function.update_self, Bool.false_eq_true, if_false]
    omega
  · rw [Multiset.count_cons_of_ne hj]
    have hsame : timerBit (Function.update timer w false) j = timerBit timer j := by
      cases j with
      | work v => simp [timerBit, Function.update_of_ne fun hv : v = w => hj (hv ▸ rfl)]
      | plunger n => rfl
    rw [hsame]
    exact hcount

end Tokens

/-! ## Tickets -/

/-- Tickets leave the queue in the order they came, and each one is on the queue, with a world, or
    done with.  With one tracker their functions are called in this order. -/
structure Tickets (max : Nat) (head : List (Entry W)) (queued : Nat)
    (held : Multiset (Entry W × Nat)) (running taking : Multiset Nat)
    (calls finished cancelled : List Nat) : Prop where
  sorted : head.Pairwise fun e e' => e.ticket < e'.ticket
  fresh : ∀ e ∈ head, e.ticket < queued
  held : ∀ x ∈ held, x.1.ticket < queued ∧ ∀ e ∈ head, x.1.ticket < e.ticket
  called : ∀ c ∈ calls, c < queued ∧ ∀ e ∈ head, c < e.ticket
  all : ∀ k < queued, k ∈ head.map (·.ticket) ∨ k ∈ running ∨ k ∈ finished ∨ k ∈ cancelled
  serial : max = 1 → calls.Pairwise (· < ·) ∧ ∀ k ∈ taking, ∀ c ∈ calls, c < k

namespace Tickets

variable {max : Nat} {head rest : List (Entry W)} {queued : Nat} {held : Multiset (Entry W × Nat)}
  {running taking : Multiset Nat} {calls finished cancelled : List Nat} {e : Entry W} {tr k : Nat}

theorem enqueue (h : Tickets max head queued held running taking calls finished cancelled)
    (i : Item W) : Tickets max (head ++ [⟨i, queued⟩]) (queued + 1) held running taking calls
      finished cancelled := by
  refine ⟨?_, ?_, ?_, ?_, ?_, h.serial⟩
  · refine List.pairwise_append.mpr ⟨h.sorted, List.pairwise_singleton _ _, ?_⟩
    intro e he e' he'
    rw [List.mem_singleton.mp he']
    exact h.fresh e he
  · intro e he
    rcases List.mem_append.mp he with he | he
    · exact (h.fresh e he).trans (Nat.lt_succ_self _)
    · rw [List.mem_singleton.mp he]
      exact Nat.lt_succ_self _
  · intro x hx
    obtain ⟨hlt, hhead⟩ := h.held x hx
    refine ⟨by omega, fun e he => ?_⟩
    rcases List.mem_append.mp he with he | he
    · exact hhead e he
    · rw [List.mem_singleton.mp he]
      exact hlt
  · intro c hc
    obtain ⟨hlt, hhead⟩ := h.called c hc
    refine ⟨by omega, fun e he => ?_⟩
    rcases List.mem_append.mp he with he | he
    · exact hhead e he
    · rw [List.mem_singleton.mp he]
      exact hlt
  · intro k hk
    rcases Nat.lt_succ_iff_lt_or_eq.mp hk with hk | rfl
    · refine (h.all k hk).imp_left fun hmem => ?_
      rw [List.map_append]
      exact List.mem_append_left _ hmem
    · exact .inl (by simp)

theorem pop (h : Tickets max (e :: rest) queued held running taking calls finished cancelled)
    (tr : Nat) : Tickets max rest queued ((e, tr) ::ₘ held) (e.ticket ::ₘ running)
      (e.ticket ::ₘ taking) calls finished cancelled := by
  obtain ⟨hfirst, hsorted⟩ := List.pairwise_cons.mp h.sorted
  refine ⟨hsorted, fun e' he' => h.fresh e' (by simp [he']), ?_, ?_, ?_, fun hone => ?_⟩
  · intro x hx
    rcases Multiset.mem_cons.mp hx with rfl | hx
    · exact ⟨h.fresh e (by simp), hfirst⟩
    · obtain ⟨hlt, hhead⟩ := h.held x hx
      exact ⟨hlt, fun e' he' => hhead e' (by simp [he'])⟩
  · intro c hc
    obtain ⟨hlt, hhead⟩ := h.called c hc
    exact ⟨hlt, fun e' he' => hhead e' (by simp [he'])⟩
  · intro k hk
    have hall := h.all k hk
    simp only [List.map_cons, List.mem_cons] at hall
    rw [Multiset.mem_cons]
    tauto
  · obtain ⟨hcalls, htaking⟩ := h.serial hone
    refine ⟨hcalls, fun k hk c hc => ?_⟩
    rcases Multiset.mem_cons.mp hk with rfl | hk
    · exact (h.called c hc).2 e (by simp)
    · exact htaking k hk c hc

theorem call (h : Tickets max head queued held running (e.ticket ::ₘ taking) calls finished
    cancelled) (hheld : (e, tr) ∈ held) (hone : max = 1 → taking = 0) :
    Tickets max head queued held running taking (calls ++ [e.ticket]) finished cancelled := by
  refine ⟨h.sorted, h.fresh, h.held, ?_, h.all, fun hmax => ?_⟩
  · intro c hc
    rcases List.mem_append.mp hc with hc | hc
    · exact h.called c hc
    · rw [List.mem_singleton.mp hc]
      exact h.held _ hheld
  · obtain ⟨hcalls, htaking⟩ := h.serial hmax
    refine ⟨List.pairwise_append.mpr ⟨hcalls, List.pairwise_singleton _ _, ?_⟩, ?_⟩
    · intro c hc c' hc'
      rw [List.mem_singleton.mp hc']
      exact htaking _ (Multiset.mem_cons_self _ _) c hc
    · rw [hone hmax]
      exact fun k hk => absurd hk (Multiset.notMem_zero k)

theorem finish (h : Tickets max head queued held (k ::ₘ running) taking calls finished cancelled) :
    Tickets max head queued held running taking calls (finished ++ [k]) cancelled := by
  refine ⟨h.sorted, h.fresh, h.held, h.called, fun j hj => ?_, h.serial⟩
  have hall := h.all j hj
  rw [Multiset.mem_cons] at hall
  rw [List.mem_append, List.mem_singleton]
  tauto

theorem release (h : Tickets max head queued ((e, tr) ::ₘ held) running taking calls finished
    cancelled) : Tickets max head queued held running taking calls finished cancelled :=
  ⟨h.sorted, h.fresh, fun x hx => h.held x (Multiset.mem_cons_of_mem hx), h.called, h.all,
    h.serial⟩

theorem remove [DecidableEq W]
    (h : Tickets max head queued held running taking calls finished cancelled) (he : e ∈ head) :
    Tickets max (head.erase e) queued held running taking calls finished
      (cancelled ++ [e.ticket]) := by
  have hsub : ∀ e' ∈ head.erase e, e' ∈ head := fun e' he' => List.mem_of_mem_erase he'
  refine ⟨h.sorted.sublist List.erase_sublist, fun e' he' => h.fresh e' (hsub e' he'), ?_, ?_, ?_,
    h.serial⟩
  · intro x hx
    obtain ⟨hlt, hhead⟩ := h.held x hx
    exact ⟨hlt, fun e' he' => hhead e' (hsub e' he')⟩
  · intro c hc
    obtain ⟨hlt, hhead⟩ := h.called c hc
    exact ⟨hlt, fun e' he' => hhead e' (hsub e' he')⟩
  · intro k hk
    rcases h.all k hk with hmem | hmem
    · obtain ⟨e', he', rfl⟩ := List.mem_map.mp hmem
      by_cases heq : e' = e
      · subst heq
        exact .inr (.inr (.inr (by simp)))
      · exact .inl (List.mem_map.mpr ⟨e', (List.mem_erase_of_ne heq).mpr he', rfl⟩)
    · rw [List.mem_append]
      tauto

end Tickets

/-! ## The invariant -/

structure Counts (q : Workqueue W) (d : Holding W) : Prop where
  len : (q.head.length : Int) = q.qLen
  posted : q.curPosted = q.requests + d.posted
  dispatched : q.curDispatch = d.trackers.card
  le : q.curPosted + q.curDispatch ≤ q.maxDispatch
  queued : q.queued =
    q.head.length + d.running.card + q.finished.length + q.cancelled.length

structure Inv [DecidableEq W] (q : Workqueue W) (d : Holding W) : Prop where
  counts : Counts q d
  trackers : Trackers q.maxDispatch q.trackFree q.trackList q.trackFlushList q.executing d.trackers
  tokens : Tokens (q.head.map (·.item)) q.timer q.pending q.plungers d.bits
  tickets : Tickets q.maxDispatch q.head q.queued d.trackers d.running d.taking q.calls q.finished
    q.cancelled

/-- What a dispatch does: there are posts enough, or it posts what is missing. -/
inductive Dispatched (q : Workqueue W) (flush : Option Nat) : Workqueue W → List (World W) → Prop
  | enough (h : q.qLen ≤ q.curPosted ∨ q.maxDispatch ≤ q.curDispatch + q.curPosted) :
      Dispatched q flush q (resume flush)
  | posts (d : Nat) (hpos : 0 < d)
      (hd : (d : Int) = min (q.maxDispatch - (q.curDispatch + q.curPosted)) (q.qLen - q.curPosted)) :
      Dispatched q flush { q with curPosted := q.curPosted + d } [.post d flush]

inductive Moves [DecidableEq W] (q : Workqueue W) : World W → Workqueue W → List (World W) → Prop
  | queue {i : Item W} {flush : Option Nat} {q' : Workqueue W} {ps : List (World W)}
      (hd : Dispatched (q.enqueue i) flush q' ps) : Moves q (.queue i flush) q' ps
  | posted {flush : Option Nat} : Moves q (.post 0 flush) q (resume flush)
  | submitted {d : Nat} {flush : Option Nat} : Moves q (.post (d + 1) flush)
      { q with requests := q.requests + 1 } [.post d flush]
  | refused {d : Nat} {flush : Option Nat} : Moves q (.post (d + 1) flush) q [.arm (d + 1) flush]
  | arm {d : Nat} {flush : Option Nat} : Moves q (.arm d flush) { q with delayTimer := true }
      [.restore d flush]
  | restore {d : Nat} {flush : Option Nat} : Moves q (.restore d flush)
      { q with curPosted := q.curPosted - d } (resume flush)
  | timeout {q' : Workqueue W} {ps : List (World W)} (hd : Dispatched q none q' ps) :
      Moves q .timeout q' ps
  | idleCallout (hhead : q.head = []) : Moves q .callout { q with curPosted := q.curPosted - 1 } []
  | callout {e : Entry W} {rest : List (Entry W)} {tr : Nat} {free : List Nat}
      (hhead : q.head = e :: rest) (hfree : q.trackFree = tr :: free) :
      Moves q .callout (({ q with curPosted := q.curPosted - 1 }.pop rest).track e tr free)
        [.take e tr]
  | take {e : Entry W} {tr : Nat} : Moves q (.take e tr)
      { q.setPending e.item false with calls := q.calls ++ [e.ticket] } [.call e tr]
  | call {e : Entry W} {tr : Nat} {w : W} (hitem : e.item = .work w) : Moves q (.call e tr)
      { q with finished := q.finished ++ [e.ticket] } [.done e tr]
  | splice {e : Entry W} {tr n : Nat} (hitem : e.item = .plunger n) :
      Moves q (.call e tr) q.spliced [.complete n e tr]
  | complete {e : Entry W} {tr n : Nat} : Moves q (.complete n e tr)
      { q with
        completion := Function.update q.completion n true
        finished := q.finished ++ [e.ticket] } [.done e tr]
  | done {e : Entry W} {tr : Nat} {q' : Workqueue W} {ps : List (World W)}
      (hd : Dispatched (q.release tr) none q' ps) : Moves q (.done e tr) q' ps
  | delay {w : W} : Moves q (.delay w)
      { q with bound := Function.update q.bound w true, timer := Function.update q.timer w true } []
  | grab {w : W} {timer : Bool} (hp : q.pending (.work w) = false) : Moves q (.cancel w timer)
      (q.setPending (.work w) true) [.look w timer true]
  | noGrab {w : W} {timer : Bool} : Moves q (.cancel w timer) q
      [if timer then .cancelTimer w else .look w timer false]
  | cancelTimer {w : W} (htimer : q.timer w = true) : Moves q (.cancelTimer w)
      { q with timer := Function.update q.timer w false } [.look w true true]
  | noTimer {w : W} : Moves q (.cancelTimer w) q [.look w true false]
  | unbound {w : W} {timer got : Bool} (hbound : q.bound w = false) :
      Moves q (.look w timer got) q [.cancelEnd w timer got]
  | scan {w : W} {timer got : Bool} : Moves q (.look w timer got) (q.scan w timer got).1
      (q.scan w timer got).2
  | remove {w : W} {timer : Bool} {e : Entry W} (he : e ∈ q.head) (hitem : e.item = .work w) :
      Moves q (.look w timer false) ((q.unqueue e).scan w timer true).1
        ((q.unqueue e).scan w timer true).2
  | lookAgain {w : W} {timer got : Bool} : Moves q (.lookAgain w timer got)
      ({ q with waiting := q.waiting - 1 }.scan w timer got).1
      ({ q with waiting := q.waiting - 1 }.scan w timer got).2
  | cancelEnd {w : W} {timer : Bool} : Moves q (.cancelEnd w timer true)
      (q.setPending (.work w) false) []
  | retry {w : W} {timer : Bool} : Moves q (.cancelEnd w timer false) q [.cancel w timer]
  | flush (hmutex : q.flushMutex = false) : Moves q .flush
      ({ q with flushMutex := true, plungers := q.plungers + 1 }.setPending (.plunger q.plungers)
        true) [.queue (.plunger q.plungers) (some q.plungers)]
  | await {n : Nat} (hcomplete : q.completion n = true) : Moves q (.await n) q [.drain n]
  | drain {n : Nat} : Moves q (.drain n) (q.drain n).1 (q.drain n).2
  | drainAgain {n : Nat} : Moves q (.drainAgain n) ({ q with waiting := q.waiting - 1 }.drain n).1
      ({ q with waiting := q.waiting - 1 }.drain n).2
  | unlock {n : Nat} : Moves q (.unlock n) { q with flushMutex := false } []

/-! ## What a step keeps -/

theorem holding_resume (flush : Option Nat) :
    ((resume flush : List (World W)).map holding).sum = 0 := by
  cases flush with
  | none => rfl
  | some n => exact List.sum_singleton

open Holding

section Keeps

variable [DecidableEq W] {q q' : Workqueue W} {d r : Holding W} {ps : List (World W)}
  {flush : Option Nat} {e : Entry W} {tr : Nat} {i : Item W} {w : W}

theorem Inv.idle (h : Inv q d) (waiting : Int) (delayTimer flushMutex : Bool)
    (completion : Nat → Bool) (bound : W → Bool) :
    Inv { q with waiting, delayTimer, flushMutex, completion, bound } d :=
  ⟨⟨h.counts.len, h.counts.posted, h.counts.dispatched, h.counts.le, h.counts.queued⟩,
    h.trackers, h.tokens, h.tickets⟩

theorem Inv.post {requests : Nat} {curPosted : Int} (posted : Nat) (h : Inv q d)
    (hposted : curPosted = requests + posted)
    (hle : curPosted + q.curDispatch ≤ q.maxDispatch) :
    Inv { q with curPosted, requests } { d with posted } :=
  ⟨⟨h.counts.len, hposted, h.counts.dispatched, hle, h.counts.queued⟩, h.trackers, h.tokens,
    h.tickets⟩

theorem Inv.dispatched (h : Inv q r) (hd : Dispatched q flush q' ps) :
    Inv q' ((ps.map holding).sum + r) := by
  cases hd with
  | enough => rw [holding_resume, zero_add]; exact h
  | posts k hpos hk =>
    have hposted := h.counts.posted
    rw [List.map_singleton, List.sum_singleton]
    simp only [holding, add_def, zero_add]
    exact h.post _ (by push_cast; omega) (by omega)

theorem Inv.enqueue (h : Inv q ((World.queue i flush).holding + r)) : Inv (q.enqueue i) r := by
  simp only [holding, add_def, zero_add, Multiset.singleton_add] at h
  obtain ⟨hlen, hposted, hdispatched, hle, hqueued⟩ := h.counts
  refine ⟨⟨?_, hposted, hdispatched, hle, ?_⟩, h.trackers, ?_, h.tickets.enqueue i⟩
  · simp only [Workqueue.enqueue, List.length_append, List.length_singleton]
    push_cast
    omega
  · simp only [Workqueue.enqueue, List.length_append, List.length_singleton] at hqueued ⊢
    omega
  · simp only [Workqueue.enqueue, List.map_append, List.map_singleton]
    exact h.tokens.enqueue

theorem Inv.submitted {k : Nat} (h : Inv q ((World.post (k + 1) flush).holding + r)) :
    Inv { q with requests := q.requests + 1 } ((World.post k flush).holding + r) := by
  simp only [holding, add_def, zero_add] at h ⊢
  have hposted := h.counts.posted
  exact h.post _ (by push_cast at hposted ⊢; omega) h.counts.le

theorem Inv.restore {k : Nat} (h : Inv q ((World.restore k flush).holding + r)) :
    Inv { q with curPosted := q.curPosted - k } r := by
  simp only [holding, add_def, zero_add] at h
  have hposted := h.counts.posted
  have hle := h.counts.le
  exact h.post r.posted (by push_cast at hposted ⊢; omega) (by omega)

theorem Inv.idleCallout (h : Inv q (World.callout.holding + r)) :
    Inv { q with curPosted := q.curPosted - 1 } r := by
  simp only [holding, add_def, zero_add] at h
  have hposted := h.counts.posted
  have hle := h.counts.le
  exact h.post r.posted (by push_cast at hposted ⊢; omega) (by omega)

theorem Inv.callout {rest : List (Entry W)} {free : List Nat} (hhead : q.head = e :: rest)
    (hfree : q.trackFree = tr :: free) (h : Inv q (World.callout.holding + r)) :
    Inv (({ q with curPosted := q.curPosted - 1 }.pop rest).track e tr free)
      ((World.take e tr).holding + r) := by
  simp only [holding, add_def, zero_add, Multiset.singleton_add] at h ⊢
  obtain ⟨hlen, hposted, hdispatched, hle, hqueued⟩ := h.counts
  have htrackers := h.trackers
  have htokens := h.tokens
  have htickets := h.tickets
  rw [hhead] at hlen hqueued htokens htickets
  rw [hfree] at htrackers
  simp only [List.length_cons] at hlen hqueued
  push_cast at hlen hposted
  refine ⟨⟨?_, ?_, ?_, ?_, ?_⟩, htrackers.take e, ?_, htickets.pop tr⟩
  · show (rest.length : Int) = q.qLen - 1
    omega
  · show q.curPosted - 1 = q.requests + r.posted
    omega
  · show q.curDispatch + 1 = _
    rw [Multiset.card_cons]
    dsimp only at hdispatched
    push_cast
    omega
  · show q.curPosted - 1 + (q.curDispatch + 1) ≤ q.maxDispatch
    omega
  · show q.queued = rest.length + _ + q.finished.length + q.cancelled.length
    rw [Multiset.card_cons]
    omega
  · exact htokens.remove (List.Perm.refl _)

theorem Inv.take (h : Inv q ((World.take e tr).holding + r)) (hcard : r.taking.card ≤ r.trackers.card) :
    Inv { q.setPending e.item false with calls := q.calls ++ [e.ticket] }
      ((World.call e tr).holding + r) := by
  simp only [holding, add_def, zero_add, Multiset.singleton_add] at h ⊢
  obtain ⟨hlen, hposted, hdispatched, hle, hqueued⟩ := h.counts
  refine ⟨⟨hlen, hposted, hdispatched, hle, hqueued⟩, h.trackers, h.tokens.clear, ?_⟩
  refine h.tickets.call (Multiset.mem_cons_self _ _) fun hone => ?_
  -- there is no other tracker, and so no other world about to call
  rw [Multiset.card_cons] at hdispatched
  have hcard0 : r.taking.card = 0 := by omega
  exact Multiset.card_eq_zero.mp hcard0

theorem Inv.finish (h : Inv q ((World.call e tr).holding + r)) :
    Inv { q with finished := q.finished ++ [e.ticket] } ((World.done e tr).holding + r) := by
  simp only [holding, add_def, zero_add, Multiset.singleton_add] at h ⊢
  obtain ⟨hlen, hposted, hdispatched, hle, hqueued⟩ := h.counts
  refine ⟨⟨hlen, hposted, hdispatched, hle, ?_⟩, h.trackers, h.tokens, h.tickets.finish⟩
  rw [Multiset.card_cons] at hqueued
  dsimp only at hqueued ⊢
  rw [List.length_append, List.length_singleton]
  omega

theorem Inv.spliced (h : Inv q d) : Inv q.spliced d :=
  ⟨⟨h.counts.len, h.counts.posted, h.counts.dispatched, h.counts.le, h.counts.queued⟩,
    h.trackers.splice, h.tokens, h.tickets⟩

theorem Inv.release (h : Inv q ((World.done e tr).holding + r)) : Inv (q.release tr) r := by
  simp only [holding, add_def, zero_add, Multiset.singleton_add] at h
  obtain ⟨hlen, hposted, hdispatched, hle, hqueued⟩ := h.counts
  refine ⟨⟨hlen, hposted, ?_, ?_, hqueued⟩, h.trackers.release, h.tokens, h.tickets.release⟩
  · show q.curDispatch - 1 = _
    rw [Multiset.card_cons] at hdispatched
    push_cast at hdispatched
    omega
  · show q.curPosted + (q.curDispatch - 1) ≤ q.maxDispatch
    omega

theorem Inv.grab (h : Inv q r) (hp : q.pending (.work w) = false) :
    Inv (q.setPending (.work w) true) { r with bits := .work w ::ₘ r.bits } :=
  ⟨⟨h.counts.len, h.counts.posted, h.counts.dispatched, h.counts.le, h.counts.queued⟩,
    h.trackers, h.tokens.grab hp le_rfl (fun _ hm => by cases hm), h.tickets⟩

theorem Inv.clear (h : Inv q { r with bits := .work w ::ₘ r.bits }) :
    Inv (q.setPending (.work w) false) r :=
  ⟨⟨h.counts.len, h.counts.posted, h.counts.dispatched, h.counts.le, h.counts.queued⟩,
    h.trackers, h.tokens.clear, h.tickets⟩

theorem Inv.delay (h : Inv q ((World.delay w).holding + r)) :
    Inv { q with bound := Function.update q.bound w true, timer := Function.update q.timer w true }
      r := by
  simp only [holding, add_def, zero_add, Multiset.singleton_add] at h
  exact ⟨⟨h.counts.len, h.counts.posted, h.counts.dispatched, h.counts.le, h.counts.queued⟩,
    h.trackers, h.tokens.arm, h.tickets⟩

theorem Inv.expire (h : Inv q r) (htimer : q.timer w = true) :
    Inv { q with timer := Function.update q.timer w false }
      { r with bits := .work w ::ₘ r.bits } :=
  ⟨⟨h.counts.len, h.counts.posted, h.counts.dispatched, h.counts.le, h.counts.queued⟩,
    h.trackers, (h.tokens.expire htimer).2, h.tickets⟩

theorem Inv.newPlunger (h : Inv q r) :
    Inv ({ q with flushMutex := true, plungers := q.plungers + 1 }.setPending
      (.plunger q.plungers) true) { r with bits := .plunger q.plungers ::ₘ r.bits } := by
  refine ⟨⟨h.counts.len, h.counts.posted, h.counts.dispatched, h.counts.le, h.counts.queued⟩,
    h.trackers, ?_, h.tickets⟩
  refine h.tokens.grab (h.tokens.fresh _ le_rfl) (Nat.le_succ _) fun m hm => ?_
  obtain rfl := Item.plunger.inj hm
  exact Nat.lt_succ_self _

theorem Inv.unqueue (h : Inv q r) (he : e ∈ q.head) (hitem : e.item = .work w) :
    Inv (q.unqueue e) { r with bits := .work w ::ₘ r.bits } := by
  obtain ⟨hlen, hposted, hdispatched, hle, hqueued⟩ := h.counts
  have hpos : 0 < q.head.length := List.length_pos_of_mem he
  have herase := List.length_erase_of_mem he
  refine ⟨⟨?_, hposted, hdispatched, hle, ?_⟩, h.trackers, ?_, h.tickets.remove he⟩
  · show ((q.head.erase e).length : Int) = q.qLen - 1
    omega
  · simp only [Workqueue.unqueue, List.length_append, List.length_singleton]
    omega
  · refine h.tokens.remove ?_
    have hperm := (List.perm_cons_erase he).map (·.item)
    rw [List.map_cons, hitem] at hperm
    exact hperm

theorem Inv.scan {timer got : Bool} (h : Inv q ((World.look w timer got).holding + r)) :
    Inv (q.scan w timer got).1 (((q.scan w timer got).2.map holding).sum + r) := by
  unfold Workqueue.scan
  split
  · rw [List.map_singleton, List.sum_singleton]
    cases got <;> exact h.idle _ _ _ _ _
  · rw [List.map_singleton, List.sum_singleton]
    cases got <;> exact h

theorem Inv.drain {n : Nat} (h : Inv q r) :
    Inv (q.drain n).1 (((q.drain n).2.map holding).sum + r) := by
  unfold Workqueue.drain
  split
  · rw [List.map_singleton, List.sum_singleton]
    exact (zero_add r).symm ▸ h
  · rw [List.map_singleton, List.sum_singleton]
    exact (zero_add r).symm ▸ h.idle _ _ _ _ _

end Keeps

/-! ## No assertion fails -/

theorem vmkAssert_bind {cond : Prop} [Decidable cond] {a : WorkAssert} {α : Type}
    {k : Unit → Except WorkAssert α} (h : cond) : (vmkAssert cond a >>= k) = k () := by
  rw [vmkAssert, if_pos h]
  rfl

section Asserts

variable [DecidableEq W] {q : Workqueue W} {r : Holding W} {e : Entry W}

theorem Inv.dispatch (h : Inv q r) (flush : Option Nat) :
    ∃ q' ps, q.dispatch flush = .ok (q', ps) ∧ Dispatched q flush q' ps := by
  obtain ⟨hlen, hposted, hdispatched, hle, -⟩ := h.counts
  rw [Workqueue.dispatch, vmkAssert_bind (show q.LenOk from hlen), vmkAssert_bind (by omega),
    vmkAssert_bind (by omega), vmkAssert_bind hle]
  dsimp only
  split
  · next hdeficit => exact ⟨_, _, rfl, .enough (by omega)⟩
  · next hdeficit =>
    obtain ⟨d, hd⟩ := Int.eq_ofNat_of_zero_le (not_le.mp hdeficit).le
    rw [hd, Int.toNat_natCast]
    exact ⟨_, _, rfl, .posts d (by omega) hd.symm⟩

theorem Inv.callout_ok (h : Inv q (World.callout.holding + r)) :
    ∃ q' ps, q.callout = .ok (q', ps) ∧ Moves q .callout q' ps := by
  have hlen : q.LenOk := h.counts.len
  have hposted := h.counts.posted
  have hle := h.counts.le
  simp only [holding, add_def] at hposted
  have hpos : q.curPosted > 0 := by omega
  rw [Workqueue.callout, vmkAssert_bind hlen, vmkAssert_bind hpos]
  dsimp only
  split
  · next hhead => exact ⟨_, _, rfl, .idleCallout hhead⟩
  · next e rest hhead =>
    -- a post leaves room for one more tracker
    rw [if_neg (by omega)]
    have hfree : q.trackFree ≠ [] := by
      intro hnil
      have hcard := h.trackers.card_free
      have hdispatched := h.counts.dispatched
      rw [hnil, List.length_nil] at hcard
      omega
    obtain ⟨tr, free, htr⟩ := List.exists_cons_of_ne_nil hfree
    have htake := h.callout hhead htr
    have htokens := h.tokens
    rw [hhead] at htokens
    have hpending : q.pending e.item = true := (htokens.of_mem (by simp)).1
    have hlen' : (pop { q with curPosted := q.curPosted - 1 } rest).LenOk := htake.counts.len
    have hclear : q.executing tr = none := h.trackers.executing_free (by simp [htr])
    have hused := htake.trackers.card_held
    have hunused := htake.trackers.card_free
    have hdispatched := htake.counts.dispatched
    have hqlen : q.qLen > 0 := by
      have hlen₀ := h.counts.len
      rw [hhead, List.length_cons] at hlen₀
      omega
    refine ⟨_, _, ?_, .callout hhead htr⟩
    rw [vmkAssert_bind hpending, vmkAssert_bind hqlen, vmkAssert_bind hlen']
    dsimp only [pop]
    rw [htr]
    refine (vmkAssert_bind hclear).trans ((vmkAssert_bind ?_).trans (vmkAssert_bind ?_))
    · rw [hused] at hdispatched
      exact_mod_cast hdispatched.symm
    · change q.curDispatch + 1 = _ at hdispatched
      change free.length + _ = q.maxDispatch at hunused
      show (free.length : Int) = q.maxDispatch - (q.curDispatch + 1)
      omega

theorem Inv.take_ok {tr : Nat} (h : Inv q ((World.take e tr).holding + r)) :
    ∃ q' ps, q.take e tr = .ok (q', ps) ∧ Moves q (.take e tr) q' ps := by
  have hqueued := h.counts.queued
  simp only [holding, add_def, zero_add, Multiset.singleton_add, Multiset.card_cons] at hqueued
  refine ⟨_, _, ?_, .take⟩
  rw [Workqueue.take]
  exact vmkAssert_bind (show q.finished.length < q.queued by omega)

theorem Inv.splice_ok {tr n : Nat} (h : Inv q ((World.call e tr).holding + r)) :
    q.splice n e tr = .ok (q.spliced, [.complete n e tr]) := by
  simp only [holding, add_def, zero_add, Multiset.singleton_add] at h
  have hmem := h.trackers.mem_used (Multiset.mem_cons_self _ _)
  rw [Workqueue.splice]
  exact vmkAssert_bind (List.ne_nil_of_mem hmem)

theorem Inv.delay_ok {w : W} (h : Inv q ((World.delay w).holding + r)) :
    ∃ q' ps, q.delay w = .ok (q', ps) ∧ Moves q (.delay w) q' ps := by
  simp only [holding, add_def, zero_add, Multiset.singleton_add] at h
  obtain ⟨-, hitems, htimer, -⟩ := h.tokens.of_cons
  have hoff : ¬q.OnQueue (.work w) := hitems
  have htimer' : q.timer w = false := by simpa [timerBit] using htimer
  refine ⟨_, _, ?_, .delay⟩
  rw [Workqueue.delay, vmkAssert_bind htimer']
  exact vmkAssert_bind hoff

theorem Inv.look_ok {w : W} {timer got : Bool} (h : Inv q ((World.look w timer got).holding + r)) :
    ∃ q' ps, q.look w timer got = .ok (q', ps) ∧ Moves q (.look w timer got) q' ps := by
  unfold Workqueue.look
  split
  · next hbound => exact ⟨_, _, rfl, .unbound hbound⟩
  · split
    · exact ⟨_, _, rfl, .scan⟩
    · next e hfind =>
      have he := List.mem_of_find?_eq_some hfind
      have hitem : e.item = .work w := by simpa using List.find?_some hfind
      have hmem : Item.work w ∈ q.head.map (·.item) := List.mem_map.mpr ⟨e, he, hitem⟩
      obtain ⟨hpending, hbits⟩ := h.tokens.of_mem hmem
      rw [if_pos hpending]
      cases got with
      | true =>
        -- the bit is with the queue
        refine absurd ?_ hbits
        simp [holding, add_def]
      | false =>
        have hlen : (q.unqueue e).LenOk := (h.unqueue he hitem).counts.len
        refine ⟨_, _, ?_, .remove he hitem⟩
        rw [vmkAssert_bind rfl]
        exact vmkAssert_bind hlen

theorem move_ok {p : World W} {submitted : Bool}
    {o : Except WorkAssert (Workqueue W × List (World W))} (h : Inv q (p.holding + r))
    (hmove : q.move p submitted = some o) : ∃ q' ps, o = .ok (q', ps) ∧ Moves q p q' ps := by
  cases p with
  | queue i flush =>
    cases hmove
    have henq := h.enqueue
    simp only [holding, add_def, zero_add, Multiset.singleton_add] at h
    obtain ⟨hpending, hitems, -⟩ := h.tokens.of_cons
    -- the world has the bit of the item, so that nothing else has
    have hoff : ¬q.OnQueue i := hitems
    have hlen : q.LenOk := h.counts.len
    have hpos : (q.enqueue i).qLen > 0 := by
      have hlen' := henq.counts.len
      simp only [enqueue, List.length_append, List.length_singleton] at hlen' ⊢
      omega
    obtain ⟨q', ps, hd, hdisp⟩ := henq.dispatch flush
    refine ⟨q', ps, ?_, .queue hdisp⟩
    rw [Workqueue.queueWork, vmkAssert_bind hoff, vmkAssert_bind hpending, vmkAssert_bind hlen,
      vmkAssert_bind hoff]
    exact (vmkAssert_bind hpos).trans hd
  | post d flush =>
    cases hmove
    cases d with
    | zero => exact ⟨_, _, rfl, .posted⟩
    | succ d =>
      cases submitted with
      | true => exact ⟨_, _, rfl, .submitted⟩
      | false => exact ⟨_, _, rfl, .refused⟩
  | arm d flush =>
    cases hmove
    exact ⟨_, _, rfl, .arm⟩
  | restore d flush =>
    cases hmove
    exact ⟨_, _, rfl, .restore⟩
  | timeout =>
    cases hmove
    obtain ⟨q', ps, hd, hdisp⟩ := h.dispatch none
    exact ⟨q', ps, hd, .timeout hdisp⟩
  -- the moves of a helper world, whose assertions are those of the trackers
  | callout =>
    cases hmove
    exact h.callout_ok
  | take e tr =>
    cases hmove
    exact h.take_ok
  | call e tr =>
    simp only [move] at hmove
    split at hmove
    · next w hitem =>
      cases hmove
      exact ⟨_, _, rfl, .call hitem⟩
    · next n hitem =>
      cases hmove
      exact ⟨_, _, h.splice_ok, .splice hitem⟩
  | complete n e tr =>
    cases hmove
    exact ⟨_, _, rfl, .complete⟩
  | done e tr =>
    cases hmove
    obtain ⟨q', ps, hd, hdisp⟩ := h.release.dispatch none
    exact ⟨q', ps, hd, .done hdisp⟩
  -- the timer of a delayed item, and the cancels
  | delay w =>
    cases hmove
    exact h.delay_ok
  | cancel w timer =>
    simp only [move] at hmove
    split at hmove
    · next hp =>
      cases hmove
      exact ⟨_, _, rfl, .grab hp⟩
    · cases hmove
      exact ⟨_, _, rfl, .noGrab⟩
  | cancelTimer w =>
    simp only [move] at hmove
    split at hmove
    · next htimer =>
      cases hmove
      exact ⟨_, _, vmkAssert_bind (h.tokens.expire htimer).1, .cancelTimer htimer⟩
    · cases hmove
      exact ⟨_, _, rfl, .noTimer⟩
  | look w timer got =>
    cases hmove
    exact h.look_ok
  | lookAgain w timer got =>
    cases hmove
    exact ⟨_, _, rfl, .lookAgain⟩
  | cancelEnd w timer got =>
    cases got with
    | true =>
      cases hmove
      exact ⟨_, _, rfl, .cancelEnd⟩
    | false =>
      cases hmove
      exact ⟨_, _, rfl, .retry⟩
  -- flushes and the destruction only wait
  | flush =>
    simp only [move] at hmove
    split at hmove
    · cases hmove
    · next hmutex =>
      cases hmove
      exact ⟨_, _, rfl, .flush (Bool.eq_false_iff.mpr hmutex)⟩
  | await n =>
    simp only [move] at hmove
    split at hmove
    · next hcomplete =>
      cases hmove
      exact ⟨_, _, rfl, .await hcomplete⟩
    · cases hmove
  | drain n =>
    cases hmove
    exact ⟨_, _, rfl, .drain⟩
  | drainAgain n =>
    cases hmove
    exact ⟨_, _, rfl, .drainAgain⟩
  | unlock n =>
    cases hmove
    exact ⟨_, _, rfl, .unlock⟩

end Asserts

/-! ## The invariant along a run -/

theorem card_taking_le (ws : Multiset (World W)) :
    (holdings ws).taking.card ≤ (holdings ws).trackers.card := by
  induction ws using Multiset.induction_on with
  | empty => exact le_rfl
  | cons p ws ih =>
    rw [holdings, total_cons, add_def]
    simp only [Multiset.card_add]
    refine Nat.add_le_add ?_ ih
    unfold holding
    split <;> simp [zero_def]

section Runs

variable [DecidableEq W] {q q' : Workqueue W} {r : Holding W} {p : World W} {ps : List (World W)}

theorem Moves.inv (hmove : Moves q p q' ps) (h : Inv q (p.holding + r))
    (hcard : r.taking.card ≤ r.trackers.card) : Inv q' ((ps.map holding).sum + r) := by
  cases hmove with
  | queue hd => exact h.enqueue.dispatched hd
  -- the posts of a dispatch: what is held goes from one to the next
  | posted =>
    rw [holding_resume]
    exact h
  | submitted =>
    rw [List.map_singleton, List.sum_singleton]
    exact h.submitted
  | refused =>
    rw [List.map_singleton, List.sum_singleton]
    exact h
  | arm =>
    rw [List.map_singleton, List.sum_singleton]
    exact h.idle _ _ _ _ _
  | restore =>
    rw [holding_resume, zero_add]
    exact h.restore
  | timeout hd =>
    rw [show World.timeout.holding = (0 : Holding W) from rfl, zero_add] at h
    exact h.dispatched hd
  | idleCallout hhead =>
    rw [List.map_nil, List.sum_nil, zero_add]
    exact h.idleCallout
  | callout hhead hfree =>
    rw [List.map_singleton, List.sum_singleton]
    exact h.callout hhead hfree
  -- the item goes to a tracker, and from there to its function
  | take =>
    rw [List.map_singleton, List.sum_singleton]
    exact h.take hcard
  | call hitem =>
    rw [List.map_singleton, List.sum_singleton]
    exact h.finish
  | splice hitem =>
    rw [List.map_singleton, List.sum_singleton]
    exact h.spliced
  | @complete e tr n =>
    rw [List.map_singleton, List.sum_singleton]
    exact (Inv.finish (W := W) (e := e) h).idle _ _ _ _ _
  | done hd => exact h.release.dispatched hd
  | delay =>
    rw [List.map_nil, List.sum_nil, zero_add]
    exact h.delay
  -- a cancel gets the bit, or leaves it to whoever has it
  | grab hp =>
    rw [show (World.cancel _ _).holding = (0 : Holding W) from rfl, zero_add] at h
    rw [List.map_singleton, List.sum_singleton]
    simp only [holding, add_def, zero_add, Multiset.singleton_add]
    exact h.grab hp
  | @noGrab w timer =>
    rw [List.map_singleton, List.sum_singleton]
    cases timer <;> exact h
  | cancelTimer htimer =>
    rw [show (World.cancelTimer _).holding = (0 : Holding W) from rfl, zero_add] at h
    rw [List.map_singleton, List.sum_singleton]
    simp only [holding, add_def, zero_add, Multiset.singleton_add]
    exact h.expire htimer
  | noTimer =>
    rw [List.map_singleton, List.sum_singleton]
    exact h
  | @unbound w timer got =>
    rw [List.map_singleton, List.sum_singleton]
    cases got <;> exact h
  | scan => exact h.scan
  | remove he hitem =>
    rw [show (World.look _ _ false).holding = (0 : Holding W) from rfl, zero_add] at h
    refine Inv.scan ?_
    simp only [holding, add_def, zero_add, Multiset.singleton_add]
    exact h.unqueue he hitem
  | @lookAgain w timer got =>
    have hidle : Inv { q with waiting := q.waiting - 1 } ((World.look w timer got).holding + r) := by
      cases got <;> exact h.idle _ _ _ _ _
    exact hidle.scan
  | cancelEnd =>
    rw [List.map_nil, List.sum_nil, zero_add]
    simp only [holding, add_def, zero_add, Multiset.singleton_add] at h
    exact h.clear
  | retry =>
    rw [List.map_singleton, List.sum_singleton]
    exact h
  -- a plunger is an item like others
  | flush hmutex =>
    rw [show World.flush.holding = (0 : Holding W) from rfl, zero_add] at h
    rw [List.map_singleton, List.sum_singleton]
    simp only [holding, add_def, zero_add, Multiset.singleton_add]
    exact h.newPlunger
  | await hcomplete =>
    rw [List.map_singleton, List.sum_singleton]
    exact h
  | drain =>
    rw [show (World.drain _).holding = (0 : Holding W) from rfl, zero_add] at h
    exact h.drain
  | drainAgain =>
    rw [show (World.drainAgain _).holding = (0 : Holding W) from rfl, zero_add] at h
    exact (h.idle _ _ _ _ _).drain
  | unlock =>
    rw [List.map_nil, List.sum_nil]
    exact h.idle _ _ _ _ _

inductive Begins [DecidableEq W] (q : Workqueue W) : Workqueue W → List (World W) → Prop
  | nothing : Begins q q []
  | grab {w : W} {p : World W} (hp : q.pending (.work w) = false)
      (hworld : p = .queue (.work w) none ∨ p = .delay w) :
      Begins q (q.setPending (.work w) true) [p]
  | cancel {w : W} {timer : Bool} : Begins q q [.cancel w timer]
  | flush : Begins q q [.flush]
  | expire {w : W} (htimer : q.timer w = true) :
      Begins q { q with timer := Function.update q.timer w false } [.queue (.work w) none]
  | delayTimer : Begins q { q with delayTimer := false } [.timeout]
  | helper (hrequests : q.requests ≠ 0) :
      Begins q { q with requests := q.requests - 1 } [.callout]

theorem begins_of_begin {ev : WorkEvent W} (hbegin : q.begin ev = some (q', ps)) :
    Begins q q' ps := by
  cases ev with
  | queueWork w =>
    simp only [begin] at hbegin
    split at hbegin
    · cases hbegin
      exact .nothing
    · next hp =>
      cases hbegin
      exact .grab (Bool.eq_false_iff.mpr hp) (.inl rfl)
  | queueDelayedWork w =>
    simp only [begin] at hbegin
    split at hbegin
    · cases hbegin
      exact .nothing
    · next hp =>
      cases hbegin
      exact .grab (Bool.eq_false_iff.mpr hp) (.inr rfl)
  | cancelWorkSync w timer =>
    cases hbegin
    exact .cancel
  | flushWorkqueue =>
    cases hbegin
    exact .flush
  | delayedWorkTimer w =>
    simp only [begin] at hbegin
    split at hbegin
    · next htimer =>
      cases hbegin
      exact .expire htimer
    · cases hbegin
  | delayTimer =>
    simp only [begin] at hbegin
    split at hbegin
    · cases hbegin
      exact .delayTimer
    · cases hbegin
  | helper =>
    simp only [begin] at hbegin
    split at hbegin
    · cases hbegin
    · next hrequests =>
      cases hbegin
      exact .helper hrequests

theorem begin_inv (h : Inv q r) (hbegins : Begins q q' ps) : Inv q' ((ps.map holding).sum + r) := by
  cases hbegins with
  | nothing =>
    rw [List.map_nil, List.sum_nil, zero_add]
    exact h
  | grab hp hworld =>
    rw [List.map_singleton, List.sum_singleton]
    rcases hworld with rfl | rfl
    all_goals
      simp only [holding, add_def, zero_add, Multiset.singleton_add]
      exact h.grab hp
  | cancel | flush =>
    rw [List.map_singleton, List.sum_singleton]
    exact (zero_add r).symm ▸ h
  | expire htimer =>
    rw [List.map_singleton, List.sum_singleton]
    simp only [holding, add_def, zero_add, Multiset.singleton_add]
    exact h.expire htimer
  | delayTimer =>
    rw [List.map_singleton, List.sum_singleton]
    exact (zero_add r).symm ▸ h.idle _ _ _ _ _
  | helper hrequests =>
    rw [List.map_singleton, List.sum_singleton]
    simp only [holding, add_def, zero_add]
    have hposted := h.counts.posted
    exact h.post _ (by push_cast; omega) h.counts.le

theorem inv_created (singlethread : Bool) (pcpus : Nat) :
    Inv (createWorkqueue singlethread pcpus : Workqueue W) 0 := by
  refine ⟨⟨rfl, rfl, rfl, ?_, rfl⟩, ⟨?_, rfl, fun tr e => ?_⟩, ⟨?_, fun _ _ => rfl⟩, ?_⟩
  · simp only [createWorkqueue]
    split <;> omega
  · simp [createWorkqueue]
  · exact iff_of_false nofun (Multiset.notMem_zero _)
  · intro i
    cases i <;> rfl
  · exact ⟨.nil, nofun, nofun, nofun, nofun, fun _ => ⟨.nil, nofun⟩⟩

theorem inv_step {r t : WorkState W} {e : PoolEvent (World W) (WorkEvent W) Bool}
    (h : Program.Holds (fun q ws => Inv q (holdings ws)) r) (hstep : WorkStep r e t) :
    Program.Holds (fun q ws => Inv q (holdings ws)) t := by
  refine Program.keeps_step ?_ ?_ h hstep
  · intro q ws ev q' ps h hbegin
    rw [holdings, total_add, total_coe]
    exact begin_inv h (begins_of_begin hbegin)
  · intro q p rest submitted o h hmove
    rw [holdings, total_cons] at h
    obtain ⟨q', ps, rfl, hmoves⟩ := move_ok h hmove
    refine ⟨q', ps, rfl, ?_⟩
    rw [holdings, total_add, total_coe]
    exact hmoves.inv h (card_taking_le rest)

/-- **The invariant** holds along every run. -/
theorem inv_run {singlethread : Bool} {pcpus : Nat} {r : WorkState W}
    {es : List (PoolEvent (World W) (WorkEvent W) Bool)}
    (hrun : Run WorkStep (.created singlethread pcpus) es r) :
    Program.Holds (fun q ws => Inv q (holdings ws)) r := by
  refine hrun.invariant (fun _ _ _ h hstep => inv_step h hstep) ?_
  exact inv_created singlethread pcpus

end Runs

/-! ## What is promised -/

structure Accounting [DecidableEq W] (q : Workqueue W) : Prop where
  qLen : q.qLen = q.head.length
  curPosted : 0 ≤ q.curPosted
  curDispatch : 0 ≤ q.curDispatch
  maxDispatch : q.curPosted + q.curDispatch ≤ q.maxDispatch
  trackers : (q.trackFree ++ q.trackList ++ q.trackFlushList).Perm (List.range q.maxDispatch)
  inUse : q.curDispatch = q.trackList.length + q.trackFlushList.length
  pending : ∀ i, q.OnQueue i → q.pending i = true

def World.inFunction : World W → Bool
  | .call .. | .complete .. => true
  | _ => false

/-- One function runs at a time, and they were called in the order their items were queued. -/
structure Serial (q : Workqueue W) (ws : Multiset (World W)) : Prop where
  alone : ws.countP (fun p => p.inFunction = true) ≤ 1
  ordered : q.calls.Pairwise (· < ·)

/-- No assertion has failed, the queue is accounted for, and with one tracker it is serial. -/
def Accounted [DecidableEq W] : WorkState W → Prop
  | .ok s => Accounting s.shared ∧ (s.shared.maxDispatch = 1 → Serial s.shared s.active)
  | .error _ => False

theorem countP_inFunction_le (ws : Multiset (World W)) :
    ws.countP (fun p => p.inFunction = true) ≤ (holdings ws).trackers.card := by
  induction ws using Multiset.induction_on with
  | empty => exact le_rfl
  | cons p ws ih =>
    rw [holdings, total_cons, add_def, Multiset.countP_cons, add_comm]
    simp only [Multiset.card_add]
    refine Nat.add_le_add ?_ ih
    cases p <;> simp [inFunction, holding]

section Promised

variable [DecidableEq W] {q : Workqueue W}

theorem Inv.accounting {d : Holding W} (h : Inv q d) : Accounting q := by
  obtain ⟨hlen, hposted, hdispatched, hle, -⟩ := h.counts
  refine ⟨hlen.symm, by omega, by omega, hle, ?_, ?_, fun i hi => (h.tokens.of_mem hi).1⟩
  · rw [List.append_assoc]
    exact h.trackers.perm
  · rw [hdispatched, h.trackers.card_held]
    push_cast
    rfl

theorem Inv.serial {ws : Multiset (World W)} (h : Inv q (holdings ws)) (hone : q.maxDispatch = 1) :
    Serial q ws := by
  refine ⟨(countP_inFunction_le ws).trans ?_, (h.tickets.serial hone).1⟩
  have hcard := h.trackers.card_free
  omega

/-- **Accounting**: whatever worlds do, and whenever the helper refuses a request, no assertion
    fails and the counters and lists agree; with a single thread functions do not overlap and run
    in the order their items were queued. -/
theorem workqueue_accounting (singlethread : Bool) (pcpus : Nat)
    (es : List (PoolEvent (World W) (WorkEvent W) Bool)) :
    Always WorkStep Accounted (.created singlethread pcpus) es := by
  intro pre t _ hrun
  have hinv := inv_run hrun
  cases t with
  | ok s => exact ⟨hinv.accounting, hinv.serial⟩
  | error a => exact hinv

end Promised

end VmkDrivers.Vmklinux
