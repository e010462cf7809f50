/-
  VmkDrivers.Vmklinux.CompletionWait

  What a completion owes to the tasks that wait for it.

  `complete` counts a wake-up as delivered to the first of the list whether or
  not that task was woken before, so that of two completions one may be left for
  a task that nobody wakes (`completion_lost`).  Where it finds that task not
  woken yet, and no task goes to sleep again that was woken, no completion is
  lost (`completion_served`).  A wait returns 0 only when its timeout has elapsed.
-/

import VmkDrivers.Vmklinux.Completion

namespace VmkDrivers.Vmklinux

open VmkDrivers.Lib

/-! ## What is promised -/

def WaitPhase.listed : WaitPhase → Bool
  | .idle | .lock => false
  | _ => true

/-- The task has been made runnable since it last tested `done`: `LTE_RESUME` is set, or it is past
    `LinuxTask_WaitEvent`. -/
def Waiter.runnable (w : Waiter) : Bool := w.te.resume || w.phase = .awake || w.phase = .relock

/-- The task is runnable, or `complete` is to wake it. -/
def CompletionData.woken (d : CompletionData) (t : Nat) : Bool :=
  (d.tasks t).runnable || d.waking = some t

structure Served (d : CompletionData) : Prop where
  done : d.completes = d.done + d.consumed
  runnable : min d.done d.taskList.length ≤ d.taskList.countP fun t => (d.tasks t).runnable

/-- A wait that returns 0 has consumed nothing, and its timeout has elapsed. -/
def WaitResult.Timely (r : WaitResult) : Prop := r.ret = 0 → r.consumed = false ∧ r.asked ≤ r.elapsed

/-- `complete` finds the first of the list not woken yet, or enough of the others, and its counter
    below the end of its range; a task that is woken does not go to sleep again unless it is woken
    again, or enough of the others are. -/
def WakeCareful (d : CompletionData) : CompletionEvent → Prop
  | .complete => d.done + 1 < 2 ^ 32 ∧ ((∃ t ∈ d.taskList.head?, d.woken t = false) ∨
      min (d.done + 1) d.taskList.length ≤ d.taskList.countP d.woken)
  | .goOn t => (d.tasks t).phase = .awake → (d.tasks t).Again d.jiffies →
      (d.tasks t).te.resume = true ∨ d.waking = some t ∨
        min d.done d.taskList.length < d.taskList.countP d.woken
  | _ => True

instance (d : CompletionData) (e : CompletionEvent) : Decidable (WakeCareful d e) := by
  unfold WakeCareful
  split <;> infer_instance

/-! ## The invariant -/

/-- The timer of the wait, if it has one, is set as far as the wait was asked to. -/
def Waiter.Set (w : Waiter) (jiffies : Nat) : Prop :=
  if w.timeout = maxScheduleTimeout then (w.start : Int) + w.asked ≤ jiffies + w.timeout
  else ∃ due : Nat, w.expires = BitVec.ofNat 64 due ∧ (w.start : Int) + w.asked ≤ due ∧
    due < jiffies + 2 ^ 63

def Waiter.Left (w : Waiter) (jiffies : Nat) : Prop :=
  match w.phase with
  | .idle => True
  | .waitEvent | .blocked | .awake => w.Set jiffies
  | .lock | .scheduleTimeout | .relock => (w.start : Int) + w.asked ≤ jiffies + w.timeout

structure Waiter.Due (w : Waiter) (jiffies : Nat) : Prop where
  timeout : w.timeout < 2 ^ 63
  start : w.start ≤ jiffies
  left : (w.start : Int) + w.asked ≤ jiffies ∨ w.Left jiffies

structure CompletionInv (d : CompletionData) : Prop where
  nodup : d.taskList.Nodup
  listed : ∀ t, t ∈ d.taskList ↔ (d.tasks t).phase.listed = true
  state : ∀ t, (d.tasks t).phase.listed = true → (d.tasks t).te.state = .running →
    (d.tasks t).runnable = true
  done : d.completes = d.done + d.consumed
  woken : min d.done d.taskList.length ≤ d.taskList.countP d.woken
  due : ∀ t, (d.tasks t).Due d.jiffies
  timely : ∀ r ∈ d.results, r.Timely

section Count

variable {l : List Nat} {p q : Nat → Bool} {t : Nat}

theorem countP_eq_erase (p : Nat → Bool) (ht : t ∈ l) :
    l.countP p = (l.erase t).countP p + if p t then 1 else 0 := by
  rw [(List.perm_cons_erase ht).countP_eq p, List.countP_cons]

theorem countP_add_one_le (ht : t ∈ l) (hp : p t = false) (hq : q t = true)
    (h : ∀ x ∈ l, p x = true → q x = true) : l.countP p + 1 ≤ l.countP q := by
  rw [countP_eq_erase p ht, countP_eq_erase q ht, hp, hq]
  have hothers : (l.erase t).countP p ≤ (l.erase t).countP q :=
    List.countP_mono_left fun x hx => h x (List.mem_of_mem_erase hx)
  simpa using hothers

theorem countP_le_add_one (hl : l.Nodup) (h : ∀ x ∈ l, x ≠ t → p x = true → q x = true) :
    l.countP p ≤ l.countP q + 1 := by
  by_cases ht : t ∈ l
  · rw [countP_eq_erase p ht, countP_eq_erase q ht]
    have hothers : (l.erase t).countP p ≤ (l.erase t).countP q :=
      List.countP_mono_left fun x hx => h x (List.mem_of_mem_erase hx) fun heq =>
        hl.not_mem_erase (heq ▸ hx)
    split <;> omega
  · have := List.countP_mono_left fun x hx => h x hx fun heq => ht (heq ▸ hx)
    omega

end Count

open CompletionData Waiter

section Steps

variable {d d' : CompletionData} {t : Nat} {w : Waiter} {jiffies : Nat}

@[simp] theorem setTask_self (d : CompletionData) (t : Nat) (w : Waiter) :
    (d.setTask t w).tasks t = w := Function.update_self ..

theorem setTask_of_ne (d : CompletionData) {t' : Nat} (w : Waiter) (h : t' ≠ t) :
    (d.setTask t w).tasks t' = d.tasks t' := Function.update_of_ne h _ _

theorem woken_setTask_of_ne (d : CompletionData) {t' : Nat} (w : Waiter) (h : t' ≠ t) :
    (d.setTask t w).woken t' = d.woken t' := by
  rw [woken, setTask_of_ne d w h]
  rfl

theorem CompletionInv.setTask (h : CompletionInv d)
    (hlisted : w.phase.listed = (d.tasks t).phase.listed)
    (hstate : w.phase.listed = true → w.te.state = .running → w.runnable = true)
    (hwoken : min d.done d.taskList.length ≤ d.taskList.countP (d.setTask t w).woken)
    (hdue : w.Due d.jiffies) : CompletionInv (d.setTask t w) := by
  have hcases : ∀ t', t' = t ∨ (d.setTask t w).tasks t' = d.tasks t' := fun t' => by
    by_cases ht : t' = t
    · exact .inl ht
    · exact .inr (setTask_of_ne d w ht)
  refine ⟨h.nodup, fun t' => ?_, fun t' => ?_, h.done, hwoken, fun t' => ?_, h.timely⟩
  · rcases hcases t' with rfl | heq
    · rw [setTask_self, hlisted]
      exact h.listed t'
    · rw [heq]
      exact h.listed t'
  · rcases hcases t' with rfl | heq
    · rw [setTask_self]
      exact hstate
    · rw [heq]
      exact h.state t'
  · rcases hcases t' with rfl | heq
    · rw [setTask_self]
      exact hdue
    · rw [heq]
      exact h.due t'

theorem countP_woken_setTask (hrunnable : (d.tasks t).runnable = true → w.runnable = true) :
    d.taskList.countP d.woken ≤ d.taskList.countP (d.setTask t w).woken := by
  refine List.countP_mono_left fun t' _ hwoken => ?_
  by_cases ht : t' = t
  · subst ht
    simp only [woken, setTask_self, Bool.or_eq_true] at hwoken ⊢
    exact hwoken.imp_left hrunnable
  · rwa [woken_setTask_of_ne d w ht]

theorem complete_inv (h : CompletionInv d) (hwaking : d.waking = none)
    (hguard : WakeCareful d .complete) : CompletionInv d.complete := by
  obtain ⟨hrange, hscan⟩ := hguard
  have hdone : d.complete.done = d.done + 1 := Nat.mod_eq_of_lt hrange
  have hmono : ∀ t ∈ d.taskList, d.woken t = true → d.complete.woken t = true := fun t _ ht => by
    rw [woken, hwaking, Bool.or_eq_true] at ht
    rw [woken, Bool.or_eq_true]
    exact .inl (ht.resolve_right nofun)
  refine ⟨h.nodup, h.listed, h.state, ?_, ?_, h.due, h.timely⟩
  · rw [hdone, Nat.add_right_comm]
    exact congrArg (· + 1) h.done
  · rw [hdone]
    rcases hscan with ⟨t, hhead, hasleep⟩ | henough
    · -- the one that is found was not woken, and is now
      have ht : t ∈ d.taskList := List.mem_of_mem_head? hhead
      have hrunnable : (d.tasks t).runnable = false := (Bool.or_eq_false_iff.mp hasleep).1
      have hstate : (d.tasks t).te.state ≠ .running := fun hstate => by
        rw [h.state t ((h.listed t).mp ht) hstate] at hrunnable
        cases hrunnable
      have hwake : d.complete.waking = some t :=
        Option.filter_eq_some_iff.mpr ⟨hhead, decide_eq_true hstate⟩
      have hone := countP_add_one_le ht hasleep
        (show d.complete.woken t = true by simp [woken, hwake]) hmono
      have := h.woken
      exact show min (d.done + 1) d.taskList.length ≤ d.taskList.countP d.complete.woken by omega
    · exact Nat.le_trans henough (List.countP_mono_left hmono)

theorem Waiter.Due.of_eq {w' : Waiter} (h : w.Due jiffies) (hphase : w'.phase = w.phase)
    (htimeout : w'.timeout = w.timeout) (hexpires : w'.expires = w.expires)
    (hasked : w'.asked = w.asked) (hstart : w'.start = w.start) : w'.Due jiffies := by
  have hleft : w'.Left jiffies ↔ w.Left jiffies := by
    simp only [Waiter.Left, Waiter.Set, hphase, htimeout, hexpires, hasked, hstart]
  exact ⟨htimeout ▸ h.timeout, hstart ▸ h.start, by rw [hasked, hstart, hleft]; exact h.left⟩

theorem Waiter.Due.tick (h : w.Due jiffies) : w.Due (jiffies + 1) := by
  have hset : w.Set jiffies → w.Set (jiffies + 1) := fun hset => by
    unfold Waiter.Set at hset ⊢
    by_cases hmax : w.timeout = maxScheduleTimeout
    · rw [if_pos hmax] at hset ⊢
      omega
    · rw [if_neg hmax] at hset ⊢
      obtain ⟨due, hexpires, hasked, hfar⟩ := hset
      exact ⟨due, hexpires, hasked, by omega⟩
  refine ⟨h.timeout, Nat.le_succ_of_le h.start, h.left.imp (fun hpast => by omega) fun hleft => ?_⟩
  unfold Waiter.Left at hleft ⊢
  split at hleft
  · trivial
  · exact hset hleft
  · exact hset hleft
  · exact hset hleft
  · omega
  · omega
  · omega

theorem sendEvent_inv (h : CompletionInv d) (hte : w.te = (d.tasks t).te.sendEvent)
    (hphase : w.phase = (d.tasks t).phase) (hdue : w.Due d.jiffies) :
    CompletionInv (d.setTask t w) := by
  have hrunnable : w.runnable = true := by simp [runnable, hte]
  exact h.setTask (congrArg _ hphase) (fun _ _ => hrunnable)
    (Nat.le_trans h.woken (countP_woken_setTask fun _ => hrunnable)) hdue

theorem wakeUpProcess_inv (h : CompletionInv d) (hwaking : d.waking = some t) :
    CompletionInv (d.wakeUpProcess t) := by
  have hsent := sendEvent_inv h (t := t)
    (w := { d.tasks t with te := (d.tasks t).te.sendEvent }) rfl rfl
    ((h.due t).of_eq rfl rfl rfl rfl rfl)
  refine ⟨hsent.nodup, hsent.listed, hsent.state, hsent.done,
    Nat.le_trans hsent.woken ?_, hsent.due, hsent.timely⟩
  -- the task to be woken is woken without the mark
  refine List.countP_mono_left fun t' _ hwoken => ?_
  refine (Bool.or_eq_true _ _).mpr (.inl ?_)
  rcases (Bool.or_eq_true _ _).mp hwoken with hrunnable | hmark
  · exact hrunnable
  · have ht : t = t' := by
      rw [show (d.setTask t _).waking = some t from hwaking] at hmark
      simpa using hmark
    subst ht
    simp [CompletionData.wakeUpProcess, runnable, setTask]

theorem waitForCommon_inv (h : CompletionInv d) (hidle : (d.tasks t).phase = .idle)
    {timeout : Int} (hrange : timeout < 2 ^ 63) : CompletionInv (d.waitForCommon t timeout) := by
  refine h.setTask (by rw [hidle]; rfl) nofun
    (Nat.le_trans h.woken (countP_woken_setTask fun hrunnable => ?_))
    ⟨hrange, Nat.le_refl _, .inr (Int.le_refl _)⟩
  simpa [runnable, hidle] using hrunnable

theorem sleep_inv (h : CompletionInv d) (hzero : d.done = 0)
    {l : List Nat} (hnodup : l.Nodup) (hlisted : ∀ t', t' ∈ l ↔ t' ∈ d.taskList ∨ t' = t)
    (hleft : (d.tasks t).Left d.jiffies →
      ((d.tasks t).start : Int) + (d.tasks t).asked ≤ d.jiffies + (d.tasks t).timeout) :
    CompletionInv (sleep { d with taskList := l } t) := by
  have hcases : ∀ t', t' = t ∨ t' ≠ t ∧
      (sleep { d with taskList := l } t).tasks t' = d.tasks t' := fun t' => by
    by_cases ht : t' = t
    · exact .inl ht
    · exact .inr ⟨ht, setTask_of_ne _ _ ht⟩
  have hself : (sleep { d with taskList := l } t).tasks t =
      { (d.tasks t).setUninterruptible with phase := .scheduleTimeout } := setTask_self ..
  refine ⟨hnodup, fun t' => ?_, fun t' => ?_, h.done, ?_, fun t' => ?_, h.timely⟩
  · refine (hlisted t').trans ?_
    rcases hcases t' with rfl | ⟨hne, heq⟩
    · rw [hself]
      exact ⟨fun _ => rfl, fun _ => .inr rfl⟩
    · rw [heq, ← h.listed t']
      exact ⟨fun hor => hor.resolve_right hne, .inl⟩
  · rcases hcases t' with rfl | ⟨-, heq⟩
    · rw [hself]
      nofun
    · rw [heq]
      exact h.state t'
  · exact Nat.le_trans (Nat.min_le_left ..) (Nat.le_trans (Nat.le_of_eq hzero) (Nat.zero_le _))
  · rcases hcases t' with rfl | ⟨-, heq⟩
    · rw [hself]
      exact ⟨(h.due t').timeout, (h.due t').start, (h.due t').left.imp_right hleft⟩
    · rw [heq]
      exact h.due t'

theorem leave_inv (h : CompletionInv d) {n c : Nat} {ret : Int} {consumed : Bool}
    (hdone : d.completes = n + c)
    (hwoken : min n (d.taskList.erase t).length ≤ (d.taskList.erase t).countP d.woken)
    (htimely : (WaitResult.mk (d.tasks t).asked ret consumed
      (d.jiffies - (d.tasks t).start)).Timely) :
    CompletionInv (leave
      { d with taskList := d.taskList.erase t, done := n, consumed := c } t ret consumed) := by
  generalize hd' : leave
    { d with taskList := d.taskList.erase t, done := n, consumed := c } t ret consumed = d'
  have hself : d'.tasks t = { d.tasks t with phase := .idle } := hd' ▸ setTask_self ..
  have hne : ∀ {t'}, t' ≠ t → d'.tasks t' = d.tasks t' := fun ht =>
    hd' ▸ setTask_of_ne { d with taskList := d.taskList.erase t, done := n, consumed := c } _ ht
  have hlist : d'.taskList = d.taskList.erase t := hd' ▸ rfl
  refine ⟨hlist ▸ h.nodup.erase t, fun t' => ?_, fun t' => ?_, ?_, ?_, fun t' => ?_,
    fun r hr => ?_⟩
  · rw [hlist, h.nodup.mem_erase_iff]
    by_cases ht : t' = t
    · subst ht
      rw [hself]
      exact ⟨fun hmem => absurd rfl hmem.1, nofun⟩
    · rw [hne ht, ← h.listed t']
      exact ⟨And.right, .intro ht⟩
  · by_cases ht : t' = t
    · subst ht
      rw [hself]
      nofun
    · rw [hne ht]
      exact h.state t'
  · rw [← hd']
    exact hdone
  · rw [hlist, ← hd']
    refine Nat.le_trans hwoken (List.countP_mono_left fun t' ht' hw => ?_)
    have ht : t' ≠ t := fun heq => h.nodup.not_mem_erase (heq ▸ ht')
    rw [hd', woken, hne ht, ← hd']
    exact hw
  · have hj : d'.jiffies = d.jiffies := hd' ▸ rfl
    rw [hj]
    by_cases ht : t' = t
    · subst ht
      rw [hself]
      exact ⟨(h.due t').timeout, (h.due t').start, .inr trivial⟩
    · rw [hne ht]
      exact h.due t'
  · rw [← hd'] at hr
    rcases List.mem_append.mp hr with hr | hr
    · exact h.timely r hr
    · obtain rfl := List.mem_singleton.mp hr
      exact htimely

theorem consume_inv (h : CompletionInv d) (hpos : d.done ≠ 0)
    (hrunnable : t ∈ d.taskList → (d.tasks t).runnable = true) :
    CompletionInv (consume { d with taskList := d.taskList.erase t } t) := by
  refine leave_inv h (n := d.done - 1) (c := d.consumed + 1) ?_ ?_ fun hret => ?_
  · have := h.done
    omega
  · have hwoken := h.woken
    by_cases ht : t ∈ d.taskList
    · -- the one that leaves was woken
      have hself : d.woken t = true := by
        rw [woken, hrunnable ht, Bool.true_or]
      rw [countP_eq_erase d.woken ht, if_pos hself] at hwoken
      rw [List.length_erase_of_mem ht]
      omega
    · rw [List.erase_of_not_mem ht]
      omega
  · have hret : (if (d.tasks t).timeout = 0 then 1 else (d.tasks t).timeout) = 0 := hret
    split at hret
    · cases hret
    · contradiction

theorem lock_inv (h : CompletionInv d) (hphase : (d.tasks t).phase = .lock) :
    CompletionInv (d.lock t) := by
  have hnot : t ∉ d.taskList := fun ht => by
    have := (h.listed t).mp ht
    rw [hphase] at this
    cases this
  unfold CompletionData.lock
  split
  · next hzero =>
    refine sleep_inv h hzero (List.nodup_append.mpr ⟨h.nodup, by simp, ?_⟩) (by simp) fun hleft => ?_
    · rintro a ha b hb rfl
      exact hnot (List.mem_singleton.mp hb ▸ ha)
    · rwa [Waiter.Left, hphase] at hleft
  · next hpos =>
    have hconsume := consume_inv h hpos (t := t) fun ht => absurd ht hnot
    rwa [List.erase_of_not_mem hnot] at hconsume

theorem relock_inv (h : CompletionInv d) (hphase : (d.tasks t).phase = .relock) :
    CompletionInv (d.relock t) := by
  have hmem : t ∈ d.taskList := (h.listed t).mpr (by rw [hphase]; rfl)
  have hleft : (d.tasks t).Left d.jiffies →
      ((d.tasks t).start : Int) + (d.tasks t).asked ≤ d.jiffies + (d.tasks t).timeout := fun hleft => by
    rwa [Waiter.Left, hphase] at hleft
  unfold CompletionData.relock
  split
  · next hsleep =>
    exact sleep_inv h hsleep.1 h.nodup (fun t' => ⟨.inl, fun hor => hor.elim id (· ▸ hmem)⟩) hleft
  · next hsleep =>
    dsimp only
    split
    · next hzero =>
      -- the timeout is over
      have htimeout : (d.tasks t).timeout = 0 := Decidable.not_not.mp fun hne => hsleep ⟨hzero, hne⟩
      have hdue := h.due t
      refine leave_inv h (n := d.done) h.done (by rw [hzero]; omega) fun _ => ⟨rfl, ?_⟩
      have hstart := hdue.start
      have : ((d.tasks t).start : Int) + (d.tasks t).asked ≤ d.jiffies := by
        rcases hdue.left with hpast | hleft'
        · exact hpast
        · have := hleft hleft'
          omega
      exact show (d.tasks t).asked ≤ ((d.jiffies - (d.tasks t).start : Nat) : Int) by omega
    · next hpos => exact consume_inv h hpos fun _ => by rw [runnable, hphase]; simp

theorem diff_eq {due : Nat} (h : w.expires = BitVec.ofNat 64 due) (hle : jiffies ≤ due)
    (hlt : due < jiffies + 2 ^ 63) : w.diff jiffies = due - jiffies := by
  obtain ⟨n, rfl⟩ := Nat.exists_eq_add_of_le hle
  have hsub : w.expires - BitVec.ofNat 64 jiffies = BitVec.ofNat 64 n := by
    rw [h, BitVec.ofNat_add, BitVec.add_comm, BitVec.add_sub_cancel]
  have hn : n < 2 ^ 63 := by omega
  rw [diff, hsub, BitVec.toInt_eq_toNat_of_lt (by rw [BitVec.toNat_ofNat]; omega),
    BitVec.toNat_ofNat]
  omega

theorem scheduleTimeout_due (h : w.Due jiffies) (hphase : w.phase = .scheduleTimeout) :
    (w.scheduleTimeout jiffies).Due jiffies := by
  have hleft : w.Left jiffies ↔ (w.start : Int) + w.asked ≤ jiffies + w.timeout := by
    rw [Waiter.Left, hphase]
  have hdue := h.left.imp_right hleft.mp
  unfold Waiter.scheduleTimeout
  split
  · next hmax => exact ⟨h.timeout, h.start, hdue.imp_right (if_pos hmax).mpr⟩
  · next hmax =>
    split
    · next hneg =>
      refine ⟨by show (0 : Int) < 2 ^ 63; decide, h.start, .inl ?_⟩
      show (w.start : Int) + w.asked ≤ jiffies
      omega
    · next hneg =>
      refine ⟨h.timeout, h.start, hdue.imp_right fun hle => (if_neg hmax).mpr ?_⟩
      refine ⟨w.timeout.toNat + jiffies, ?_, ?_, ?_⟩
      · have hnat : w.timeout = (w.timeout.toNat : Int) := (Int.toNat_of_nonneg (by omega)).symm
        show BitVec.ofInt 64 w.timeout + BitVec.ofNat 64 jiffies = _
        rw [BitVec.ofNat_add, hnat, BitVec.ofInt_natCast, Int.toNat_natCast]
      · show (w.start : Int) + w.asked ≤ ((w.timeout.toNat + jiffies : Nat) : Int)
        omega
      · have := h.timeout
        omega

theorem awake_due {w' : Waiter} (h : w.Due jiffies) (hphase : w.phase = .awake)
    (hawake : w.awake jiffies = some w') : w'.Due jiffies := by
  have hleft : w.Left jiffies ↔ w.Set jiffies := by rw [Waiter.Left, hphase]
  rw [Waiter.Set] at hleft
  unfold Waiter.awake at hawake
  split at hawake
  · next hmax =>
    cases hawake
    exact ⟨h.timeout, h.start, h.left.imp_right fun hl => by rwa [hleft, if_pos hmax] at hl⟩
  · next hmax =>
    rw [if_neg hmax] at hleft
    split at hawake
    · cases hawake
    · split at hawake
      · cases hawake
        exact ⟨h.timeout, h.start, h.left.imp_right fun hl => (if_neg hmax).mpr (hleft.mp hl)⟩
      · cases hawake
        have hrange : w.diff jiffies < 2 ^ 63 := BitVec.toInt_lt
        refine ⟨by show max 0 (w.diff jiffies) < 2 ^ 63; omega, h.start, ?_⟩
        rcases h.left with hpast | hl
        · exact .inl hpast
        · obtain ⟨due, hexpires, hasked, hfar⟩ := hleft.mp hl
          by_cases hle : jiffies ≤ due
          · have hdiff := diff_eq hexpires hle hfar
            refine .inr ?_
            show (w.start : Int) + w.asked ≤ jiffies + max 0 (w.diff jiffies)
            omega
          · exact .inl (by show (w.start : Int) + w.asked ≤ jiffies; omega)

theorem enter_inv (h : CompletionInv d) (te : LinuxTask)
    (hphase : (d.tasks t).phase = .waitEvent ∨ (d.tasks t).phase = .blocked)
    (hresume : te.resume = (d.tasks t).te.resume)
    (hasleep : te.state = .running → te.resume = true) :
    CompletionInv (d.setTask t ((d.tasks t).enter te.waitEvent)) := by
  have hlisted : (d.tasks t).phase.listed = true := by rcases hphase with hp | hp <;> rw [hp] <;> rfl
  have hdue : ((d.tasks t).enter te.waitEvent).Due d.jiffies := by
    have hold := h.due t
    refine ⟨hold.timeout, hold.start, hold.left.imp_right fun hleft => ?_⟩
    have hset : (d.tasks t).Set d.jiffies := by
      rcases hphase with hp | hp <;> rwa [Waiter.Left, hp] at hleft
    rcases te.waitEvent with ⟨te', _ | _⟩ <;> exact hset
  cases hwait : te.waitEvent with
  | mk te' waits =>
    rw [hwait] at hdue
    cases waits with
    | false =>
      -- it has been woken
      have hrunnable : ((d.tasks t).enter (te', false)).runnable = true := by
        simp [enter, runnable]
      exact h.setTask hlisted.symm (fun _ _ => hrunnable)
        (Nat.le_trans h.woken (countP_woken_setTask fun _ => hrunnable)) hdue
    | true =>
      obtain ⟨hnot, rfl⟩ := LinuxTask.waitEvent_waits hwait
      refine h.setTask hlisted.symm (fun _ hrun => ?_)
        (Nat.le_trans h.woken (countP_woken_setTask fun hrunnable => ?_)) hdue
      · exact absurd (hasleep hrun) (by rw [hnot]; nofun)
      · have hold : (d.tasks t).te.resume = true := by
          rcases hphase with hp | hp <;> simpa [runnable, hp] using hrunnable
        rw [← hresume, hnot] at hold
        cases hold

theorem goOn_inv (h : CompletionInv d) (hgoOn : d.goOn t = some d')
    (hguard : WakeCareful d (.goOn t)) : CompletionInv d' := by
  unfold CompletionData.goOn at hgoOn
  dsimp only at hgoOn
  cases hphase : (d.tasks t).phase with
  | idle =>
    rw [hphase] at hgoOn
    cases hgoOn
  | lock =>
    rw [hphase] at hgoOn
    obtain ⟨-, heq⟩ := Option.ite_none_right_eq_some.mp hgoOn
    cases heq
    exact lock_inv h hphase
  | scheduleTimeout =>
    rw [hphase] at hgoOn
    cases hgoOn
    -- the timer is set, which is nothing to the task
    have hte : ((d.tasks t).scheduleTimeout d.jiffies).te = (d.tasks t).te := by
      unfold Waiter.scheduleTimeout
      split
      · rfl
      · split <;> rfl
    have hlisted : ((d.tasks t).scheduleTimeout d.jiffies).phase.listed = true := by
      unfold Waiter.scheduleTimeout
      split
      · rfl
      · split <;> rfl
    have hrunnable : (d.tasks t).runnable = true →
        ((d.tasks t).scheduleTimeout d.jiffies).runnable = true := fun hr => by
      have hresume : (d.tasks t).te.resume = true := by simpa [runnable, hphase] using hr
      rw [runnable, hte, hresume, Bool.true_or, Bool.true_or]
    refine h.setTask (by rw [hlisted, hphase]; rfl) (fun _ hrun => hrunnable ?_)
      (Nat.le_trans h.woken (countP_woken_setTask hrunnable)) (scheduleTimeout_due (h.due t) hphase)
    exact h.state t (by rw [hphase]; rfl) (hte ▸ hrun)
  | waitEvent =>
    rw [hphase] at hgoOn
    cases hgoOn
    unfold schedule
    split
    · -- it has been woken, as a task that waits is not running
      have hdue := h.due t
      refine h.setTask (by rw [hphase]; rfl) (fun _ _ => by simp [runnable])
        (Nat.le_trans h.woken (countP_woken_setTask fun _ => by simp [runnable]))
        ⟨hdue.timeout, hdue.start, hdue.left.imp_right fun hleft => ?_⟩
      rwa [Waiter.Left, hphase] at hleft
    · next hrun => exact enter_inv h _ (.inl hphase) rfl fun hr => absurd hr hrun
  | blocked =>
    rw [hphase] at hgoOn
    cases hgoOn
    refine enter_inv h { (d.tasks t).te with suspended := false } (.inr hphase) rfl
      fun hrun => ?_
    simpa [runnable, hphase] using h.state t (by rw [hphase]; rfl) hrun
  | awake =>
    rw [hphase] at hgoOn
    obtain ⟨w', hawake, rfl⟩ := Option.map_eq_some_iff.mp hgoOn
    have hdue := awake_due (h.due t) hphase hawake
    have hrelock : w'.phase = .relock → CompletionInv (d.setTask t w') := fun hp => by
      have hrunnable : w'.runnable = true := by simp [runnable, hp]
      exact h.setTask (by rw [hp, hphase]; rfl) (fun _ _ => hrunnable)
        (Nat.le_trans h.woken (countP_woken_setTask fun _ => hrunnable)) hdue
    unfold Waiter.awake at hawake
    split at hawake
    · exact hrelock (Option.some.inj hawake ▸ rfl)
    · split at hawake
      · cases hawake
      · split at hawake
        · next hagain =>
          cases hawake
          refine h.setTask (by rw [hphase]; rfl) nofun ?_ hdue
          have hwoken := h.woken
          -- it sleeps again: a wake-up is there, on its way, or meant for another task
          rcases hguard hphase hagain with hresume | hwaking | hmore
          · refine Nat.le_trans hwoken (countP_woken_setTask fun _ => ?_)
            rw [runnable, setUninterruptible, hresume]
            simp
          · refine Nat.le_trans hwoken (List.countP_mono_left fun t' _ hw => ?_)
            by_cases ht : t' = t
            · rw [woken, Bool.or_eq_true]
              exact .inr (decide_eq_true (ht ▸ hwaking))
            · rwa [woken_setTask_of_ne d _ ht]
          · have := countP_le_add_one (p := d.woken)
              (q := (d.setTask t { (d.tasks t).setUninterruptible with
                phase := .waitEvent, timer := true }).woken) (t := t) h.nodup
              fun t' _ ht hw => by rwa [woken_setTask_of_ne d _ ht]
            omega
        · exact hrelock (Option.some.inj hawake ▸ rfl)
  | relock =>
    rw [hphase] at hgoOn
    obtain ⟨-, heq⟩ := Option.ite_none_right_eq_some.mp hgoOn
    cases heq
    exact relock_inv h hphase

theorem CompletionStep.inv {e : CompletionEvent} (h : CompletionInv d)
    (hguard : WakeCareful d e) (hstep : CompletionStep d e d') : CompletionInv d' := by
  cases e with
  | complete =>
    obtain ⟨hwaking, heq⟩ := Option.ite_none_right_eq_some.mp hstep
    cases heq
    exact complete_inv h hwaking hguard
  | wakeUpProcess =>
    obtain ⟨t, hwaking, rfl⟩ := Option.map_eq_some_iff.mp hstep
    exact wakeUpProcess_inv h hwaking
  | waitForCompletion t =>
    obtain ⟨hidle, heq⟩ := Option.ite_none_right_eq_some.mp hstep
    cases heq
    exact waitForCommon_inv h hidle (by decide)
  | waitForCompletionTimeout t timeout =>
    obtain ⟨hidle, heq⟩ := Option.ite_none_right_eq_some.mp hstep
    cases heq
    exact waitForCommon_inv h hidle BitVec.toInt_lt
  | goOn t => exact goOn_inv h hstep hguard
  | expire t =>
    obtain ⟨-, heq⟩ := Option.ite_none_right_eq_some.mp hstep
    cases heq
    exact h.setTask rfl (h.state t) (Nat.le_trans h.woken (countP_woken_setTask id))
      ((h.due t).of_eq rfl rfl rfl rfl rfl)
  | waitTimeout t =>
    obtain ⟨-, heq⟩ := Option.ite_none_left_eq_some.mp hstep
    cases heq
    exact sendEvent_inv h rfl rfl ((h.due t).of_eq rfl rfl rfl rfl rfl)
  | tick =>
    cases hstep
    exact ⟨h.nodup, h.listed, h.state, h.done, h.woken, fun t => (h.due t).tick, h.timely⟩

theorem CompletionInv.init : CompletionInv {} where
  nodup := List.nodup_nil
  listed := fun _ => ⟨nofun, nofun⟩
  state := nofun
  done := rfl
  woken := Nat.le_refl _
  due := fun _ => ⟨(by decide : (0 : Int) < 2 ^ 63), Nat.le_refl _, .inr trivial⟩
  timely := nofun

theorem CompletionInv.served (h : CompletionInv d) (hwaking : d.waking = none) : Served d := by
  refine ⟨h.done, Nat.le_trans h.woken (List.countP_mono_left fun t _ hwoken => ?_)⟩
  rw [CompletionData.woken, hwaking, Bool.or_eq_true] at hwoken
  exact hwoken.resolve_right nofun

/-- **Completions**: where a completion is counted for a task that was not woken before, and no
    woken task goes to sleep again, none is lost. -/
theorem completion_served {es : List CompletionEvent}
    (hrun : Run (Guarded CompletionStep WakeCareful) {} es d) :
    (d.waking = none → Served d) ∧ ∀ r ∈ d.results, r.Timely := by
  have hinv : CompletionInv d := hrun.invariant (I := CompletionInv)
    (fun _ _ _ h hstep => CompletionStep.inv h hstep.1 hstep.2) .init
  exact ⟨hinv.served, hinv.timely⟩

end Steps

def servedRun : List CompletionEvent :=
  [.waitForCompletion 0, .goOn 0, .goOn 0, .goOn 0, .waitForCompletionTimeout 1 5, .goOn 1, .goOn 1,
    .goOn 1, .complete, .wakeUpProcess, .goOn 0, .goOn 0, .goOn 0, .complete, .wakeUpProcess]

theorem completion_served_servedRun : ∃ d, Run (Guarded CompletionStep WakeCareful) {} servedRun d ∧
    d.done = 1 ∧ d.taskList = [1] ∧ Served d := by
  have hexec : ∃ d, Run.exec (fun d e => if WakeCareful d e then CompletionData.next? d e else none)
      ({} : CompletionData) servedRun = some d ∧ d.done = 1 ∧ d.taskList = [1] ∧ d.waking = none :=
    ⟨_, rfl, rfl, rfl, rfl⟩
  obtain ⟨d, hd, hdone, hlist, hwaking⟩ := hexec
  have hsound : ∀ s e t, (if WakeCareful s e then CompletionData.next? s e else none) = some t →
      Guarded CompletionStep WakeCareful s e t := fun s e t h =>
    (guarded_eq_some_iff (T := CompletionStep) (fun _ _ _ => Iff.rfl) s e t).mp h
  have hrun : Run (Guarded CompletionStep WakeCareful) {} servedRun d := Run.of_exec hsound hd
  exact ⟨d, hrun, hdone, hlist, (completion_served hrun).1 hwaking⟩

def lostRun : List CompletionEvent :=
  [.waitForCompletion 0, .goOn 0, .goOn 0, .goOn 0, .waitForCompletion 1, .goOn 1, .goOn 1, .goOn 1,
    .complete, .wakeUpProcess, .complete, .wakeUpProcess, .goOn 0, .goOn 0, .goOn 0]

theorem completion_lost : ∃ d, Run CompletionStep {} lostRun d ∧ d.waking = none ∧ d.done = 1 ∧
    d.taskList = [1] ∧ (d.tasks 1).phase = .blocked ∧ ¬Served d := by
  have hexec : ∃ d, Run.exec CompletionData.next? ({} : CompletionData) lostRun = some d ∧
      d.waking = none ∧ d.done = 1 ∧ d.taskList = [1] ∧ (d.tasks 1).phase = .blocked ∧
      (d.tasks 1).te.resume = false := ⟨_, rfl, rfl, rfl, rfl, rfl, rfl⟩
  obtain ⟨d, hd, hwaking, hdone, hlist, hphase, hresume⟩ := hexec
  refine ⟨d, Run.of_exec (fun _ _ _ h => h) hd, hwaking, hdone, hlist, hphase, fun hserved => ?_⟩
  have hle := hserved.runnable
  have hrunnable : (d.tasks 1).runnable = false := by simp [runnable, hphase, hresume]
  rw [hdone, hlist] at hle
  simp [hrunnable] at hle

end VmkDrivers.Vmklinux
