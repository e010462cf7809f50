/-
  VmkDrivers.Vmklinux.ScheduleTimeout

  One sleep in `schedule_timeout_uninterruptible` (`linux_task.c`), with the
  wake-ups and the expiries of its timer that come in between.

  A wake-up is a bit of the task.  The sleep that it is meant for may be over
  when it comes, or may never have begun, and then the bit is there when the
  next sleep begins: `schedule` returns at once, the timer is still pending, and
  what is left of the time is returned as if the task had been woken.  A sleep
  keeps its time exactly if it begins without the bit, and if it is over before
  `timeout - jiffies` wraps (`timed_sleep_iff`).
-/

import VmkDrivers.Vmklinux.Completion

namespace VmkDrivers.Vmklinux

open VmkDrivers.Lib

/-- A sleep of one task.  In the phase `relock` it is over, and `timeout` is what it returned. -/
structure TimedSleep where
  w : Waiter
  jiffies : Nat
  /-- `jiffies` when `timeout` was computed. -/
  start : Nat
  /-- `wake_up_process` was called on the task after it set its state. -/
  woken : Bool := false

/-- The task goes on, somebody wakes it, its timer expires, `__wait_timeout` runs, or the clock
    ticks. -/
inductive TimedSleepEvent where
  | goOn
  | wakeUpProcess
  | expire
  | waitTimeout
  | tick
deriving DecidableEq, Repr

namespace TimedSleep

variable (s : TimedSleep)

/-- `schedule_timeout_uninterruptible`, up to the call of `__schedule_timeout`. -/
def scheduleTimeoutUninterruptible (te : LinuxTask) (jiffies : Nat) (wait : BitVec 64) :
    TimedSleep where
  w := Waiter.setUninterruptible { te, phase := .scheduleTimeout, timeout := wait.toInt }
  jiffies := jiffies
  start := jiffies

/-- The task goes on in `__schedule_timeout`. -/
def goOn : Option TimedSleep :=
  match s.w.phase with
  | .scheduleTimeout => some { s with w := s.w.scheduleTimeout s.jiffies, start := s.jiffies }
  | .waitEvent => some { s with w := s.w.schedule }
  | .blocked => some { s with w := s.w.enter s.w.te.wokenUp }
  | .awake => (s.w.awake s.jiffies).map fun w => { s with w }
  | .idle | .lock | .relock => none

def next? (s : TimedSleep) : TimedSleepEvent → Option TimedSleep
  | .goOn => s.goOn
  | .wakeUpProcess => some { s with w := { s.w with te := s.w.te.sendEvent }, woken := true }
  | .expire =>
    if s.w.timer then
      some { s with w := { s.w with timer := false, handlers := s.w.handlers + 1 } }
    else none
  | .waitTimeout =>
    if s.w.handlers = 0 then none
    else
      some { s with w := { s.w with te := s.w.te.sendEvent, handlers := s.w.handlers - 1 } }
  | .tick => some { s with jiffies := s.jiffies + 1 }

def Returned : Prop := s.w.phase = .relock

instance : Decidable s.Returned := inferInstanceAs (Decidable (s.w.phase = .relock))

/-- How far `jiffies` have advanced. -/
def elapsed : Nat := s.jiffies - s.start

/-- What was returned is right: 0 after `wait` jiffies, or what was left of them when the task was
    woken. -/
structure KeepsTime (wait : Int) : Prop where
  expired : s.w.timeout = 0 → wait ≤ s.elapsed
  early : 0 < s.w.timeout → s.woken = true ∧ s.w.timeout = wait - s.elapsed

end TimedSleep

def TimedSleepStep (s : TimedSleep) (e : TimedSleepEvent) (s' : TimedSleep) : Prop :=
  ¬s.Returned ∧ s.next? e = some s'

/-! ## What keeps the task asleep -/

def Waiter.wakes (w : Waiter) : Nat := w.timer.toNat + w.handlers + w.te.resume.toNat

/-- In `schedule` there is the one of the timer; before and behind it there is none. -/
def WaitPhase.wakes : WaitPhase → Nat
  | .waitEvent | .blocked => 1
  | _ => 0

/-- A sleep of `wait` jiffies, until it is woken. -/
structure TimedSleepInv (wait : Int) (s : TimedSleep) : Prop where
  start : s.start ≤ s.jiffies
  timeout : ¬s.Returned → s.w.timeout = wait
  state : s.w.phase = .scheduleTimeout ∨ s.w.phase = .waitEvent → s.w.te.state = .uninterruptible
  expires : s.w.phase ≠ .scheduleTimeout →
    s.w.expires = BitVec.ofInt 64 wait + BitVec.ofNat 64 s.start
  /-- Nobody but the timer wakes the task. -/
  wakes : 0 < wait → s.woken = false → ¬s.Returned → s.w.wakes = s.w.phase.wakes
  returned : s.Returned → s.w.timeout = max 0 (s.w.diff s.jiffies)
  early : s.Returned → 0 < wait → 0 < s.w.diff s.jiffies → s.woken = true

section Sleeps

variable {s s' t : TimedSleep} {w : Waiter} {te : LinuxTask} {wait : Int} {jiffies : Nat}
  {e : TimedSleepEvent} {ls : List TimedSleepEvent}

theorem diff_eq_bmod {start : Nat}
    (h : w.expires = BitVec.ofInt 64 wait + BitVec.ofNat 64 start) (hle : start ≤ jiffies) :
    w.diff jiffies = (wait - (jiffies - start : Nat)).bmod (2 ^ 64) := by
  obtain ⟨n, rfl⟩ := Nat.exists_eq_add_of_le hle
  have hadd : BitVec.ofInt 64 wait = BitVec.ofInt 64 (wait - n) + BitVec.ofNat 64 n := by
    rw [← BitVec.ofInt_natCast, ← BitVec.ofInt_add, Int.sub_add_cancel]
  have hleft : w.expires - BitVec.ofNat 64 (start + n) = BitVec.ofInt 64 (wait - n) := by
    rw [h, hadd, BitVec.ofNat_add, BitVec.add_assoc, BitVec.add_comm (BitVec.ofNat 64 n),
      BitVec.add_sub_cancel]
  rw [Waiter.diff, hleft, BitVec.toInt_ofInt, Nat.add_sub_cancel_left]

/-! ## One step -/

theorem returned_of_keeps (h : TimedSleepInv wait s) (hret : s.Returned) (hwait : 0 ≤ wait)
    (hlt : wait < 2 ^ 63) (hbound : (s.elapsed : Int) ≤ wait + 2 ^ 63) : s.KeepsTime wait := by
  have hnot : s.w.phase ≠ .scheduleTimeout := by rw [hret]; nofun
  have hdiff : s.w.diff s.jiffies = wait - s.elapsed := by
    rw [diff_eq_bmod (h.expires hnot) h.start]
    exact Int.bmod_eq_of_le_mul_two (by unfold TimedSleep.elapsed at *; omega) (by omega)
  have hvalue := h.returned hret
  refine ⟨fun hzero => by omega, fun hpos => ?_⟩
  have hleft : 0 < s.w.diff s.jiffies := by omega
  exact ⟨h.early hret (by omega) hleft, by omega⟩

theorem TimedSleepInv.frame (h : TimedSleepInv wait s) (hret : ¬s.Returned) (w : Waiter)
    (hphase : w.phase = s.w.phase) (htimeout : w.timeout = s.w.timeout)
    (hexpires : w.expires = s.w.expires) (hstate : w.te.state = s.w.te.state)
    (hle : s.start ≤ jiffies) (woken : Bool)
    (hwakes : 0 < wait → woken = false → w.wakes = s.w.phase.wakes) :
    TimedSleepInv wait { s with w, jiffies, woken } where
  start := hle
  timeout _ := htimeout.trans (h.timeout hret)
  state hp := hstate.trans (h.state (by rwa [← hphase]))
  expires hp := hexpires.trans (h.expires (by rwa [← hphase]))
  wakes hpos hw _ := (hwakes hpos hw).trans (congrArg WaitPhase.wakes hphase.symm)
  returned hr := absurd (hphase.symm.trans hr) hret
  early hr := absurd (hphase.symm.trans hr) hret

theorem TimedSleepInv.arm {start : Nat} (hle : start ≤ s.jiffies) (htimeout : w.timeout = wait)
    (hphase : w.phase = .waitEvent) (hstate : w.te.state = .uninterruptible)
    (hexpires : w.expires = BitVec.ofInt 64 wait + BitVec.ofNat 64 start)
    (hwakes : 0 < wait → s.woken = false → w.wakes = 1) :
    TimedSleepInv wait { s with w, start } := by
  have hnot : w.phase ≠ .relock := by rw [hphase]; nofun
  exact
    { start := hle
      timeout := fun _ => htimeout
      state := fun _ => hstate
      expires := fun _ => hexpires
      wakes := fun hpos hw _ => (hwakes hpos hw).trans (congrArg WaitPhase.wakes hphase.symm)
      returned := fun hr => absurd hr hnot
      early := fun hr => absurd hr hnot }

theorem TimedSleepInv.enter (h : TimedSleepInv wait s) (hresume : te.resume = s.w.te.resume)
    (hphase : s.w.phase = .waitEvent ∨ s.w.phase = .blocked) :
    TimedSleepInv wait { s with w := s.w.enter te.waitEvent } := by
  have hret : ¬s.Returned := by
    rintro hr
    rw [TimedSleep.Returned] at hr
    rcases hphase with hp | hp <;> rw [hr] at hp <;> nomatch hp
  have hset := h.expires (by rcases hphase with hp | hp <;> rw [hp] <;> nofun)
  have hone : 0 < wait → s.woken = false → s.w.wakes = 1 := fun hpos hw => by
    rw [h.wakes hpos hw hret]
    rcases hphase with hp | hp <;> rw [hp] <;> rfl
  unfold LinuxTask.waitEvent
  split
  · next hset' =>
    -- the wake-up that was there is used up, and the timer sends no other
    exact
      { start := h.start
        timeout := fun _ => h.timeout hret
        state := nofun
        expires := fun _ => hset
        wakes := fun hpos hw _ => by
          have hw1 := hone hpos hw
          rw [Waiter.wakes, ← hresume, hset', Bool.toNat_true] at hw1
          show s.w.timer.toNat + s.w.handlers + 0 = 0
          omega
        returned := nofun
        early := nofun }
  · exact
      { start := h.start
        timeout := fun _ => h.timeout hret
        state := nofun
        expires := fun _ => hset
        wakes := fun hpos hw _ => by
          have hw1 := hone hpos hw
          rw [Waiter.wakes, ← hresume] at hw1
          exact hw1
        returned := nofun
        early := nofun }

theorem TimedSleepInv.awake (h : TimedSleepInv wait s) (hphase : s.w.phase = .awake)
    (hmax : wait ≠ maxScheduleTimeout) (hw : s.w.awake s.jiffies = some w) :
    TimedSleepInv wait { s with w } := by
  have hret : ¬s.Returned := by rw [TimedSleep.Returned, hphase]; nofun
  have hset := h.expires (by rw [hphase]; nofun)
  have hnone : 0 < wait → s.woken = false → s.w.wakes = 0 := fun hpos hwoken => by
    rw [h.wakes hpos hwoken hret, hphase]
    rfl
  rw [Waiter.awake, h.timeout hret, if_neg hmax] at hw
  split at hw
  · cases hw
  · split at hw
    · next hagain =>
      -- the timer came early
      cases hw
      refine .arm h.start (h.timeout hret) rfl rfl hset fun hpos hwoken => ?_
      have h0 := hnone hpos hwoken
      rw [Waiter.wakes, hagain.2.1] at h0
      show 1 + s.w.handlers + s.w.te.resume.toNat = 1
      omega
    · next hagain =>
      cases hw
      refine
        { start := h.start
          timeout := fun hr => absurd rfl hr
          state := nofun
          expires := fun _ => hset
          wakes := fun _ _ hr => absurd rfl hr
          returned := fun _ => rfl
          early := fun _ hpos hleft => ?_ }
      -- `del_timer_sync` found the timer pending, so somebody else woke the task
      by_contra hwoken
      have h0 := hnone hpos (Bool.eq_false_iff.mpr hwoken)
      have htimer : s.w.timer = false := by
        cases hp : s.w.timer
        · rfl
        · rw [Waiter.wakes, hp, Bool.toNat_true] at h0
          omega
      exact hagain ⟨by rwa [h.timeout hret], htimer, hleft⟩

theorem scheduleTimeout_armed (hpos : 0 ≤ w.timeout) (hmax : w.timeout ≠ maxScheduleTimeout) :
    w.scheduleTimeout jiffies =
      { w with
        phase := .waitEvent
        expires := BitVec.ofInt 64 w.timeout + BitVec.ofNat 64 jiffies
        timer := true } := by
  rw [Waiter.scheduleTimeout, if_neg hmax, if_neg (by omega)]

theorem TimedSleepInv.goOn (h : TimedSleepInv wait s) (hwait : 0 ≤ wait)
    (hmax : wait ≠ maxScheduleTimeout) (hs : s.goOn = some s') : TimedSleepInv wait s' := by
  unfold TimedSleep.goOn at hs
  split at hs
  · next hphase =>
    cases hs
    have hret : ¬s.Returned := by rw [TimedSleep.Returned, hphase]; nofun
    have htimeout := h.timeout hret
    rw [scheduleTimeout_armed (by omega) (by rwa [htimeout])]
    refine .arm (Nat.le_refl _) htimeout rfl (h.state (.inl hphase)) (by rw [htimeout]) ?_
    intro hpos hwoken
    -- before the sleep there is neither a timer nor a wake-up
    have h0 := h.wakes hpos hwoken hret
    rw [hphase, Waiter.wakes] at h0
    change _ = 0 at h0
    show 1 + s.w.handlers + s.w.te.resume.toNat = 1
    omega
  · next hphase =>
    cases hs
    have hnot : s.w.te.state ≠ .running := by rw [h.state (.inr hphase)]; nofun
    rw [Waiter.schedule, if_neg hnot]
    exact h.enter rfl (.inl hphase)
  · next hphase =>
    cases hs
    exact h.enter rfl (.inr hphase)
  · next hphase =>
    obtain ⟨w, hw, rfl⟩ := Option.map_eq_some_iff.mp hs
    exact h.awake hphase hmax hw
  all_goals cases hs

theorem TimedSleepInv.step (hwait : 0 ≤ wait) (hmax : wait ≠ maxScheduleTimeout)
    (s : TimedSleep) (e : TimedSleepEvent) (s' : TimedSleep) (h : TimedSleepInv wait s)
    (hs : TimedSleepStep s e s') : TimedSleepInv wait s' := by
  obtain ⟨hret, hs⟩ := hs
  cases e with
  | goOn => exact h.goOn hwait hmax hs
  | wakeUpProcess =>
    cases hs
    exact h.frame hret { s.w with te := s.w.te.sendEvent } rfl rfl rfl rfl h.start true nofun
  | expire =>
    rw [TimedSleep.next?] at hs
    split at hs
    · next htimer =>
      cases hs
      refine h.frame hret { s.w with timer := false, handlers := s.w.handlers + 1 }
        rfl rfl rfl rfl h.start _ fun hpos hwoken => ?_
      rw [← h.wakes hpos hwoken hret, Waiter.wakes, Waiter.wakes, htimer]
      show 0 + (s.w.handlers + 1) + s.w.te.resume.toNat = 1 + s.w.handlers + s.w.te.resume.toNat
      omega
    · cases hs
  | waitTimeout =>
    rw [TimedSleep.next?] at hs
    split at hs
    · cases hs
    · next hhandlers =>
      cases hs
      refine h.frame hret { s.w with te := s.w.te.sendEvent, handlers := s.w.handlers - 1 }
        rfl rfl rfl rfl h.start _ fun hpos hwoken => ?_
      -- the wake-up of the handler is the only one there is
      have hone := h.wakes hpos hwoken hret
      have hle : s.w.phase.wakes ≤ 1 := by cases s.w.phase <;> decide
      rw [Waiter.wakes] at hone
      show s.w.timer.toNat + (s.w.handlers - 1) + 1 = _
      omega
  | tick =>
    cases hs
    exact h.frame hret s.w rfl rfl rfl rfl (Nat.le_succ_of_le h.start) _ fun hpos hwoken =>
      h.wakes hpos hwoken hret

/-! ## A whole sleep -/

theorem timedSleepInv_begin {wait : BitVec 64} (h : te.resume = false ∨ wait.toInt = 0) :
    TimedSleepInv wait.toInt (TimedSleep.scheduleTimeoutUninterruptible te jiffies wait) where
  start := Nat.le_refl _
  timeout _ := rfl
  state _ := rfl
  expires hp := absurd rfl hp
  wakes hpos _ _ := by
    have hresume : te.resume = false := h.resolve_right (by omega)
    show 0 + 0 + te.resume.toNat = 0
    rw [hresume]
    rfl
  returned := nofun
  early := nofun

theorem next_of_ne_goOn (he : e ≠ .goOn) (hs : s.next? e = some s') :
    s'.w.phase = s.w.phase ∧ s'.w.timeout = s.w.timeout ∧ s'.start = s.start ∧
      s'.jiffies = s.jiffies + if e = .tick then 1 else 0 := by
  cases e with
  | goOn => exact absurd rfl he
  | wakeUpProcess =>
    cases hs
    exact ⟨rfl, rfl, rfl, rfl⟩
  | expire =>
    obtain ⟨-, hs⟩ := Option.ite_none_right_eq_some.mp hs
    cases hs
    exact ⟨rfl, rfl, rfl, rfl⟩
  | waitTimeout =>
    obtain ⟨-, hs⟩ := Option.ite_none_left_eq_some.mp hs
    cases hs
    exact ⟨rfl, rfl, rfl, rfl⟩
  | tick =>
    cases hs
    exact ⟨rfl, rfl, rfl, rfl⟩

theorem clock_step (hs : TimedSleepStep s e s') (hle : s.start ≤ s.jiffies) :
    s.start ≤ s'.start ∧ s'.start ≤ s'.jiffies ∧
      s'.jiffies = s.jiffies + if e = .tick then 1 else 0 := by
  obtain ⟨-, hs⟩ := hs
  by_cases he : e = .goOn
  · -- only the start of `__schedule_timeout` stores the clock
    subst he
    rw [TimedSleep.next?] at hs
    unfold TimedSleep.goOn at hs
    split at hs
    · cases hs
      exact ⟨hle, Nat.le_refl _, rfl⟩
    · cases hs
      exact ⟨Nat.le_refl _, hle, rfl⟩
    · cases hs
      exact ⟨Nat.le_refl _, hle, rfl⟩
    · obtain ⟨w, -, rfl⟩ := Option.map_eq_some_iff.mp hs
      exact ⟨Nat.le_refl _, hle, rfl⟩
    all_goals cases hs
  · obtain ⟨-, -, hstart, hjiffies⟩ := next_of_ne_goOn he hs
    exact ⟨by omega, by omega, hjiffies⟩

theorem elapsed_le_count (h : Run TimedSleepStep s ls t) (hle : s.start ≤ s.jiffies) :
    s.start ≤ t.start ∧ t.jiffies = s.jiffies + ls.count .tick := by
  induction h with
  | nil s => exact ⟨Nat.le_refl _, rfl⟩
  | cons hstep _ ih =>
    obtain ⟨hstart, hle', hjiffies⟩ := clock_step hstep hle
    obtain ⟨hstart', hrest⟩ := ih hle'
    refine ⟨Nat.le_trans hstart hstart', ?_⟩
    rw [hrest, hjiffies, List.count_cons]
    simp only [beq_iff_eq]
    omega

theorem keepsTime_of_resume {wait : BitVec 64} (hmax : wait.toInt < maxScheduleTimeout)
    (hpos : 0 ≤ wait.toInt) (hresume : te.resume = false ∨ wait.toInt = 0)
    (h : Run TimedSleepStep (.scheduleTimeoutUninterruptible te jiffies wait) ls t)
    (hcount : (ls.count .tick : Int) ≤ wait.toInt + 2 ^ 63) (hret : t.Returned) :
    t.KeepsTime wait.toInt := by
  have hinv := h.invariant (TimedSleepInv.step hpos (Int.ne_of_lt hmax))
    (timedSleepInv_begin hresume)
  have hlt : wait.toInt < 2 ^ 63 := by unfold maxScheduleTimeout at hmax; omega
  obtain ⟨hstart, hjiffies⟩ := elapsed_le_count h (Nat.le_refl _)
  refine returned_of_keeps hinv hret hpos hlt ?_
  change jiffies ≤ t.start at hstart
  change t.jiffies = jiffies + _ at hjiffies
  rw [TimedSleep.elapsed]
  omega

theorem negative_step (hneg : wait < 0) (s : TimedSleep) (e : TimedSleepEvent) (s' : TimedSleep)
    (h : s.w.phase = .scheduleTimeout ∧ s.w.timeout = wait ∨ s.Returned ∧ s.w.timeout = 0)
    (hs : TimedSleepStep s e s') :
    s'.w.phase = .scheduleTimeout ∧ s'.w.timeout = wait ∨ s'.Returned ∧ s'.w.timeout = 0 := by
  obtain ⟨hret, hs⟩ := hs
  obtain ⟨hphase, htimeout⟩ := h.resolve_right fun hr => hret hr.1
  by_cases he : e = .goOn
  · -- 0 is returned at once
    subst he
    rw [TimedSleep.next?, TimedSleep.goOn, hphase] at hs
    cases hs
    have hmax : s.w.timeout ≠ maxScheduleTimeout := by
      unfold maxScheduleTimeout
      omega
    rw [Waiter.scheduleTimeout, if_neg hmax, if_pos (by omega)]
    exact .inr ⟨rfl, rfl⟩
  · obtain ⟨hsame, htime, -, -⟩ := next_of_ne_goOn he hs
    exact .inl ⟨hsame.trans hphase, htime.trans htimeout⟩

theorem keepsTime_of_neg {wait : BitVec 64} (hneg : wait.toInt < 0)
    (h : Run TimedSleepStep (.scheduleTimeoutUninterruptible te jiffies wait) ls t)
    (hret : t.Returned) : t.KeepsTime wait.toInt := by
  rcases h.invariant (negative_step hneg) (.inl ⟨rfl, rfl⟩) with ⟨hphase, -⟩ | ⟨-, hzero⟩
  · rw [TimedSleep.Returned, hphase] at hret
    cases hret
  · exact ⟨fun _ => by omega, fun hpos => by omega⟩

/-! ## Sleeps that are cut short -/

/-- The state of a sleep at its first call of `schedule`. -/
def TimedSleep.armed (te : LinuxTask) (jiffies : Nat) (wait : BitVec 64) : TimedSleep where
  w :=
    { te := { te with state := .uninterruptible }
      phase := .waitEvent
      timeout := wait.toInt
      expires := BitVec.ofInt 64 wait.toInt + BitVec.ofNat 64 jiffies
      timer := true }
  jiffies := jiffies
  start := jiffies

theorem step_armed {wait : BitVec 64} (hpos : 0 ≤ wait.toInt)
    (hmax : wait.toInt ≠ maxScheduleTimeout) :
    TimedSleepStep (.scheduleTimeoutUninterruptible te jiffies wait) .goOn
      (.armed te jiffies wait) := by
  refine ⟨nofun, ?_⟩
  rw [TimedSleep.next?, TimedSleep.goOn]
  rw [scheduleTimeout_armed hpos hmax]
  rfl

theorem run_resumed (hphase : s.w.phase = .waitEvent) (hstate : s.w.te.state = .uninterruptible)
    (hresume : s.w.te.resume = true) (htimer : s.w.timer = true)
    (hmax : s.w.timeout ≠ maxScheduleTimeout) :
    ∃ t, Run TimedSleepStep s [.goOn, .goOn] t ∧ t.Returned ∧
      t.w.timeout = max 0 (s.w.diff s.jiffies) ∧ t.woken = s.woken ∧ t.elapsed = s.elapsed := by
  have hwait : s.w.te.waitEvent = ({ s.w.te with resume := false, state := .running }, false) := by
    rw [LinuxTask.waitEvent, if_pos hresume]
  have hsched : s.w.schedule =
      { s.w with te := { s.w.te with resume := false, state := .running }, phase := .awake } := by
    rw [Waiter.schedule, if_neg (by rw [hstate]; simp), hwait]
    rfl
  -- behind `schedule`
  let u : TimedSleep := { s with w := s.w.schedule }
  have hu : TimedSleepStep s .goOn u := by
    refine ⟨by rw [TimedSleep.Returned, hphase]; simp, ?_⟩
    rw [TimedSleep.next?, TimedSleep.goOn, hphase]
  -- `del_timer_sync` has found the timer pending
  let v : TimedSleep :=
    { u with
      w := { u.w with phase := .relock, timeout := max 0 (u.w.diff s.jiffies), timer := false } }
  have hv : TimedSleepStep u .goOn v := by
    have hawake : u.w.phase = .awake := congrArg Waiter.phase hsched
    have htimer' : u.w.timer = true := (congrArg Waiter.timer hsched).trans htimer
    have hmax' : u.w.timeout ≠ maxScheduleTimeout := by rwa [congrArg Waiter.timeout hsched]
    refine ⟨by rw [TimedSleep.Returned, hawake]; simp, ?_⟩
    rw [TimedSleep.next?, TimedSleep.goOn, hawake]
    have hagain : ¬u.w.Again u.jiffies := fun h => Bool.noConfusion (htimer'.symm.trans h.2.1)
    have htaken : ¬(u.w.timer = false ∧ u.w.handlers ≠ 0) := fun h =>
      Bool.noConfusion (htimer'.symm.trans h.1)
    show (u.w.awake u.jiffies).map _ = _
    rw [Waiter.awake, if_neg hmax', if_neg htaken, if_neg hagain]
    rfl
  refine ⟨v, .cons hu (.single hv), rfl, ?_, rfl, rfl⟩
  show max 0 (s.w.schedule.diff s.jiffies) = _
  rw [Waiter.diff, hsched]
  rfl

theorem run_ticks (hret : ¬s.Returned) (n : Nat) :
    Run TimedSleepStep s (List.replicate n .tick) { s with jiffies := s.jiffies + n } := by
  induction n generalizing s with
  | zero => exact .nil s
  | succ n ih =>
    have hstep : TimedSleepStep s .tick { s with jiffies := s.jiffies + 1 } := ⟨hret, rfl⟩
    have hrest := ih (s := { s with jiffies := s.jiffies + 1 }) hret
    rw [List.replicate_succ, Nat.add_comm n 1, ← Nat.add_assoc]
    exact .cons hstep hrest

variable {wait : BitVec 64}

theorem cut_short_of_resume (jiffies : Nat) (hpos : 0 < wait.toInt)
    (hmax : wait.toInt < maxScheduleTimeout) (hresume : te.resume = true) :
    ∃ t, Run TimedSleepStep (.scheduleTimeoutUninterruptible te jiffies wait)
        [.goOn, .goOn, .goOn] t ∧ t.Returned ∧ ¬t.KeepsTime wait.toInt := by
  have hne := Int.ne_of_lt hmax
  obtain ⟨t, hrun, hret, htimeout, hwoken, -⟩ :=
    run_resumed (s := .armed te jiffies wait) rfl rfl hresume rfl hne
  refine ⟨t, .cons (step_armed (Int.le_of_lt hpos) hne) hrun, hret, fun h => ?_⟩
  have hdiff : (TimedSleep.armed te jiffies wait).w.diff jiffies = wait.toInt := by
    rw [diff_eq_bmod rfl (Nat.le_refl jiffies), Nat.sub_self]
    show (wait.toInt - 0).bmod (2 ^ 64) = wait.toInt
    rw [Int.sub_zero]
    exact Int.bmod_eq_of_le_mul_two (by omega) (by unfold maxScheduleTimeout at hmax; omega)
  have hearly : 0 < t.w.timeout := by
    rw [htimeout]
    show 0 < max 0 ((TimedSleep.armed te jiffies wait).w.diff jiffies)
    omega
  -- nobody has woken the task
  exact Bool.noConfusion (hwoken.symm.trans (h.early hearly).1)

theorem wrapped_of_late (te : LinuxTask) (jiffies : Nat) (hpos : 0 ≤ wait.toInt)
    (hmax : wait.toInt < maxScheduleTimeout) :
    ∃ ls t, Run TimedSleepStep (.scheduleTimeoutUninterruptible te jiffies wait) ls t ∧
      (ls.count .tick : Int) = wait.toInt + 2 ^ 63 + 1 ∧ t.Returned ∧
        ¬t.KeepsTime wait.toInt := by
  have hne := Int.ne_of_lt hmax
  obtain ⟨n, hn⟩ := Int.eq_ofNat_of_zero_le (a := wait.toInt + 2 ^ 63 + 1) (by omega)
  -- the clock goes on for so long, and then the task is woken
  let late : TimedSleep := { TimedSleep.armed te jiffies wait with jiffies := jiffies + n }
  let woken : TimedSleep :=
    { late with
      w := { late.w with te := late.w.te.sendEvent }
      woken := true }
  have hasleep : ¬(TimedSleep.armed te jiffies wait).Returned := WaitPhase.noConfusion
  have hticks : Run TimedSleepStep (.armed te jiffies wait) (List.replicate n .tick) late :=
    run_ticks hasleep n
  have hwake : TimedSleepStep late .wakeUpProcess woken := ⟨hasleep, rfl⟩
  obtain ⟨t, hrun, hret, htimeout, -, helapsed⟩ := run_resumed (s := woken) rfl rfl rfl rfl hne
  have hwhole := Run.cons (step_armed hpos hne) (hticks.append (.cons hwake hrun))
  refine ⟨_, t, hwhole, ?_, hret, fun h => ?_⟩
  · rw [hn]
    simp [List.count_append]
  · have hdiff : woken.w.diff woken.jiffies = 2 ^ 63 - 1 := by
      rw [diff_eq_bmod rfl (Nat.le_add_right jiffies n), Nat.add_sub_cancel_left]
      have hleft : wait.toInt - n = -2 ^ 63 - 1 := by omega
      rw [hleft]
      decide
    rw [hdiff] at htimeout
    have hearly := (h.early (by omega)).2
    have hn' : t.elapsed = n := helapsed.trans (Nat.add_sub_cancel_left ..)
    omega

/-- **When a sleep keeps its time.** Whatever comes in between while `jiffies` advance by no more
    than `n`, 0 is returned only when `wait` jiffies are over and a positive value only when the
    task was woken, as what is left of them, exactly if the time is negative, or if the task begins
    the sleep without a wake-up, or with nothing to wait for, and the difference cannot wrap. -/
theorem timed_sleep_iff (te : LinuxTask) (jiffies : Nat) (wait : BitVec 64)
    (hmax : wait.toInt < maxScheduleTimeout) (n : Nat) :
    (∀ ls t, Run TimedSleepStep (.scheduleTimeoutUninterruptible te jiffies wait) ls t →
        ls.count .tick ≤ n → t.Returned → t.KeepsTime wait.toInt) ↔
      wait.toInt < 0 ∨
        ((te.resume = false ∨ wait.toInt = 0) ∧ (n : Int) ≤ wait.toInt + 2 ^ 63) := by
  constructor
  · intro h
    -- without a negative time, each half has a run that breaks it
    by_cases hneg : wait.toInt < 0
    · exact .inl hneg
    refine .inr ⟨?_, ?_⟩
    · by_contra hnot
      obtain ⟨hresume, hzero⟩ := not_or.mp hnot
      obtain ⟨t, hrun, hret, hfalse⟩ :=
        cut_short_of_resume jiffies (by omega) hmax (Bool.not_eq_false _ ▸ hresume)
      exact hfalse (h _ t hrun (Nat.zero_le n) hret)
    · by_contra hlate
      obtain ⟨ls, t, hrun, hcount, hret, hfalse⟩ :=
        wrapped_of_late te jiffies (by omega) hmax
      exact hfalse (h ls t hrun (by omega) hret)
  · rintro (hneg | ⟨hresume, hn⟩) ls t hrun hcount hret
    · exact keepsTime_of_neg hneg hrun hret
    · by_cases hneg : wait.toInt < 0
      · exact keepsTime_of_neg hneg hrun hret
      · exact keepsTime_of_resume hmax (by omega) hresume hrun (by omega) hret

/-- A sleep of 5 jiffies, across the wrap of `jiffies`. -/
theorem timed_sleep_across_wrap :
    ∃ t, Run TimedSleepStep (.scheduleTimeoutUninterruptible {} (2 ^ 64 - 3) 5)
      [.goOn, .goOn, .tick, .tick, .tick, .tick, .tick, .expire, .waitTimeout, .goOn, .goOn] t ∧
        t.Returned ∧ t.KeepsTime 5 := by
  have hrun : Run TimedSleepStep (.scheduleTimeoutUninterruptible {} (2 ^ 64 - 3) 5)
      [.goOn, .goOn, .tick, .tick, .tick, .tick, .tick, .expire, .waitTimeout, .goOn, .goOn] _ :=
    .cons ⟨by decide, rfl⟩ <| .cons ⟨by decide, rfl⟩ <| .cons ⟨by decide, rfl⟩ <|
      .cons ⟨by decide, rfl⟩ <| .cons ⟨by decide, rfl⟩ <| .cons ⟨by decide, rfl⟩ <|
        .cons ⟨by decide, rfl⟩ <| .cons ⟨by decide, rfl⟩ <| .cons ⟨by decide, rfl⟩ <|
          .cons ⟨by decide, rfl⟩ (.single ⟨by decide, rfl⟩)
  refine ⟨_, hrun, rfl, ?_⟩
  exact (timed_sleep_iff {} (2 ^ 64 - 3) 5 (by decide) 5).mpr (.inr ⟨.inl rfl, by decide⟩) _ _ hrun
    (by decide) rfl

/-- The task was woken while it was running, and does not sleep at all. -/
theorem sleep_cut_short :
    ¬∀ ls t, Run TimedSleepStep (.scheduleTimeoutUninterruptible (LinuxTask.sendEvent {}) 0 100) ls
      t → t.Returned → t.KeepsTime 100 := by
  intro h
  have hpos : 0 < (100 : BitVec 64).toInt := by decide
  have hresume : (LinuxTask.sendEvent {}).resume = true := rfl
  obtain ⟨t, hrun, hret, hfalse⟩ := cut_short_of_resume 0 hpos (by decide) hresume
  exact hfalse (h _ t hrun hret)

end Sleeps

end VmkDrivers.Vmklinux
