/-
  VmkDrivers.Vmklinux.DelayedWork

  How long delayed work waits (`linux_workqueue.c`, `linux_time.c`).

  `queue_delayed_work` adds the delay to `jiffies`, which may wrap.  `__add_timer`
  and `__mod_timer` compare the sum with `jiffies` as numbers, and cut what is
  left off at `INT_MAX` microseconds.  So a time that is past the wrap is one
  jiffy ahead for them, and none is more than 214748 jiffies ahead.  Apart from
  these no timer is early, nor is the work (`delayed_work_iff`).

  Time is in microseconds.  The vmkernel runs a timer at any time from its
  timeout on.
-/

import VmkDrivers.Lib.Transition

namespace VmkDrivers.Vmklinux

open VmkDrivers.Lib

/-! ## Timeouts -/

def jiffyUsec : Nat := 10000

def jiffiesToUsec (j : BitVec 64) : BitVec 64 := j * BitVec.ofNat 64 jiffyUsec

def intMax : BitVec 64 := 0x7FFFFFFF

/-- The timeout of `timer->expires`, "a 32-bit signed timeout value". -/
def timerTimeout (expires jiffies : BitVec 64) : BitVec 64 :=
  let timeout :=
    if expires ≤ jiffies then jiffiesToUsec 1 else jiffiesToUsec (expires - jiffies)
  if intMax < timeout then intMax else timeout

def addTimer (expires jiffies : BitVec 64) : BitVec 64 := timerTimeout expires jiffies

def modTimer (expires jiffies : BitVec 64) : BitVec 64 := timerTimeout expires jiffies

/-! ## Delayed work -/

/-- A call of `queue_delayed_work`, with the jiffies that had passed when it read `jiffies`. -/
structure DelayCall where
  delay : BitVec 64
  asked : Nat
deriving DecidableEq, Repr

/-- Where the work item is: not queued, between the sum and `__add_timer`, with its timer, or on
    the queue. -/
inductive DelayPhase where
  | idle
  | adding (expires : BitVec 64) (call : DelayCall)
  | armed (call : DelayCall) (due : Nat)
  | queued
deriving DecidableEq, Repr

structure Arming where
  left : Nat
  timeout : Nat
deriving DecidableEq, Repr

structure DelayState where
  now : Nat := 0
  phase : DelayPhase := .idle
  armings : List Arming := []
  /-- Where the work was put on its queue, and the jiffies that had passed then. -/
  queueings : List (DelayCall × Nat) := []
deriving DecidableEq, Repr

inductive DelayEvent where
  | elapse (usec : Nat)
  | queueDelayedWork (delay : BitVec 64)
  | addTimer
  | timerFn
  | run
  /-- `cancel_delayed_work` -/
  | cancel
deriving DecidableEq, Repr

namespace DelayState

variable (s : DelayState)

def passed : Nat := s.now / jiffyUsec

/-- `jiffies`, which was `start` in the beginning. -/
def jiffies (start : BitVec 64) : BitVec 64 := start + BitVec.ofNat 64 s.passed

def queueWork (call : DelayCall) : DelayState :=
  { s with phase := .queued, queueings := (call, s.passed) :: s.queueings }

def next? (start : BitVec 64) : DelayEvent → Option DelayState
  | .elapse usec => some { s with now := s.now + usec }
  | .queueDelayedWork delay =>
    -- `test_and_set_bit`, also that of `queue_work`
    if s.phase ≠ .idle then some s
    else if delay = 0 then some (s.queueWork ⟨delay, s.passed⟩)
    else some { s with phase := .adding (s.jiffies start + delay) ⟨delay, s.passed⟩ }
  | .addTimer =>
    match s.phase with
    | .adding expires call =>
      let timeout := (Vmklinux.addTimer expires (s.jiffies start)).toNat
      some { s with
        phase := .armed call (s.now + timeout)
        armings := ⟨call.asked + call.delay.toNat - s.passed, timeout⟩ :: s.armings }
    | _ => none
  | .timerFn =>
    match s.phase with
    | .armed call due => if due ≤ s.now then some (s.queueWork call) else none
    | _ => none
  | .run => if s.phase = .queued then some { s with phase := .idle } else none
  | .cancel =>
    match s.phase with
    | .armed _ _ => some { s with phase := .idle }
    | _ => some s

end DelayState

def DelayStep (start : BitVec 64) (s : DelayState) (e : DelayEvent) (t : DelayState) : Prop :=
  s.next? start e = some t

/-! ## What is promised -/

/-- A timeout of at least one jiffy, and at least those that are left. -/
def LongEnough (left timeout : Nat) : Prop := jiffyUsec ≤ timeout ∧ left * jiffyUsec ≤ timeout

/-- How far a time is ahead, as `time_after` has it. -/
def ahead (expires jiffies : BitVec 64) : Nat := (expires - jiffies).toInt.toNat

/-- No timer is too short, and the work was never put on its queue early. -/
structure Timely (s : DelayState) : Prop where
  armings : ∀ a ∈ s.armings, LongEnough a.left a.timeout
  queueings : ∀ q ∈ s.queueings, q.1.asked + q.1.delay.toNat ≤ q.2

/-- The last time that is within `INT_MAX`. -/
def maxAhead : Nat := 214748

/-- A time that is `left` ahead is at most one jiffy ahead where it is not the larger number, else
    not too far; one that is over is not a multiple of 2^64 microseconds and less than a jiffy. -/
def InReach (expires jiffies : BitVec 64) (left : Nat) : Prop :=
  if expires ≤ jiffies then left ≤ 1
  else if left = 0 then jiffyUsec ≤ (jiffiesToUsec (expires - jiffies)).toNat
  else left ≤ maxAhead

instance (expires jiffies : BitVec 64) (left : Nat) : Decidable (InReach expires jiffies left) := by
  unfold InReach
  infer_instance

def ArmsInReach (start : BitVec 64) (s : DelayState) (e : DelayEvent) : Prop :=
  ∀ expires call, e = .addTimer → s.phase = .adding expires call →
    InReach expires (s.jiffies start) (call.asked + call.delay.toNat - s.passed)

/-! ## One timeout -/

variable {expires jiffies start : BitVec 64} {left : Nat} {s t : DelayState} {e : DelayEvent}
  {call : DelayCall}

theorem jiffiesToUsec_toNat {j : BitVec 64} (h : j.toNat ≤ maxAhead) :
    (jiffiesToUsec j).toNat = j.toNat * jiffyUsec := by
  unfold maxAhead at h
  rw [jiffiesToUsec, BitVec.toNat_mul, BitVec.toNat_ofNat]
  unfold jiffyUsec
  omega

theorem timerTimeout_of_le (h : expires ≤ jiffies) :
    (timerTimeout expires jiffies).toNat = jiffyUsec := by
  rw [timerTimeout, if_pos h]
  decide

theorem timerTimeout_of_not_le (h : ¬expires ≤ jiffies) : (timerTimeout expires jiffies).toNat =
    min (jiffiesToUsec (expires - jiffies)).toNat intMax.toNat := by
  rw [timerTimeout, if_neg h]
  split
  · next hlt =>
    rw [BitVec.lt_def] at hlt
    omega
  · next hge =>
    rw [BitVec.lt_def] at hge
    omega

/-- **A timeout is long enough** exactly if the time is within reach. -/
theorem longEnough_iff (hleft : jiffies < expires → left ≠ 0 → left = (expires - jiffies).toNat) :
    LongEnough left (timerTimeout expires jiffies).toNat ↔ InReach expires jiffies left := by
  have hmax : intMax.toNat = 2147483647 := by decide
  unfold LongEnough InReach
  -- where the time is not the larger number, the timeout is one jiffy
  by_cases hle : expires ≤ jiffies
  · rw [if_pos hle, timerTimeout_of_le hle]
    unfold jiffyUsec
    omega
  · rw [if_neg hle, timerTimeout_of_not_le hle, hmax]
    have hlt : jiffies < expires := BitVec.not_le.mp hle
    -- nothing left: one jiffy is enough
    by_cases hzero : left = 0
    · rw [if_pos hzero, hzero]
      unfold jiffyUsec
      omega
    · rw [if_neg hzero]
      have hfar := hleft hlt hzero
      constructor
      · rintro ⟨-, hlong⟩
        unfold maxAhead
        unfold jiffyUsec at hlong
        omega
      -- no more than `INT_MAX` is asked for, so nothing is cut off
      · intro hreach
        rw [jiffiesToUsec_toNat (by omega), ← hfar]
        unfold maxAhead at hreach
        unfold jiffyUsec
        omega

theorem ahead_spec (h : ahead expires jiffies ≠ 0) :
    ahead expires jiffies = (expires - jiffies).toNat := by
  unfold ahead at h ⊢
  rw [BitVec.toInt_eq_toNat_cond] at h ⊢
  split at h
  · next hlow => rw [if_pos hlow, Int.toNat_natCast]
  · have hlt := (expires - jiffies).isLt
    omega

/-! ## One step -/

def PhaseOk (start : BitVec 64) (s : DelayState) : Prop :=
  match s.phase with
  | .adding expires call => expires = start + BitVec.ofNat 64 call.asked + call.delay ∧
      call.asked ≤ s.passed
  | .armed call due => call.asked + call.delay.toNat ≤ due / jiffyUsec
  | .idle | .queued => True

theorem passed_mono (usec : Nat) : s.passed ≤ ({ s with now := s.now + usec } : DelayState).passed :=
  Nat.div_le_div_right (Nat.le_add_right _ _)

theorem left_spec (hleft : call.asked + call.delay.toNat - s.passed ≠ 0)
    (hasked : call.asked ≤ s.passed) :
    call.asked + call.delay.toNat - s.passed =
      (start + BitVec.ofNat 64 call.asked + call.delay - s.jiffies start).toNat := by
  have hdelay := call.delay.isLt
  rw [DelayState.jiffies, BitVec.toNat_sub, BitVec.toNat_add, BitVec.toNat_add, BitVec.toNat_add,
    BitVec.toNat_ofNat, BitVec.toNat_ofNat]
  omega

structure DelayInv (start : BitVec 64) (s : DelayState) : Prop where
  phase : PhaseOk start s
  timely : Timely s

/-- **A work item is put on its queue** in time, and comes to be queued. -/
theorem DelayInv.queueWork (h : DelayInv start s)
    (htime : call.asked + call.delay.toNat ≤ s.passed) : DelayInv start (s.queueWork call) := by
  refine ⟨trivial, h.timely.armings, fun q hq => ?_⟩
  rcases List.mem_cons.mp hq with rfl | hq
  · exact htime
  · exact h.timely.queueings q hq

/-- **A timer is armed** for long enough exactly if its time is within reach. -/
theorem DelayInv.addTimer (h : DelayInv start s) (hphase : s.phase = .adding expires call)
    (hnext : s.next? start .addTimer = some t) :
    (InReach expires (s.jiffies start) (call.asked + call.delay.toNat - s.passed) →
      DelayInv start t) ∧
    (Timely t → InReach expires (s.jiffies start) (call.asked + call.delay.toNat - s.passed)) := by
  have hadding := h.phase
  rw [PhaseOk, hphase] at hadding
  obtain ⟨rfl, hasked⟩ := hadding
  rw [DelayState.next?, hphase] at hnext
  cases hnext
  have hiff : LongEnough (call.asked + call.delay.toNat - s.passed)
      (timerTimeout (start + BitVec.ofNat 64 call.asked + call.delay) (s.jiffies start)).toNat ↔
      InReach (start + BitVec.ofNat 64 call.asked + call.delay) (s.jiffies start)
        (call.asked + call.delay.toNat - s.passed) :=
    longEnough_iff fun _ hleft => left_spec hleft hasked
  constructor
  · intro hreach
    have hlong := hiff.mpr hreach
    refine ⟨?_, fun a ha => ?_, h.timely.queueings⟩
    · -- the timer is due when the delay is over
      obtain ⟨timeout, htimeout⟩ : ∃ timeout, timeout = (Vmklinux.addTimer
        (start + BitVec.ofNat 64 call.asked + call.delay) (s.jiffies start)).toNat := ⟨_, rfl⟩
      have hleft : (call.asked + call.delay.toNat - s.passed) * jiffyUsec ≤ timeout :=
        htimeout ▸ hlong.2
      have hnow : s.passed * jiffyUsec ≤ s.now := Nat.div_mul_le_self _ _
      have hdue : call.asked + call.delay.toNat ≤ (s.now + timeout) / jiffyUsec := by
        rw [Nat.le_div_iff_mul_le (by decide)]
        calc (call.asked + call.delay.toNat) * jiffyUsec
            ≤ (s.passed + (call.asked + call.delay.toNat - s.passed)) * jiffyUsec :=
              Nat.mul_le_mul_right _ (by omega)
          _ = s.passed * jiffyUsec + (call.asked + call.delay.toNat - s.passed) * jiffyUsec :=
              Nat.add_mul _ _ _
          _ ≤ s.now + timeout := Nat.add_le_add hnow hleft
      rw [htimeout] at hdue
      exact hdue
    · rcases List.mem_cons.mp ha with rfl | ha
      · exact hlong
      · exact h.timely.armings a ha
  · intro htimely
    exact hiff.mp (htimely.armings _ List.mem_cons_self)

/-- **One step.** -/
theorem DelayInv.step (h : DelayInv start s) (hstep : DelayStep start s e t) :
    (ArmsInReach start s e → DelayInv start t) ∧ (Timely t → ArmsInReach start s e) := by
  have hfree : e ≠ .addTimer → ArmsInReach start s e := fun hne _ _ he => absurd he hne
  cases e with
  -- time alone keeps what was in time
  | elapse usec =>
    cases hstep
    refine ⟨fun _ => ⟨?_, h.timely.armings, h.timely.queueings⟩, fun _ => hfree nofun⟩
    have hphase := h.phase
    unfold PhaseOk at hphase ⊢
    split
    · next expires call heq =>
      rw [heq] at hphase
      exact ⟨hphase.1, Nat.le_trans hphase.2 (passed_mono usec)⟩
    · next call due heq =>
      rw [heq] at hphase
      exact hphase
    · trivial
    · trivial
  | queueDelayedWork delay =>
    refine ⟨fun _ => ?_, fun _ => hfree nofun⟩
    change s.next? start (.queueDelayedWork delay) = some t at hstep
    rw [DelayState.next?] at hstep
    split at hstep
    · cases hstep
      exact h
    · split at hstep
      · next hzero =>
        cases hstep
        -- without a delay the work is queued where it was asked for
        refine h.queueWork ?_
        rw [hzero]
        exact Nat.le_refl _
      · cases hstep
        exact ⟨⟨rfl, Nat.le_refl _⟩, h.timely.armings, h.timely.queueings⟩
  | addTimer =>
    cases hphase : s.phase with
    | adding expires call =>
      obtain ⟨hkeep, hneed⟩ := h.addTimer hphase hstep
      refine ⟨fun hreach => hkeep (hreach expires call rfl hphase), fun htimely => ?_⟩
      intro expires' call' _ hphase'
      obtain ⟨rfl, rfl⟩ := DelayPhase.adding.inj (hphase.symm.trans hphase')
      exact hneed htimely
    | idle | armed _ _ | queued =>
      change s.next? start .addTimer = some t at hstep
      rw [DelayState.next?, hphase] at hstep
      cases hstep
  -- the timer is late, never early, and its time was long enough
  | timerFn =>
    refine ⟨fun _ => ?_, fun _ => hfree nofun⟩
    change s.next? start .timerFn = some t at hstep
    rw [DelayState.next?] at hstep
    split at hstep
    · next call due heq =>
      obtain ⟨hdue, heq'⟩ := Option.ite_none_right_eq_some.mp hstep
      cases heq'
      have hphase := h.phase
      rw [PhaseOk, heq] at hphase
      exact h.queueWork (Nat.le_trans hphase (Nat.div_le_div_right hdue))
    · cases hstep
  | run =>
    refine ⟨fun _ => ?_, fun _ => hfree nofun⟩
    obtain ⟨-, heq⟩ := Option.ite_none_right_eq_some.mp hstep
    cases heq
    exact ⟨trivial, h.timely.armings, h.timely.queueings⟩
  | cancel =>
    refine ⟨fun _ => ?_, fun _ => hfree nofun⟩
    change s.next? start .cancel = some t at hstep
    rw [DelayState.next?] at hstep
    split at hstep
    · cases hstep
      exact ⟨trivial, h.timely.armings, h.timely.queueings⟩
    · cases hstep
      exact h

/-! ## Runs -/

/-- **Delayed work**: `__mod_timer` is never early exactly for the times within reach, and neither
    is a timer of `queue_delayed_work`, nor its work, in a run whose timers are armed for such
    times. -/
theorem delayed_work_iff {start : BitVec 64} {es : List DelayEvent} {t : DelayState}
    (hrun : Run (DelayStep start) {} es t) :
    (∀ expires jiffies, LongEnough (ahead expires jiffies) (modTimer expires jiffies).toNat ↔
      InReach expires jiffies (ahead expires jiffies)) ∧
    (Always (DelayStep start) Timely {} es ↔
      Run (Guarded (DelayStep start) (ArmsInReach start)) {} es t) := by
  refine ⟨fun expires jiffies => longEnough_iff fun _ => ahead_spec, ?_⟩
  apply always_iff_guarded (fun _ _ _ _ h h' => Option.some.inj (h.symm.trans h'))
    (I := DelayInv start)
  · exact fun s hs => hs.timely
  · exact fun s e t hs hstep => hs.step hstep
  · exact hrun
  · exact ⟨trivial, nofun, nofun⟩

/-- A delay of 10 jiffies. -/
theorem delayed_work_ten : Always (DelayStep 0) Timely {}
    [.queueDelayedWork 10, .addTimer, .elapse 100000, .timerFn] := by
  have hrun : Run (DelayStep 0) {}
      [.queueDelayedWork 10, .addTimer, .elapse 100000, .timerFn] _ :=
    .cons rfl (.cons rfl (.cons rfl (.single rfl)))
  refine (delayed_work_iff hrun).2.mpr ?_
  refine .cons ⟨nofun, rfl⟩ (.cons ⟨?_, rfl⟩ (.cons ⟨nofun, rfl⟩ (.single ⟨nofun, rfl⟩)))
  intro expires call _ hphase
  obtain ⟨rfl, rfl⟩ := DelayPhase.adding.inj hphase
  decide

/-- A delay of 214749 jiffies is over one jiffy early, and one of 2 jiffies where `jiffies` is about
    to wrap. -/
theorem delayed_work_early :
    ¬Always (DelayStep 0) Timely {}
      [.queueDelayedWork 214749, .addTimer, .elapse 2147483647, .timerFn] ∧
    ¬Always (DelayStep (-1)) Timely {}
      [.queueDelayedWork 2, .addTimer, .elapse 10000, .timerFn] := by
  constructor
  · intro halways
    have htimely := halways _ _ List.prefix_rfl (.cons rfl (.cons rfl (.cons rfl (.single rfl))))
    exact absurd (htimely.queueings _ List.mem_cons_self) (by decide)
  · intro halways
    have htimely := halways _ _ List.prefix_rfl (.cons rfl (.cons rfl (.cons rfl (.single rfl))))
    exact absurd (htimely.queueings _ List.mem_cons_self) (by decide)

end VmkDrivers.Vmklinux
