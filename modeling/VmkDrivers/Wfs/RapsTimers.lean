/-
  VmkDrivers.Wfs.RapsTimers

  The timers of `raps_main` over whole runs.

  A tick lowers each timer whose flag is set, and the branch in which a
  timer runs out sets it again: `t_announce` and `t_rapsNR` do, the SF
  branch sets `t_rapsNR` instead of `t_rapsSF`.  So `t_rapsSF` goes down by
  `RAPS_TICK` as long as a failure lasts.  An SF is sent at every tick all
  the same until the timer wraps, but after the third tick it is below
  `-RAPS_TICK` (`timersInRange_iff`).

  The NR rounds are counted by `c_rapsNR`, which only a cleared failure
  sets: one round a tick, `RAPS_NR_COUNT` of them, and none while a failure
  lasts (`nrRounds_exact`).
-/

import VmkDrivers.Wfs.RapsTrace

namespace VmkDrivers.Wfs

open VmkDrivers.Lib WfsFsmState

/-! ## One tick -/

theorem tickTimer_eq {t : Int} (hlow : -2 ^ 31 + rapsTick ≤ t) (hhigh : t < 2 ^ 31) :
    tickTimer t = t - rapsTick := by
  have htick : rapsTick = 100 := rfl
  apply Int.bmod_eq_of_le <;> omega

structure Ticked (c d : RapsCtrl) (tx : List TxCall) : Prop where
  sf : d.flag.sf = c.flag.sf
  nr : d.flag.nr = (c.flag.nr && !decide (tickTimer c.tRapsNR ≤ 0 ∧ c.cRapsNR ≤ 0))
  tAnnounce : d.tAnnounce = c.tAnnounce ∨ d.tAnnounce = rapsAnnounceInt ∨
    d.tAnnounce = tickTimer c.tAnnounce ∧ 0 < d.tAnnounce
  tRapsSF : d.tRapsSF = if c.flag.sf then tickTimer c.tRapsSF else c.tRapsSF
  tRapsNR : d.tRapsNR =
    if c.flag.sf ∧ tickTimer c.tRapsSF ≤ 0 then rapsSFInt
    else if c.flag.nr then
      if tickTimer c.tRapsNR ≤ 0 ∧ 0 < c.cRapsNR then rapsNRInt else tickTimer c.tRapsNR
    else c.tRapsNR
  cRapsNR : d.cRapsNR =
    if c.flag.nr ∧ tickTimer c.tRapsNR ≤ 0 ∧ 0 < c.cRapsNR then c.cRapsNR - 1 else c.cRapsNR
  sentSF : tx.count (.raps .rapsSF) = if c.flag.sf ∧ tickTimer c.tRapsSF ≤ 0 then 1 else 0
  sentNR : tx.count (.raps .rapsNR) =
    if c.flag.nr ∧ tickTimer c.tRapsNR ≤ 0 ∧ 0 < c.cRapsNR then 1 else 0

variable (c : RapsCtrl)

theorem rapsAnnounceTimer_spec : ∃ t tx, rapsAnnounceTimer c = ({ c with tAnnounce := t }, tx) ∧
      (t = c.tAnnounce ∨ t = rapsAnnounceInt ∨ t = tickTimer c.tAnnounce ∧ 0 < t) ∧
      ∀ e, tx.count (.raps e) = 0 := by
  unfold rapsAnnounceTimer
  split
  · dsimp only
    split
    · exact ⟨_, _, rfl, .inr (.inl rfl), fun _ => rfl⟩
    · next hpos => exact ⟨_, _, rfl, .inr (.inr ⟨rfl, by omega⟩), fun _ => rfl⟩
  · exact ⟨_, _, rfl, .inl rfl, fun _ => rfl⟩

theorem rapsNRTimer_spec :
    ∃ nr t n tx, rapsNRTimer c =
        ({ c with flag := { c.flag with nr }, tRapsNR := t, cRapsNR := n }, tx) ∧
      nr = (c.flag.nr && !decide (tickTimer c.tRapsNR ≤ 0 ∧ c.cRapsNR ≤ 0)) ∧
      t = (if c.flag.nr then
        if tickTimer c.tRapsNR ≤ 0 ∧ 0 < c.cRapsNR then rapsNRInt else tickTimer c.tRapsNR
      else c.tRapsNR) ∧
      n = (if c.flag.nr ∧ tickTimer c.tRapsNR ≤ 0 ∧ 0 < c.cRapsNR then c.cRapsNR - 1
        else c.cRapsNR) ∧
      tx.count (.raps .rapsNR) =
        (if c.flag.nr ∧ tickTimer c.tRapsNR ≤ 0 ∧ 0 < c.cRapsNR then 1 else 0) ∧
      tx.count (.raps .rapsSF) = 0 := by
  unfold rapsNRTimer
  cases hnr : c.flag.nr with
  | false =>
    rw [if_neg Bool.false_ne_true]
    refine ⟨c.flag.nr, _, _, _, rfl, ?_⟩
    simp [hnr]
  | true =>
    rw [if_pos rfl]
    by_cases ht : tickTimer c.tRapsNR ≤ 0
    · rw [if_pos ht]
      by_cases hc : 0 < c.cRapsNR
      · rw [if_pos hc]
        refine ⟨c.flag.nr, _, _, _, rfl, ?_⟩
        simp [hnr, ht, hc]
      · rw [if_neg hc]
        refine ⟨_, _, _, _, rfl, ?_⟩
        simp [ht, not_lt.mp hc]
    · rw [if_neg ht]
      refine ⟨c.flag.nr, _, _, _, rfl, ?_⟩
      simp [hnr, ht]

theorem rapsSFTimer_spec : ∃ t u tx, rapsSFTimer c = ({ c with tRapsSF := t, tRapsNR := u }, tx) ∧
      t = (if c.flag.sf then tickTimer c.tRapsSF else c.tRapsSF) ∧
      u = (if c.flag.sf ∧ tickTimer c.tRapsSF ≤ 0 then rapsSFInt else c.tRapsNR) ∧
      tx.count (.raps .rapsSF) = (if c.flag.sf ∧ tickTimer c.tRapsSF ≤ 0 then 1 else 0) ∧
      tx.count (.raps .rapsNR) = 0 := by
  unfold rapsSFTimer
  cases hsf : c.flag.sf with
  | false =>
    rw [if_neg Bool.false_ne_true]
    exact ⟨_, _, _, rfl, by simp, by simp, by simp, by simp⟩
  | true =>
    rw [if_pos rfl]
    by_cases ht : tickTimer c.tRapsSF ≤ 0
    · rw [if_pos ht]
      refine ⟨_, _, _, rfl, ?_⟩
      simp [ht]
    · rw [if_neg ht]
      refine ⟨_, _, _, rfl, ?_⟩
      simp [ht]

variable {c d : RapsCtrl} {tx : List TxCall} {ev : TimerEvent} {l mid : List TimerEvent} {k : Nat}
  {e : WfsFsmEvent} {ops : List RapsOp}

/-- **A tick.** -/
theorem rapsTimers_ticked (h : rapsTimers c = (d, tx)) : Ticked c d tx := by
  obtain ⟨t, tx₁, hannounce, ht, hcount⟩ := rapsAnnounceTimer_spec c
  obtain ⟨nr, u, n, tx₂, hnr, rfl, rfl, rfl, hsentNR, hnotSF⟩ :=
    rapsNRTimer_spec { c with tAnnounce := t }
  obtain ⟨v, w, tx₃, hsf, rfl, rfl, hsentSF, hnotNR⟩ := rapsSFTimer_spec (rapsNRTimer
    { c with tAnnounce := t }).1
  rw [hnr] at hsf hsentSF
  simp only [rapsTimers, hannounce, hnr, hsf, Prod.mk.injEq] at h
  obtain ⟨rfl, rfl⟩ := h
  refine ⟨rfl, rfl, ht, rfl, rfl, rfl, ?_, ?_⟩
  · rw [List.count_append, List.count_append, hcount, hnotSF, hsentSF, Nat.zero_add]
  · rw [List.count_append, List.count_append, hcount, hsentNR, hnotNR, Nat.zero_add, Nat.add_zero]

/-! ## Every run -/

structure ClockOk (c : RapsCtrl) : Prop where
  exclusive : ¬(c.flag.sf = true ∧ c.flag.nr = true)
  tAnnounce : 0 ≤ c.tAnnounce ∧ c.tAnnounce ≤ rapsAnnounceInt
  tRapsNR : -rapsTick ≤ c.tRapsNR ∧ c.tRapsNR ≤ rapsNRInt
  running : c.flag.nr = true → 0 ≤ c.tRapsNR

theorem clockOk_start : ClockOk {} := by
  constructor
  · simp
  · exact ⟨le_rfl, by decide⟩
  · decide
  · exact fun _ => le_rfl

theorem ClockOk.tick (h : ClockOk c) (ht : Ticked c d tx) : ClockOk d := by
  have htick : rapsTick = 100 := rfl
  have hann : rapsAnnounceInt = 500 := rfl
  have hnrInt : rapsNRInt = 100 := rfl
  have hsfInt : rapsSFInt = 100 := rfl
  obtain ⟨hannLow, hannHigh⟩ := h.tAnnounce
  obtain ⟨hnrLow, hnrHigh⟩ := h.tRapsNR
  have hannTick : tickTimer c.tAnnounce = c.tAnnounce - rapsTick := by
    apply tickTimer_eq <;> omega
  constructor
  · rw [ht.sf, ht.nr, Bool.and_eq_true]
    exact fun hboth => h.exclusive ⟨hboth.1, hboth.2.1⟩
  · rcases ht.tAnnounce with heq | heq | ⟨heq, hpos⟩ <;> omega
  · rw [ht.tRapsNR]
    split
    · omega
    · split
      · next hnr =>
        have hrun := h.running hnr
        have hnrTick : tickTimer c.tRapsNR = c.tRapsNR - rapsTick := by
          apply tickTimer_eq <;> omega
        rw [hnrTick]
        split <;> omega
      · exact h.tRapsNR
  · -- a timer that ran out is set again or loses its flag
    intro hnr
    rw [ht.nr, Bool.and_eq_true, Bool.not_eq_true', decide_eq_false_iff_not] at hnr
    rw [ht.tRapsNR, if_pos hnr.1]
    split
    · omega
    · split <;> omega

theorem ClockOk.step (h : ClockOk c) (hs : ClockStep c ev d) : ClockOk d := by
  cases ev with
  | tick tx => exact h.tick (rapsTimers_ticked hs)
  | start =>
    obtain rfl : d = {} := hs
    exact clockOk_start
  | executed e =>
    obtain rfl : d = c.executed e := hs
    have hann : 0 ≤ rapsAnnounceInt := by decide
    have hnr : -rapsTick ≤ rapsNRInt ∧ 0 ≤ rapsNRInt := by decide
    cases e with
    | discover => exact ⟨h.exclusive, ⟨hann, le_rfl⟩, h.tRapsNR, h.running⟩
    | localSF => exact ⟨by simp [RapsCtrl.executed], h.tAnnounce, h.tRapsNR, by
        simp [RapsCtrl.executed]⟩
    | clearLocalSF =>
      exact ⟨by simp [RapsCtrl.executed], h.tAnnounce, ⟨hnr.1, le_rfl⟩, fun _ => hnr.2⟩
    | expire | rapsSF | rapsNR => exact h

theorem clockOk_of_run (hrun : Run ClockStep {} l c) : ClockOk c :=
  hrun.invariant (fun _ _ _ h hs => h.step hs) clockOk_start

/-! ## NR rounds -/

def NoChange (l : List TimerEvent) : Prop :=
  ∀ ev ∈ l, ev ≠ .executed .localSF ∧ ev ≠ .executed .clearLocalSF ∧ ev ≠ .start

/-- `k` ticks after a failure was cleared. -/
structure NRPhase (c : RapsCtrl) (k : Nat) : Prop where
  sf : c.flag.sf = false
  nr : c.flag.nr = decide ((k : Int) ≤ rapsNRCount)
  tRapsNR : (k : Int) ≤ rapsNRCount → c.tRapsNR = rapsNRInt
  cRapsNR : (k : Int) ≤ rapsNRCount → c.cRapsNR = rapsNRCount - k

theorem nrPhase_clear (c : RapsCtrl) : NRPhase (c.executed .clearLocalSF) 0 :=
  ⟨rfl, rfl, fun _ => rfl, fun _ => rfl⟩

theorem NRPhase.tick (h : NRPhase c k) (ht : Ticked c d tx) :
    NRPhase d (k + 1) ∧ tx.count (.raps .rapsNR) = if (k : Int) < rapsNRCount then 1 else 0 := by
  have hcount : rapsNRCount = 10 := rfl
  have hzero : tickTimer rapsNRInt = 0 := by decide
  by_cases hk : (k : Int) ≤ rapsNRCount
  · have hnr : c.flag.nr = true := by rw [h.nr, decide_eq_true hk]
    have hout : tickTimer c.tRapsNR ≤ 0 := by rw [h.tRapsNR hk, hzero]
    have hc := h.cRapsNR hk
    have hsf : ¬(c.flag.sf = true ∧ tickTimer c.tRapsSF ≤ 0) := by simp [h.sf]
    refine ⟨⟨ht.sf.trans h.sf, ?_, ?_, ?_⟩, ?_⟩
    · rw [ht.nr, hnr, Bool.true_and, ← decide_not, decide_eq_decide]
      omega
    · intro hk'
      rw [ht.tRapsNR, if_neg hsf, if_pos hnr, if_pos ⟨hout, by omega⟩]
    · intro hk'
      rw [ht.cRapsNR, if_pos ⟨hnr, hout, by omega⟩]
      omega
    · rw [ht.sentNR]
      congr 1
      simp only [hnr, hout, true_and, eq_iff_iff]
      omega
  · -- the flag is clear
    have hnr : c.flag.nr = false := by rw [h.nr, decide_eq_false hk]
    refine ⟨⟨ht.sf.trans h.sf, ?_, ?_, ?_⟩, ?_⟩
    · rw [ht.nr, hnr, Bool.false_and, eq_comm, decide_eq_false_iff_not]
      omega
    · intro hk'
      omega
    · intro hk'
      omega
    · rw [ht.sentNR, if_neg (by simp [hnr]), if_neg (by omega)]

theorem NRPhase.executed (h : NRPhase c k) (hsf : e ≠ .localSF) (hclear : e ≠ .clearLocalSF) :
    NRPhase (c.executed e) k := by
  cases e with
  | localSF => exact absurd rfl hsf
  | clearLocalSF => exact absurd rfl hclear
  | discover => exact ⟨h.sf, h.nr, h.tRapsNR, h.cRapsNR⟩
  | expire | rapsSF | rapsNR => exact h

theorem NRPhase.run (h : NRPhase c k) (hmid : NoChange mid) (hrun : Run ClockStep c mid d) :
    NRPhase d (k + tickCount mid) ∧ roundsOf .rapsNR mid =
      (List.range' k (tickCount mid)).map fun i : Nat => if (i : Int) < rapsNRCount then 1 else 0 := by
  apply phased_run _ _ _ h hmid hrun
  · exact fun c d tx k h hs => h.tick (rapsTimers_ticked hs)
  · rintro c e k h ⟨hsf, hclear, -⟩
    exact h.executed (fun he => hsf (he ▸ rfl)) fun he => hclear (he ▸ rfl)
  · rintro c k - ⟨-, -, hstart⟩
    exact absurd rfl hstart

theorem noRounds_of_run (h : c.flag.nr = false) (hmid : ∀ ev ∈ mid, ev ≠ .executed .clearLocalSF)
    (hrun : Run ClockStep c mid d) :
    d.flag.nr = false ∧ roundsOf .rapsNR mid = List.replicate (tickCount mid) 0 := by
  have htick : ∀ (c d : RapsCtrl) tx (k : Nat), c.flag.nr = false → rapsTimers c = (d, tx) →
      d.flag.nr = false ∧ tx.count (.raps .rapsNR) = 0 := by
    intro c d tx k h hs
    have ht := rapsTimers_ticked hs
    constructor
    · rw [ht.nr, h, Bool.false_and]
    · rw [ht.sentNR, if_neg (by simp [h])]
  have hphased := phased_run (P := fun c _ => c.flag.nr = false) (f := fun _ => 0) (k := 0) htick
    (fun c e k h he => ?_) (fun _ _ _ _ => rfl) h hmid hrun
  · rwa [List.map_const', List.length_range'] at hphased
  · cases e with
    | clearLocalSF => exact absurd rfl he
    | localSF => rfl
    | discover | expire | rapsSF | rapsNR => exact h

theorem run_of_infix {T : RapsCtrl → TimerEvent → RapsCtrl → Prop} (hin : ev :: mid <:+: l)
    (hrun : Run T c l d) :
    ∃ pre a b e, pre ++ ev :: mid <+: l ∧ Run T c pre a ∧ T a ev b ∧ Run T b mid e := by
  obtain ⟨pre, post, rfl⟩ := hin
  obtain ⟨e, hleft, -⟩ := hrun.split
  obtain ⟨a, hpre, hmid⟩ := hleft.split
  cases hmid with
  | cons hs hrest => exact ⟨pre, a, _, e, List.prefix_append _ _, hpre, hs, hrest⟩

/-- Whether NR rounds go with the failures cleared, in the trace `l` of a run and in the flags
    it ends with. -/
structure NRRounds (l : List TimerEvent) (flag : RapsFlag) : Prop where
  exclusive : ¬(flag.sf = true ∧ flag.nr = true)
  /-- A cleared failure is followed by `RAPS_NR_COUNT` rounds, one a tick. -/
  counted : ∀ mid, .executed .clearLocalSF :: mid <:+: l → NoChange mid →
    roundsOf .rapsNR mid =
      (List.range (tickCount mid)).map fun k : Nat => if (k : Int) < rapsNRCount then 1 else 0
  /-- Then the flag is cleared. -/
  cleared : ∀ mid, .executed .clearLocalSF :: mid <:+ l → NoChange mid →
    flag.nr = decide ((tickCount mid : Int) ≤ rapsNRCount)
  /-- A failure, or a restart, stops the rounds at once. -/
  stopped : ∀ ev mid, ev = .executed .localSF ∨ ev = .start → ev :: mid <:+: l →
    (∀ ev' ∈ mid, ev' ≠ .executed .clearLocalSF) →
    roundsOf .rapsNR mid = List.replicate (tickCount mid) 0
  /-- And clears the flag. -/
  silent : ∀ ev mid, ev = .executed .localSF ∨ ev = .start → ev :: mid <:+ l →
    (∀ ev' ∈ mid, ev' ≠ .executed .clearLocalSF) → flag.nr = false

theorem nrRounds_of_clockRun (hrun : Run ClockStep {} l c) : NRRounds l c.flag := by
  have hafter {ev : TimerEvent} (hev : ev = .executed .localSF ∨ ev = .start) {a b : RapsCtrl}
      (hs : ClockStep a ev b) : b.flag.nr = false := by
    rcases hev with rfl | rfl
    · obtain rfl : b = a.executed .localSF := hs
      rfl
    · obtain rfl : b = {} := hs
      rfl
  constructor
  · exact (clockOk_of_run hrun).exclusive
  · intro mid hin hmid
    obtain ⟨pre, a, b, e, -, -, hs, hrest⟩ := run_of_infix hin hrun
    obtain rfl : b = a.executed .clearLocalSF := hs
    rw [List.range_eq_range']
    exact ((nrPhase_clear a).run hmid hrest).2
  · rintro mid ⟨pre, rfl⟩ hmid
    obtain ⟨a, -, hlast⟩ := hrun.split
    cases hlast with
    | cons hs hrest =>
      obtain rfl := show _ = a.executed .clearLocalSF from hs
      have hend := ((nrPhase_clear a).run hmid hrest).1
      rw [hend.nr, Nat.zero_add]
  · intro ev mid hev hin hmid
    obtain ⟨pre, a, b, e, -, -, hs, hrest⟩ := run_of_infix hin hrun
    exact (noRounds_of_run (hafter hev hs) hmid hrest).2
  · rintro ev mid hev ⟨pre, rfl⟩ hmid
    obtain ⟨a, -, hlast⟩ := hrun.split
    cases hlast with
    | cons hs hrest => exact (noRounds_of_run (hafter hev hs) hmid hrest).1

theorem clockRun_of_probed {kmalloc : Nat → Bool} {wfsId : WfsId} {macAddr : Mac}
    {wfsPort : Port → Int} {s : Iwa EvBufPool}
    (hrun : Run RapsStep (.probed wfsId macAddr wfsPort (EvBufPool.ixgbeWfsFsmInit kmalloc).1)
      ops s) :
    Run ClockStep {} (timerTrace
      (.probed wfsId macAddr wfsPort (EvBufPool.ixgbeWfsFsmInit kmalloc).1) ops)
      s.core.ctrl.clock := by
  obtain ⟨q, hq, _⟩ := PoolRep.ixgbeWfsFsmInit kmalloc
  exact clockRun_of_run hrun (iwaRep_probed hq)

/-- **NR rounds.** In every run from the probe `RAPS_CTRL_SF` and `RAPS_CTRL_NR` exclude each
    other, and a cleared failure is announced `RAPS_NR_COUNT` times, one round a tick, unless
    another failure or a restart stops the rounds. -/
theorem nrRounds_exact {kmalloc : Nat → Bool} {wfsId : WfsId} {macAddr : Mac}
    {wfsPort : Port → Int} {ops : List RapsOp} {s : Iwa EvBufPool}
    (hrun : Run RapsStep (.probed wfsId macAddr wfsPort (EvBufPool.ixgbeWfsFsmInit kmalloc).1)
      ops s) :
    NRRounds (timerTrace (.probed wfsId macAddr wfsPort (EvBufPool.ixgbeWfsFsmInit kmalloc).1) ops)
      s.core.ctrl.flag := by
  obtain ⟨hexclusive, hcounted, hcleared, hstopped, hsilent⟩ :=
    nrRounds_of_clockRun (clockRun_of_probed hrun)
  exact ⟨hexclusive, hcounted, hcleared, hstopped, hsilent⟩

/-- One run of `raps_main` with only the primary port up. -/
def mainOps : List RapsOp :=
  [.fsmEvent fun _ => (· == .primary), .timers, .peerTtl fun _ => true, .misc 0]

/-- Station 1 loses its secondary port, which lasts for `n` ticks. -/
def failureRun (n : Nat) : List RapsOp :=
  [.openPorts, .updateLink .primary true, .rapsStart (fun _ => true) 0] ++ mainOps ++
    [.linkIsDown (fun _ => true) .secondary] ++ (List.replicate n mainOps).flatten

def recoveryRun : List RapsOp :=
  failureRun 1 ++ [.updateLink .secondary true, .linkIsUp (fun _ => true) .secondary] ++
    (List.replicate 12 mainOps).flatten

theorem nrRounds_exact_recovery :
    ∃ s, Run RapsStep stationOne recoveryRun s ∧
      NRRounds (timerTrace stationOne recoveryRun) s.core.ctrl.flag ∧
      (roundsOf .rapsNR (timerTrace stationOne recoveryRun)).sum = 10 := by
  have hdone : (Run.exec RapsOp.next? stationOne recoveryRun).isSome = true := by decide +kernel
  obtain ⟨s, hs⟩ := Option.isSome_iff_exists.mp hdone
  have hrun : Run RapsStep stationOne recoveryRun s := rapsRun_iff_exec.mp hs
  exact ⟨s, hrun, nrRounds_exact hrun, by decide +kernel⟩

/-! ## SF rounds -/

/-- `t_rapsSF` after `k` ticks of a failure. -/
def sfTimer (k : Nat) : Int := (rapsSFInt - k * rapsTick).bmod (2 ^ 32)

theorem tickTimer_sfTimer (k : Nat) : tickTimer (sfTimer k) = sfTimer (k + 1) := by
  have htick : rapsTick = 100 := rfl
  have heq : rapsSFInt - k * rapsTick - rapsTick = rapsSFInt - (k + 1 : Nat) * rapsTick := by
    rw [htick]
    omega
  rw [tickTimer, sfTimer, Int.bmod_sub_bmod, heq]
  rfl

/-- `k` ticks after a failure was executed. -/
structure SFPhase (c : RapsCtrl) (k : Nat) : Prop where
  sf : c.flag.sf = true
  tRapsSF : c.tRapsSF = sfTimer k

theorem sfPhase_localSF (c : RapsCtrl) : SFPhase (c.executed .localSF) 0 := by
  constructor <;> rfl

theorem SFPhase.tick (h : SFPhase c k) (ht : Ticked c d tx) :
    SFPhase d (k + 1) ∧ tx.count (.raps .rapsSF) = if sfTimer (k + 1) ≤ 0 then 1 else 0 := by
  refine ⟨⟨ht.sf.trans h.sf, ?_⟩, ?_⟩
  · rw [ht.tRapsSF, if_pos h.sf, h.tRapsSF, tickTimer_sfTimer]
  · rw [ht.sentSF, h.tRapsSF, tickTimer_sfTimer]
    simp only [h.sf, true_and]

/-- No SF is sent any more once the timer has wrapped. -/
example : sfTimer 21474837 ≤ 0 ∧ 0 < sfTimer 21474838 := by decide

theorem SFPhase.executed (h : SFPhase c k) (hsf : e ≠ .localSF) (hclear : e ≠ .clearLocalSF) :
    SFPhase (c.executed e) k := by
  cases e with
  | localSF => exact absurd rfl hsf
  | clearLocalSF => exact absurd rfl hclear
  | discover => exact ⟨h.sf, h.tRapsSF⟩
  | expire | rapsSF | rapsNR => exact h

theorem SFPhase.run (h : SFPhase c k) (hmid : NoChange mid) (hrun : Run ClockStep c mid d) :
    SFPhase d (k + tickCount mid) := by
  have hphased := phased_run (fun c d tx k (h : SFPhase c k) hs => h.tick (rapsTimers_ticked hs))
    (fun c e k h he => ?_) (fun c k _ he => ?_) h hmid hrun
  · exact hphased.1
  · exact h.executed (fun heq => he.1 (heq ▸ rfl)) fun heq => he.2.1 (heq ▸ rfl)
  · exact absurd rfl he.2.2

/-- The timers are between `-RAPS_TICK` and their intervals. -/
structure TimersInRange (c : RapsCtrl) : Prop where
  tAnnounce : -rapsTick ≤ c.tAnnounce ∧ c.tAnnounce ≤ rapsAnnounceInt
  tRapsSF : -rapsTick ≤ c.tRapsSF ∧ c.tRapsSF ≤ rapsSFInt
  tRapsNR : -rapsTick ≤ c.tRapsNR ∧ c.tRapsNR ≤ rapsNRInt

/-- While `RAPS_CTRL_SF` stays set every tick sends one SF. -/
def SFRepeated (l : List TimerEvent) : Prop :=
  ∀ mid, .executed .localSF :: mid <:+: l →
    (∀ ev ∈ mid, ev ≠ .executed .clearLocalSF ∧ ev ≠ .start) →
    roundsOf .rapsSF mid = List.replicate (tickCount mid) 1

/-- No failure lasts for more than two ticks before it is reported again, cleared, or the
    timers are restarted. -/
def ShortFailures (l : List TimerEvent) : Prop :=
  ∀ mid, .executed .localSF :: mid <:+: l → NoChange mid → tickCount mid ≤ 2

theorem ShortFailures.before {l' : List TimerEvent} (h : ShortFailures l) (hpre : l' <+: l) :
    ShortFailures l' :=
  fun mid hin => h mid (hin.trans hpre.isInfix)

theorem shortFailures_of_tickCount (h : tickCount l ≤ 2) : ShortFailures l := by
  intro mid hin hmid
  have hsub : mid.Sublist l := (List.sublist_cons_self _ mid).trans hin.sublist
  exact (hsub.countP_le (p := TimerEvent.isTick)).trans h

theorem sfTimer_short (hk : k ≤ 2) : -rapsTick ≤ sfTimer k ∧ sfTimer k ≤ rapsSFInt := by
  obtain rfl | rfl | rfl : k = 0 ∨ k = 1 ∨ k = 2 := by omega
  · decide
  · decide
  · decide

/-- **Short failures** keep the SF timer in its range; while its flag is set it counts the
    ticks since the failure. -/
theorem sf_of_clockRun (hrun : Run ClockStep {} l c) (hshort : ShortFailures l) :
    (-rapsTick ≤ c.tRapsSF ∧ c.tRapsSF ≤ rapsSFInt) ∧
      (c.flag.sf = true → ∃ mid, .executed .localSF :: mid <:+ l ∧ NoChange mid ∧
        SFPhase c (tickCount mid)) := by
  induction l using List.reverseRecOn generalizing c with
  | nil =>
    cases hrun
    exact ⟨by decide, by simp⟩
  | append_singleton l ev ih =>
    obtain ⟨b, hb, hlast⟩ := hrun.split
    obtain ⟨hrange, hphase⟩ := ih hb (hshort.before (List.prefix_append _ _))
    cases hlast with
    | cons hs hnil =>
      cases hnil
      -- an event that is no change continues the phase
      have hcontinue (hev : NoChange [ev]) (hsf : b.flag.sf = true)
          (hnext : ∀ n, SFPhase b n → SFPhase c (n + tickCount [ev])) :
          ∃ mid, .executed .localSF :: mid <:+ l ++ [ev] ∧ NoChange mid ∧
            SFPhase c (tickCount mid) := by
        obtain ⟨mid, ⟨pre, hl⟩, hmid, hcount⟩ := hphase hsf
        refine ⟨mid ++ [ev], ⟨pre, by rw [← hl]; simp⟩, ?_, ?_⟩
        · intro ev' hev'
          rcases List.mem_append.mp hev' with h | h
          · exact hmid ev' h
          · exact hev ev' h
        · rw [tickCount_append]
          exact hnext _ hcount
      cases ev with
      | tick tx =>
        have ht := rapsTimers_ticked hs
        have hnext := hcontinue (by simp [NoChange])
        by_cases hsf : b.flag.sf = true
        · obtain ⟨mid, hin, hmid, hcount⟩ := hnext hsf fun n hn => (hn.tick ht).1
          refine ⟨?_, fun _ => ⟨mid, hin, hmid, hcount⟩⟩
          rw [hcount.tRapsSF]
          exact sfTimer_short (hshort mid hin.isInfix hmid)
        · rw [ht.sf, ht.tRapsSF, if_neg hsf]
          exact ⟨hrange, fun h => absurd h hsf⟩
      | start =>
        obtain rfl : c = {} := hs
        exact ⟨by decide, by simp⟩
      | executed e =>
        obtain rfl : c = b.executed e := hs
        have hint : -rapsTick ≤ rapsSFInt := by decide
        cases e with
        | localSF =>
          refine ⟨⟨hint, le_rfl⟩, fun _ => ⟨[], ?_, ?_, sfPhase_localSF b⟩⟩
          · exact List.suffix_append _ _
          · exact fun _ h => absurd h List.not_mem_nil
        | clearLocalSF => exact ⟨hrange, by simp [RapsCtrl.executed]⟩
        | discover | expire | rapsSF | rapsNR =>
          refine ⟨hrange, fun hsf => hcontinue (by simp [NoChange]) hsf fun n hn => ?_⟩
          exact hn.executed (by simp) (by simp)

theorem inRange_of_short (hrun : Run ClockStep {} l c) (hshort : ShortFailures l) :
    TimersInRange c := by
  have hok := clockOk_of_run hrun
  have htick : rapsTick = 100 := rfl
  obtain ⟨hlow, hhigh⟩ := hok.tAnnounce
  exact ⟨⟨by omega, hhigh⟩, (sf_of_clockRun hrun hshort).1, hok.tRapsNR⟩

theorem rounds_of_short (hl : Run ClockStep {} l c)
    (hmid : ∀ ev ∈ mid, ev ≠ .executed .clearLocalSF ∧ ev ≠ .start) (hrun : Run ClockStep c mid d)
    (hshort : ShortFailures (l ++ mid)) (hsf : c.flag.sf = true) :
    roundsOf .rapsSF mid = List.replicate (tickCount mid) 1 := by
  have htick : rapsTick = 100 := rfl
  have hint : rapsSFInt = 100 := rfl
  induction hrun generalizing l with
  | nil c => rfl
  | @cons c b d ev mid hs _ ih =>
    have hassoc : l ++ ev :: mid = l ++ [ev] ++ mid := by rw [List.append_assoc]; rfl
    have hnext (hb : b.flag.sf = true) :=
      ih (hl.append (.single hs)) (fun ev' hev => hmid ev' (List.mem_cons_of_mem _ hev))
        (hassoc ▸ hshort) hb
    obtain ⟨hclear, hstart⟩ := hmid ev List.mem_cons_self
    cases ev with
    | tick tx =>
      have ht := rapsTimers_ticked hs
      obtain ⟨hlow, hhigh⟩ :=
        (sf_of_clockRun hl (hshort.before (List.prefix_append _ _))).1
      have hout : tickTimer c.tRapsSF ≤ 0 := by
        rw [tickTimer_eq (by omega) (by omega)]
        omega
      have hcount : tx.count (.raps .rapsSF) = 1 := by rw [ht.sentSF, if_pos ⟨hsf, hout⟩]
      have htc : tickCount (.tick tx :: mid) = tickCount mid + 1 := tickCount_cons _ _
      rw [htc, List.replicate_succ, ← hnext (ht.sf.trans hsf), ← hcount]
      rfl
    | start => exact absurd rfl hstart
    | executed e =>
      obtain rfl : b = c.executed e := hs
      cases e with
      | clearLocalSF => exact absurd rfl hclear
      | localSF => exact hnext rfl
      | discover | expire | rapsSF | rapsNR => exact hnext hsf

theorem sfRepeated_of_short (hrun : Run ClockStep {} l c) (hshort : ShortFailures l) :
    SFRepeated l := by
  intro mid hin hmid
  obtain ⟨pre, a, b, e, hpre, ha, hs, hrest⟩ := run_of_infix hin hrun
  have hsf : b.flag.sf = true := by
    obtain rfl : b = a.executed .localSF := hs
    rfl
  have hassoc : pre ++ .executed .localSF :: mid = pre ++ [.executed .localSF] ++ mid := by
    rw [List.append_assoc]
    rfl
  exact rounds_of_short (ha.append (.single hs)) hmid hrest (hassoc ▸ hshort.before hpre) hsf

theorem exists_prefix_tickCount {n : Nat} (h : n ≤ tickCount l) :
    ∃ l', l' <+: l ∧ tickCount l' = n := by
  induction l generalizing n with
  | nil => exact ⟨[], List.prefix_rfl, (Nat.le_zero.mp h).symm⟩
  | cons ev l ih =>
    rw [tickCount_cons] at h
    cases n with
    | zero => exact ⟨[], List.nil_prefix, rfl⟩
    | succ n =>
      cases hev : ev.isTick with
      | true =>
        rw [hev, if_pos rfl] at h
        obtain ⟨l', hpre, hcount⟩ := ih (n := n) (by omega)
        refine ⟨ev :: l', (List.prefix_cons_inj ev).mpr hpre, ?_⟩
        rw [tickCount_cons, hcount, hev, if_pos rfl]
      | false =>
        rw [hev, if_neg Bool.false_ne_true] at h
        obtain ⟨l', hpre, hcount⟩ := ih h
        refine ⟨ev :: l', (List.prefix_cons_inj ev).mpr hpre, ?_⟩
        rw [tickCount_cons, hcount, hev, if_neg Bool.false_ne_true]

theorem short_of_inRange (hrun : Run ClockStep {} l c)
    (halways : Always ClockStep TimersInRange {} l) : ShortFailures l := by
  intro mid hin hmid
  by_contra hlong
  obtain ⟨mid', ⟨rest, rfl⟩, hthree⟩ := exists_prefix_tickCount (n := 3) (l := mid) (by omega)
  obtain ⟨pre, a, b, e, hpre, ha, hs, hrest⟩ := run_of_infix hin hrun
  obtain rfl : b = a.executed .localSF := hs
  obtain ⟨f, hf, -⟩ := hrest.split
  have hphase := (sfPhase_localSF a).run (fun ev hev => hmid ev (List.mem_append_left _ hev)) hf
  have hprefix : pre ++ .executed .localSF :: mid' <+: l := by
    refine List.IsPrefix.trans ⟨rest, ?_⟩ hpre
    simp
  have hrange := halways _ f hprefix (ha.append (.cons rfl hf))
  have hlow := hrange.tRapsSF.1
  rw [hphase.tRapsSF, hthree] at hlow
  exact absurd hlow (by decide)

/-! ## Runs of a station -/

theorem TimersInRange.step (h : TimersInRange c) (hev : ev.isTick = false) (hs : ClockStep c ev d) :
    TimersInRange d := by
  cases ev with
  | tick tx => exact absurd hev (by simp [TimerEvent.isTick])
  | start =>
    obtain rfl : d = {} := hs
    exact inRange_of_short (.nil _) (by simp [ShortFailures])
  | executed e =>
    obtain rfl : d = c.executed e := hs
    have hann : -rapsTick ≤ rapsAnnounceInt := by decide
    have hsf : -rapsTick ≤ rapsSFInt := by decide
    have hnr : -rapsTick ≤ rapsNRInt := by decide
    cases e with
    | discover => exact ⟨⟨hann, le_rfl⟩, h.tRapsSF, h.tRapsNR⟩
    | localSF => exact ⟨h.tAnnounce, ⟨hsf, le_rfl⟩, h.tRapsNR⟩
    | clearLocalSF => exact ⟨h.tAnnounce, h.tRapsSF, ⟨hnr, le_rfl⟩⟩
    | expire | rapsSF | rapsNR => exact h

theorem always_inRange {evs : List TimerEvent} (hevs : ∀ ev ∈ evs, ev.isTick = false)
    (h : TimersInRange c) (hrun : Run ClockStep c evs d) :
    Always ClockStep TimersInRange c evs := by
  induction hrun with
  | nil c => exact always_nil.mpr h
  | @cons c b d ev evs hs _ ih =>
    rw [always_cons clockStep_unique hs]
    refine ⟨h, ih (fun ev' hev => hevs ev' (List.mem_cons_of_mem _ hev)) ?_⟩
    exact h.step (hevs ev List.mem_cons_self) hs

theorem always_inRange_iff {s s' : Iwa EvBufPool} (hrun : Run RapsStep s ops s') {t : Iwa EvQueue}
    (hrep : IwaRep s t) :
    Always RapsStep (fun u => TimersInRange u.core.ctrl) s ops ↔
      Always ClockStep TimersInRange s.core.ctrl.clock (timerTrace s ops) := by
  have hclock (u : Iwa EvBufPool) : TimersInRange u.core.ctrl ↔ TimersInRange u.core.ctrl.clock :=
    ⟨fun h => ⟨h.tAnnounce, h.tRapsSF, h.tRapsNR⟩, fun h => ⟨h.tAnnounce, h.tRapsSF, h.tRapsNR⟩⟩
  induction hrun generalizing t with
  | nil s => exact always_nil.trans ((hclock s).trans always_nil.symm)
  | @cons s u s' op ops hstep _ ih =>
    obtain ⟨t', -, hrep'⟩ := rapsStep_refines hrep hstep
    have hevs := clockRun_of_step hrep hstep
    have hops : Always RapsStep (fun v => TimersInRange v.core.ctrl) u ops ↔
        Always ClockStep TimersInRange u.core.ctrl.clock (timerTrace u ops) := ih hrep'
    rw [timerTrace_cons hstep, always_cons rapsStep_unique hstep, hops,
      always_append clockStep_unique hevs]
    refine and_congr_left fun hrest => ⟨fun h => ?_, fun h => ?_⟩
    · by_cases hop : op = .timers
      · -- the one step of the trace leads to the next state
        subst hop
        have hu := hrest [] _ List.nil_prefix (.nil _)
        cases hevs with
        | cons hs hnil =>
          cases hnil
          rw [RapsOp.timerEvents, always_cons clockStep_unique hs, always_nil]
          exact ⟨(hclock s).mp h, hu⟩
      · exact always_inRange (timerEvents_noTick hrep hstep hop) ((hclock s).mp h) hevs
    · exact (hclock s).mpr (h [] _ List.nil_prefix (.nil _))

/-- **The timers stay in range**, and every tick of a failure sends an SF, exactly on the runs
    from the probe on which no failure lasts for more than two ticks. -/
theorem timersInRange_iff {kmalloc : Nat → Bool} {wfsId : WfsId} {macAddr : Mac}
    {wfsPort : Port → Int} {ops : List RapsOp} {s : Iwa EvBufPool}
    (hrun : Run RapsStep (.probed wfsId macAddr wfsPort (EvBufPool.ixgbeWfsFsmInit kmalloc).1)
      ops s) :
    Always RapsStep (fun t => TimersInRange t.core.ctrl)
          (.probed wfsId macAddr wfsPort (EvBufPool.ixgbeWfsFsmInit kmalloc).1) ops ∧
        SFRepeated (timerTrace
          (.probed wfsId macAddr wfsPort (EvBufPool.ixgbeWfsFsmInit kmalloc).1) ops) ↔
      ShortFailures (timerTrace
        (.probed wfsId macAddr wfsPort (EvBufPool.ixgbeWfsFsmInit kmalloc).1) ops) := by
  obtain ⟨q, hq, _⟩ := PoolRep.ixgbeWfsFsmInit kmalloc
  have hclock := clockRun_of_probed hrun
  rw [always_inRange_iff hrun (iwaRep_probed hq)]
  constructor
  · rintro ⟨halways, -⟩
    exact short_of_inRange hclock halways
  · intro hshort
    refine ⟨fun pre c hpre hc => ?_, sfRepeated_of_short hclock hshort⟩
    exact inRange_of_short hc (hshort.before hpre)

theorem timersInRange_oneTick :
    ∃ s, Run RapsStep stationOne (failureRun 1) s ∧
      Always RapsStep (fun t => TimersInRange t.core.ctrl) stationOne (failureRun 1) ∧
      SFRepeated (timerTrace stationOne (failureRun 1)) := by
  have hdone : (Run.exec RapsOp.next? stationOne (failureRun 1)).isSome = true := by
    decide +kernel
  have hshort : tickCount (timerTrace stationOne (failureRun 1)) ≤ 2 := by decide +kernel
  obtain ⟨s, hs⟩ := Option.isSome_iff_exists.mp hdone
  have hrun : Run RapsStep stationOne (failureRun 1) s := rapsRun_iff_exec.mp hs
  exact ⟨s, hrun, (timersInRange_iff hrun).mpr (shortFailures_of_tickCount hshort)⟩

/-- A failure of three ticks leaves `t_rapsSF` at `-2 * RAPS_TICK`. -/
theorem timersInRange_threeTicks :
    ∃ s, Run RapsStep stationOne (failureRun 3) s ∧ s.core.ctrl.tRapsSF = -2 * rapsTick ∧
      ¬Always RapsStep (fun t => TimersInRange t.core.ctrl) stationOne (failureRun 3) := by
  have hdone : ((Run.exec RapsOp.next? stationOne (failureRun 3)).map fun s =>
      decide (s.core.ctrl.tRapsSF = -2 * rapsTick)) = some true := by decide +kernel
  obtain ⟨s, hs, hprop⟩ := Option.map_eq_some_iff.mp hdone
  have hsf := of_decide_eq_true hprop
  have hrun : Run RapsStep stationOne (failureRun 3) s := rapsRun_iff_exec.mp hs
  refine ⟨s, hrun, hsf, fun halways => ?_⟩
  have hlow := (halways _ s List.prefix_rfl hrun).tRapsSF.1
  rw [hsf] at hlow
  exact absurd hlow (by decide)

end VmkDrivers.Wfs
