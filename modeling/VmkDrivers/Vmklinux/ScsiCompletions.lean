/-
  VmkDrivers.Vmklinux.ScsiCompletions

  The completion lists of a SCSI adapter and the worldlet that empties them
  (`linux_scsi.c`).

  `SCSILinuxScheduleCompletion` puts a command behind `isrDoneCmds` and activates
  the worldlet, but only if both lists had been empty.  While the worldlet
  processes `bhDoneCmds` without the lock, a list head on its stack stands in
  `isrDoneCmds`, so that it is not activated meanwhile.  When it is done it looks
  at the lists once more, without the lock, and tells the scheduler whether it is
  to run again.

  Commands are taken in the order in which they were scheduled, and as long as
  there are any, the worldlet runs or will run (`completions_safe`).

  What the worldlet counts for its affinity, and the reference that it takes of
  the host, are not part of the model.
-/

import VmkDrivers.Lib.Activities

namespace VmkDrivers.Vmklinux

open VmkDrivers.Lib

/-! ## The lists and the worldlet -/

/-- What stands in a completion list: a command, or the list head on the stack of the worldlet. -/
inductive DoneEntry where
  | scmd (n : Nat)
  | sentry
deriving DecidableEq, Repr

inductive WorldletState where
  | ready
  | suspend
deriving DecidableEq, Repr

/-- Where `SCSILinuxWorldletFn` has come to, with `now`, `yield` and `shouldYield`. -/
inductive WorldletPc where
  | start
  /-- The lock is taken for the first time. -/
  | lock (now yield : UInt64)
  /-- `SCSILinuxProcessCompletions` -/
  | process (now yield : UInt64)
  | shouldYield (now yield : UInt64)
  /-- The lock is taken again. -/
  | relock (now yield : UInt64) (shouldYield : Bool)
  /-- The last look at the lists. -/
  | workPending
  /-- It returns. -/
  | done (state : WorldletState)
deriving DecidableEq, Repr

/-- `scsiLinuxTLS_t`, what the scheduler knows of its worldlet, and what has happened. -/
structure TlsState where
  isrDoneCmds : List DoneEntry := []
  bhDoneCmds : List DoneEntry := []
  /-- The run of the worldlet. -/
  worldlet : Option WorldletPc := none
  /-- The last run has reported `VMK_WDT_READY`. -/
  ready : Bool := false
  /-- `vmk_WorldletActivate` has been called since the last run began. -/
  activated : Bool := false
  /-- The commands that have been put into `isrDoneCmds`, in this order. -/
  scheduled : List Nat := []
  /-- What `SCSILinuxProcessCompletions` has taken for a command, in this order. -/
  taken : List DoneEntry := []
deriving DecidableEq, Repr

/-- `SCSILinuxTLSWorkPending` -/
def TlsState.workPending (s : TlsState) : Prop :=
  s.isrDoneCmds ≠ [] ∨ s.bhDoneCmds ≠ []

instance (s : TlsState) : Decidable s.workPending := inferInstanceAs (Decidable (_ ∨ _))

/-- What `vmk_GetTimerCycles` and `vmk_WorldletShouldYield` answer. -/
structure WorldletAnswer where
  timer : UInt64 := 0
  shouldYield : Bool := false
deriving DecidableEq, Repr

def TlsState.loop (s : TlsState) (now yield : UInt64) (shouldYield : Bool) : TlsState :=
  if s.workPending ∧ shouldYield = false then
    { s with
      bhDoneCmds := s.bhDoneCmds ++ s.isrDoneCmds
      isrDoneCmds := [.sentry]
      worldlet := some (.process now yield) }
  else { s with worldlet := some .workPending }

/-- One step of `SCSILinuxWorldletFn`, or the beginning of a run. -/
def worldletStep (usToTC : UInt64 → UInt64) (s : TlsState) (b : WorldletAnswer) :
    Option TlsState :=
  match s.worldlet with
  | none =>
    if s.ready ∨ s.activated then
      some { s with worldlet := some .start, ready := false, activated := false }
    else none
  | some .start => some { s with worldlet := some (.lock 0 (b.timer + usToTC 300)) }
  | some (.lock now yield) => some (s.loop now yield false)
  | some (.process now yield) =>
    match s.bhDoneCmds with
    | [] => some { s with worldlet := some (.shouldYield now yield) }
    | e :: es =>
      -- the time is read again behind each command
      if now < yield then
        some { s with
          bhDoneCmds := es
          taken := s.taken ++ [e]
          worldlet := some (.process b.timer yield) }
      else some { s with worldlet := some (.shouldYield now yield) }
  | some (.shouldYield now yield) =>
    some { s with worldlet := some (.relock now yield b.shouldYield) }
  | some (.relock now yield shouldYield) =>
    let s := { s with isrDoneCmds := s.isrDoneCmds.erase .sentry }
    some (s.loop now (yield + usToTC 100) shouldYield)
  | some .workPending =>
    some { s with worldlet := some (.done (if s.workPending then .ready else .suspend)) }
  | some (.done state) => some { s with worldlet := none, ready := state = .ready }

/-- Where a call of `SCSILinuxScheduleCompletion` has come to. -/
inductive SchedulePc where
  | lock (n : Nat)
  /-- `vmk_WorldletActivate`, behind the lock. -/
  | activate
deriving DecidableEq, Repr

/-- One step of `SCSILinuxScheduleCompletion`.  A command is not scheduled while it stands in a
    list. -/
def SchedulePc.step (s : TlsState) : SchedulePc → Option (TlsState × List SchedulePc)
  | .lock n =>
    if .scmd n ∈ s.isrDoneCmds ∨ .scmd n ∈ s.bhDoneCmds then none
    else
      some ({ s with
        isrDoneCmds := s.isrDoneCmds ++ [.scmd n]
        scheduled := s.scheduled ++ [n] }, if s.workPending then [] else [.activate])
  | .activate => some ({ s with activated := true }, [])

inductive TlsEvent where
  | schedule (n : Nat)
  | worldlet (b : WorldletAnswer)
deriving DecidableEq, Repr

/-- The completions of one TLS object; `usToTC` is `vmk_TimerUSToTC`. -/
def tlsProgram (usToTC : UInt64 → UInt64) : Program TlsState SchedulePc TlsEvent Unit Empty where
  begin s
    | .schedule n => some (s, [.lock n])
    | .worldlet b => (worldletStep usToTC s b).map fun s => (s, [])
  move s p _ := (p.step s).map .ok

abbrev TlsPool := Except Empty (Pool TlsState SchedulePc)

abbrev TlsStep (usToTC : UInt64 → UInt64) :
    TlsPool → PoolEvent SchedulePc TlsEvent Unit → TlsPool → Prop :=
  (tlsProgram usToTC).Step

/-! ## What is promised -/

structure CompletionsSafe (s : TlsState) (ps : Multiset SchedulePc) : Prop where
  /-- What has been taken and what stands in the lists is what was scheduled, in this order. -/
  order : s.taken ++ s.bhDoneCmds ++ s.isrDoneCmds.filter (· ≠ .sentry) = s.scheduled.map .scmd
  sentry_taken : .sentry ∉ s.taken
  /-- The list head on the stack stands in no list when the run returns, nor later. -/
  sentry_returned : (∀ pc, s.worldlet = some pc → ∃ state, pc = .done state) →
    .sentry ∉ s.isrDoneCmds ∧ .sentry ∉ s.bhDoneCmds
  awake : ∀ n, .scmd n ∈ s.isrDoneCmds ∨ .scmd n ∈ s.bhDoneCmds →
    s.worldlet ≠ none ∨ s.ready = true ∨ s.activated = true ∨ .activate ∈ ps

/-! ## The invariant -/

/-- The list head that stands in `isrDoneCmds`, while the worldlet is without the lock. -/
def WorldletPc.sentries : WorldletPc → List DoneEntry
  | .process _ _ | .shouldYield _ _ | .relock _ _ _ => [.sentry]
  | _ => []

/-- The worldlet will look at the lists, or run again, without being activated. -/
def TlsState.looks (s : TlsState) : Prop :=
  match s.worldlet with
  | none => s.ready = true
  | some (.done state) => state = .ready
  | some _ => True

structure TlsInv (s : TlsState) (ps : Multiset SchedulePc) : Prop where
  lists : ∃ ns : List Nat,
    s.isrDoneCmds = s.worldlet.elim [] WorldletPc.sentries ++ ns.map .scmd ∧
      s.taken ++ s.bhDoneCmds ++ ns.map .scmd = s.scheduled.map .scmd
  awake : s.workPending → s.looks ∨ s.activated = true ∨ .activate ∈ ps

section Invariant

variable {usToTC : UInt64 → UInt64} {s t : TlsState} {p : SchedulePc}
  {ps : Multiset SchedulePc} {rest : Multiset SchedulePc}

theorem sentry_not_mem_scmds (ns : List Nat) : DoneEntry.sentry ∉ ns.map DoneEntry.scmd := by
  simp

theorem TlsInv.completionsSafe (h : TlsInv s ps) : CompletionsSafe s ps := by
  obtain ⟨ns, hisr, horder⟩ := h.lists
  have hcmds : (ns.map DoneEntry.scmd).filter (· ≠ .sentry) = ns.map .scmd := by
    apply List.filter_eq_self.mpr
    simp
  have hnone : .sentry ∉ s.taken ++ s.bhDoneCmds := by
    intro hmem
    apply sentry_not_mem_scmds s.scheduled
    rw [← horder]
    exact List.mem_append_left _ hmem
  rw [List.mem_append, not_or] at hnone
  refine ⟨?_, hnone.1, ?_, ?_⟩
  · rw [hisr, List.filter_append, hcmds]
    have hsentries : (s.worldlet.elim [] WorldletPc.sentries).filter (· ≠ .sentry) = [] := by
      cases s.worldlet with
      | none => rfl
      | some pc => cases pc <;> rfl
    rw [hsentries]
    exact horder
  · intro hreturned
    have hsentries : s.worldlet.elim [] WorldletPc.sentries = [] := by
      cases hpc : s.worldlet with
      | none => rfl
      | some pc =>
        obtain ⟨state, rfl⟩ := hreturned pc hpc
        rfl
    refine ⟨?_, hnone.2⟩
    rw [hisr, hsentries]
    exact sentry_not_mem_scmds ns
  · intro n hmem
    have hpending : s.workPending := by
      apply hmem.imp
      · exact List.ne_nil_of_mem
      · exact List.ne_nil_of_mem
    rcases h.awake hpending with hlooks | hactive
    · cases hpc : s.worldlet with
      | none =>
        rw [TlsState.looks, hpc] at hlooks
        exact .inr (.inl hlooks)
      | some pc => exact .inl nofun
    · exact .inr (.inr hactive)

theorem TlsInv.loop {ns : List Nat} (hisr : s.isrDoneCmds = ns.map .scmd)
    (horder : s.taken ++ s.bhDoneCmds ++ ns.map .scmd = s.scheduled.map .scmd)
    (now yield : UInt64) (shouldYield : Bool) : TlsInv (s.loop now yield shouldYield) ps := by
  rw [TlsState.loop]
  split
  · refine ⟨⟨[], rfl, ?_⟩, fun _ => .inl trivial⟩
    show s.taken ++ (s.bhDoneCmds ++ s.isrDoneCmds) ++ [] = _
    rw [List.append_nil, hisr, ← List.append_assoc]
    exact horder
  · exact ⟨⟨ns, hisr, horder⟩, fun _ => .inl trivial⟩

theorem TlsInv.worldlet {b : WorldletAnswer} (h : TlsInv s ps)
    (hstep : worldletStep usToTC s b = some t) : TlsInv t ps := by
  obtain ⟨ns, hisr, horder⟩ := h.lists
  have hawake := h.awake
  rw [worldletStep] at hstep
  cases hpc : s.worldlet with
  | none =>
    rw [hpc] at hisr
    simp only [hpc, Option.ite_none_right_eq_some, Option.some.injEq] at hstep
    obtain ⟨-, rfl⟩ := hstep
    exact ⟨⟨ns, hisr, horder⟩, fun _ => .inl trivial⟩
  | some pc =>
    rw [hpc] at hisr
    cases pc with
    | start =>
      simp only [hpc, Option.some.injEq] at hstep
      subst hstep
      exact ⟨⟨ns, hisr, horder⟩, fun _ => .inl trivial⟩
    | lock now yield =>
      simp only [hpc, Option.some.injEq] at hstep
      subst hstep
      exact TlsInv.loop hisr horder now yield false
    | process now yield =>
      simp only [hpc] at hstep
      split at hstep
      · obtain rfl := Option.some.inj hstep
        exact ⟨⟨ns, hisr, horder⟩, fun _ => .inl trivial⟩
      · next e es hbh =>
        split at hstep
        · obtain rfl := Option.some.inj hstep
          refine ⟨⟨ns, hisr, ?_⟩, fun _ => .inl trivial⟩
          -- the first command goes from one list to the end of the other
          show s.taken ++ [e] ++ es ++ _ = _
          rw [List.append_assoc s.taken, List.singleton_append, ← hbh]
          exact horder
        · obtain rfl := Option.some.inj hstep
          exact ⟨⟨ns, hisr, horder⟩, fun _ => .inl trivial⟩
    | shouldYield now yield =>
      simp only [hpc, Option.some.injEq] at hstep
      subst hstep
      exact ⟨⟨ns, hisr, horder⟩, fun _ => .inl trivial⟩
    | relock now yield shouldYield =>
      simp only [hpc, Option.some.injEq] at hstep
      subst hstep
      apply TlsInv.loop
      · show s.isrDoneCmds.erase .sentry = ns.map .scmd
        rw [hisr]
        show (DoneEntry.sentry :: ns.map .scmd).erase .sentry = _
        rw [List.erase_cons_head]
      · exact horder
    | workPending =>
      simp only [hpc, Option.some.injEq] at hstep
      subst hstep
      refine ⟨⟨ns, hisr, horder⟩, fun hpending => .inl ?_⟩
      -- both lists are what they were when it looked
      have hbefore : s.workPending := hpending
      show (if s.workPending then WorldletState.ready else .suspend) = .ready
      rw [if_pos hbefore]
    | done state =>
      simp only [hpc, Option.some.injEq] at hstep
      subst hstep
      refine ⟨⟨ns, hisr, horder⟩, fun hpending => ?_⟩
      have hbefore := hawake hpending
      simp only [TlsState.looks, hpc] at hbefore
      apply hbefore.imp_left
      intro hready
      exact decide_eq_true hready

theorem TlsInv.schedule {qs : List SchedulePc} (h : TlsInv s (p ::ₘ rest))
    (hstep : p.step s = some (t, qs)) : TlsInv t (qs + rest) := by
  obtain ⟨ns, hisr, horder⟩ := h.lists
  have hawake := h.awake
  cases p with
  | lock n =>
    simp only [SchedulePc.step, Option.ite_none_left_eq_some, Option.some.injEq,
      Prod.mk.injEq] at hstep
    obtain ⟨-, rfl, rfl⟩ := hstep
    refine ⟨⟨ns ++ [n], ?_, ?_⟩, fun _ => ?_⟩
    · show s.isrDoneCmds ++ [.scmd n] = _
      rw [hisr, List.map_append, List.append_assoc]
      rfl
    · show _ = (s.scheduled ++ [n]).map DoneEntry.scmd
      rw [List.map_append, List.map_append, ← horder, ← List.append_assoc]
    · -- either something was there already, or this call activates the worldlet
      by_cases hpending : s.workPending
      · rw [if_pos hpending, Multiset.coe_nil, zero_add]
        apply (hawake hpending).imp_right
        intro hactive
        apply hactive.imp_right
        intro hmem
        rw [Multiset.mem_cons] at hmem
        exact hmem.resolve_left nofun
      · rw [if_neg hpending]
        right
        right
        apply Multiset.mem_add.mpr
        left
        exact List.mem_singleton_self _
  | activate =>
    cases hstep
    exact ⟨⟨ns, hisr, horder⟩, fun _ => .inr (.inl rfl)⟩

end Invariant

/-! ## Every run -/

/-- **Completions.** After any run of calls that schedule commands and of the worldlet, commands
    have been taken in order, the list head on the stack never, and no command is left behind. -/
theorem completions_safe {usToTC : UInt64 → UInt64}
    {es : List (PoolEvent SchedulePc TlsEvent Unit)} {s : Pool TlsState SchedulePc}
    (hrun : Run (TlsStep usToTC) (.ok ⟨{}, 0⟩) es (.ok s)) :
    CompletionsSafe s.shared s.active := by
  have hinit : Program.Holds TlsInv (.ok ⟨{}, 0⟩ : TlsPool) := by
    refine ⟨⟨[], rfl, rfl⟩, ?_⟩
    rintro (hisr | hbh)
    · exact absurd rfl hisr
    · exact absurd rfl hbh
  have hinv : Program.Holds TlsInv (.ok s : TlsPool) := by
    apply Program.keeps_run _ _ hinit hrun
    · intro s a e t ps h hbegin
      cases e with
      | schedule n =>
        cases hbegin
        refine ⟨h.lists, fun hpending => ?_⟩
        apply (h.awake hpending).imp_right
        intro hactive
        apply hactive.imp_right
        intro hmem
        exact Multiset.mem_add.mpr (.inr hmem)
      | worldlet b =>
        obtain ⟨u, hstep, hu⟩ := Option.map_eq_some_iff.mp hbegin
        cases hu
        rw [Multiset.coe_nil, zero_add]
        exact h.worldlet hstep
    · intro s p rest b o h hmove
      obtain ⟨⟨t, ps⟩, hstep, rfl⟩ := Option.map_eq_some_iff.mp hmove
      exact ⟨t, ps, rfl, h.schedule hstep⟩
  exact hinv.completionsSafe

/-- Three commands: the second one comes while the worldlet processes the first, and the third when
    it has looked at the lists for the last time. -/
def lateRun : List (PoolEvent SchedulePc TlsEvent Unit) :=
  [.begin (.schedule 7), .move (.lock 7) (), .begin (.schedule 8), .move .activate (),
    .begin (.worldlet {}), .begin (.worldlet {}), .begin (.worldlet {}),
    .begin (.worldlet { timer := 1000 }), .move (.lock 8) (),
    .begin (.worldlet { timer := 1000 }), .begin (.worldlet {}), .begin (.worldlet {}),
    .begin (.worldlet { timer := 2000 }), .begin (.worldlet {}), .begin (.worldlet {}),
    .begin (.worldlet {}), .begin (.worldlet {}), .begin (.schedule 9), .move (.lock 9) (),
    .begin (.worldlet {})]

/-- The third command waits for the call that scheduled it. -/
theorem completions_safe_lateRun :
    CompletionsSafe
      { isrDoneCmds := [.scmd 9], scheduled := [7, 8, 9], taken := [.scmd 7, .scmd 8] }
      {.activate} := by
  have hrun : Run (TlsStep (· * 1000)) (.ok ⟨{}, 0⟩) lateRun
      (.ok ⟨{ isrDoneCmds := [.scmd 9], scheduled := [7, 8, 9], taken := [.scmd 7, .scmd 8] },
        {.activate}⟩) :=
    Run.of_exec (f := (tlsProgram (· * 1000)).next?) (fun _ _ _ h => h) rfl
  exact completions_safe hrun

end VmkDrivers.Vmklinux
