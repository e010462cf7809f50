/-
  VmkDrivers.Vmklinux.ScsiReset

  No command is handed to the driver while it resets (`SCSILinuxTaskMgmt` of
  `linux_scsi_vmk_if.c`).

  A reset counts itself in `tmfFlag`, and the last one to leave takes the host out
  of `SHOST_RECOVERY`, in a step of its own.  A reset that begins in between has
  its recovery taken away (`recovery_lost`).  If that does not happen, the host is
  in recovery as long as the driver resets, and else runs (`resets_safe_iff`).
-/

import VmkDrivers.Lib.Activities
import VmkDrivers.Vmklinux.Scsi

namespace VmkDrivers.Vmklinux

open VmkDrivers.Lib

structure HostFlags where
  shostState : ShostState := .running
  tmfFlag : Int := 0
deriving DecidableEq, Repr

/-- Where a reset of `SCSILinuxTaskMgmt` has come to. -/
inductive TmfPc where
  /-- `atomic_inc(&tmfFlag)` comes next. -/
  | inc
  | setRecovery
  | resetCommand
  /-- `atomic_dec_and_test(&tmfFlag)` comes next. -/
  | dec
  | setRunning
deriving DecidableEq, Repr

def TmfPc.step (h : HostFlags) : TmfPc → HostFlags × Option TmfPc
  | .inc => ({ h with tmfFlag := h.tmfFlag + 1 }, some .setRecovery)
  | .setRecovery => ({ h with shostState := .recovery }, some .resetCommand)
  | .resetCommand => (h, some .dec)
  | .dec =>
    ({ h with tmfFlag := h.tmfFlag - 1 }, if h.tmfFlag - 1 = 0 then some .setRunning else none)
  | .setRunning => ({ h with shostState := .running }, none)

inductive HostActivity where
  | reset (pc : TmfPc)
  | queue (pc : QueuePc)
deriving DecidableEq, Repr

inductive HostEvent where
  | taskMgmt
  | queueCommand (req : QueueRequest)
deriving DecidableEq, Repr

def hostProgram : Program HostFlags HostActivity HostEvent QueueView Empty where
  begin h
    | .taskMgmt => some (h, [.reset .inc])
    | .queueCommand req => some (h, [.queue (.getCommand req)])
  move h p v :=
    match p with
    | .reset pc => some (.ok ((pc.step h).1, (pc.step h).2.toList.map .reset))
    | .queue pc =>
      match pc.step h.shostState v with
      | .inl pc => some (.ok (h, [.queue pc]))
      | .inr _ => some (.ok (h, []))

abbrev HostPool := Except Empty (Pool HostFlags HostActivity)

abbrev HostStep : HostPool → PoolEvent HostActivity HostEvent QueueView → HostPool → Prop :=
  hostProgram.Step

/-! ## What is promised -/

/-- While the driver resets the host is in recovery, and a command that comes to the lock is refused
    whatever it finds; and when there are no resets the host runs. -/
structure ResetSafe (h : HostFlags) (ps : Multiset HostActivity) : Prop where
  recovery : .reset .resetCommand ∈ ps → h.shostState = .recovery
  refused : .reset .resetCommand ∈ ps →
    ∀ v, QueuePc.locked.step h.shostState v = .inr .wouldBlock
  restored : (∀ pc, .reset pc ∉ ps) → h.shostState = .running

def KeepsRecovery : HostPool → PoolEvent HostActivity HostEvent QueueView → Prop
  | .ok s, .move (.reset .setRunning) _ => .reset .resetCommand ∉ s.active
  | _, _ => True

instance (s : HostPool) (e : PoolEvent HostActivity HostEvent QueueView) :
    Decidable (KeepsRecovery s e) := by
  unfold KeepsRecovery
  split <;> infer_instance

/-! ## The invariant -/

def HostActivity.tmf : HostActivity → Int
  | .reset .setRecovery | .reset .resetCommand | .reset .dec => 1
  | _ => 0

def HostActivity.began : HostActivity → Bool
  | .reset .inc => false
  | .reset _ => true
  | _ => false

open HostActivity

structure ResetInv (h : HostFlags) (ps : Multiset HostActivity) : Prop where
  counted : h.tmfFlag = total tmf ps
  state : h.shostState = .recovery ∨ h.shostState = .running
  recovery : .reset .resetCommand ∈ ps → h.shostState = .recovery
  began : h.shostState = .recovery → ∃ p ∈ ps, p.began = true

section Steps

variable {h : HostFlags} {ps rest : Multiset HostActivity} {p : HostActivity}

theorem ResetInv.resetSafe (hinv : ResetInv h ps) : ResetSafe h ps where
  recovery := hinv.recovery
  refused hreset v := by
    rw [hinv.recovery hreset]
    show Sum.inr (queueLocked .recovery v) = _
    rw [queueLocked_recovery]
  restored hnone := by
    rcases hinv.state with hrecovery | hrunning
    · obtain ⟨p, hp, hbegan⟩ := hinv.began hrecovery
      cases p with
      | reset pc => exact absurd hp (hnone pc)
      | queue pc => cases hbegan
    · exact hrunning

theorem tmf_nonneg (ps : Multiset HostActivity) : 0 ≤ total tmf ps := by
  apply Multiset.sum_nonneg
  intro n hn
  obtain ⟨p, -, rfl⟩ := Multiset.mem_map.mp hn
  unfold tmf
  split <;> decide

theorem exists_tmf (hpos : 0 < total tmf ps) : ∃ p ∈ ps, p.tmf ≠ 0 := by
  by_contra hnone
  have hzero : total tmf ps = 0 := by
    apply total_eq_zero
    intro p hp
    by_contra hne
    exact hnone ⟨p, hp, hne⟩
  omega

theorem began_of_tmf (htmf : p.tmf ≠ 0) : p.began = true := by
  cases p with
  | reset pc => cases pc <;> first | rfl | exact absurd rfl htmf
  | queue pc => exact absurd rfl htmf

theorem ResetInv.begin (hinv : ResetInv h ps) (hp : p.tmf = 0) (hne : p ≠ .reset .resetCommand) :
    ResetInv h (p ::ₘ ps) := by
  obtain ⟨hcounted, hstate, hrecovery, hbegan⟩ := hinv
  refine ⟨?_, hstate, ?_, ?_⟩
  · rw [total_cons, hp, hcounted, zero_add]
  · intro hreset
    rcases Multiset.mem_cons.mp hreset with heq | hreset
    · exact absurd heq.symm hne
    · exact hrecovery hreset
  · intro hrec
    obtain ⟨q, hq, hqbegan⟩ := hbegan hrec
    exact ⟨q, Multiset.mem_cons_of_mem hq, hqbegan⟩

theorem ResetInv.queue {pc : QueuePc} (hinv : ResetInv h (.queue pc ::ₘ rest))
    (next : Option QueuePc) :
    ResetInv h (↑(next.toList.map HostActivity.queue) + rest) := by
  have hrest : ResetInv h rest := by
    obtain ⟨hcounted, hstate, hrecovery, hbegan⟩ := hinv
    rw [total_cons] at hcounted
    refine ⟨?_, hstate, ?_, ?_⟩
    · rw [hcounted]
      exact zero_add _
    · intro hreset
      exact hrecovery (Multiset.mem_cons_of_mem hreset)
    · intro hrec
      obtain ⟨q, hq, hqbegan⟩ := hbegan hrec
      rcases Multiset.mem_cons.mp hq with rfl | hq
      · cases hqbegan
      · exact ⟨q, hq, hqbegan⟩
  cases next with
  | none => simpa using hrest
  | some pc => simpa using hrest.begin (p := .queue pc) rfl nofun

theorem ResetInv.reset {pc : TmfPc} (hinv : ResetInv h (.reset pc ::ₘ rest))
    (hguard : pc = .setRunning → .reset .resetCommand ∉ rest) :
    ResetInv (pc.step h).1 (↑((pc.step h).2.toList.map HostActivity.reset) + rest) := by
  obtain ⟨hcounted, hstate, hrecovery, hbegan⟩ := hinv
  rw [total_cons] at hcounted
  have hrest : .reset .resetCommand ∈ rest → h.shostState = .recovery := fun hreset =>
    hrecovery (Multiset.mem_cons_of_mem hreset)
  cases pc with
  | inc =>
    have hcounted : h.tmfFlag = 0 + total tmf rest := hcounted
    show ResetInv _ (↑[HostActivity.reset .setRecovery] + rest)
    rw [Multiset.coe_singleton, Multiset.singleton_add]
    refine ⟨?_, hstate, ?_, ?_⟩
    · show h.tmfFlag + 1 = _
      rw [total_cons, hcounted]
      show 0 + _ + 1 = 1 + _
      omega
    · intro hreset
      apply hrest
      simpa using hreset
    · intro _
      exact ⟨_, Multiset.mem_cons_self _ _, rfl⟩
  | setRecovery =>
    show ResetInv _ (↑[HostActivity.reset .resetCommand] + rest)
    rw [Multiset.coe_singleton, Multiset.singleton_add]
    refine ⟨?_, .inl rfl, fun _ => rfl, ?_⟩
    · rw [total_cons]
      exact hcounted
    · intro _
      exact ⟨_, Multiset.mem_cons_self _ _, rfl⟩
  | resetCommand =>
    show ResetInv _ (↑[HostActivity.reset .dec] + rest)
    rw [Multiset.coe_singleton, Multiset.singleton_add]
    refine ⟨?_, hstate, ?_, ?_⟩
    · rw [total_cons]
      exact hcounted
    · intro hreset
      apply hrest
      simpa using hreset
    · intro _
      exact ⟨_, Multiset.mem_cons_self _ _, rfl⟩
  | dec =>
    have hcounted : h.tmfFlag = 1 + total tmf rest := hcounted
    by_cases hlast : h.tmfFlag - 1 = 0
    · have hnext : (TmfPc.dec.step h).2.toList.map HostActivity.reset = [.reset .setRunning] := by
        rw [TmfPc.step, if_pos hlast]
        rfl
      rw [hnext, Multiset.coe_singleton, Multiset.singleton_add]
      refine ⟨?_, hstate, ?_, ?_⟩
      · show h.tmfFlag - 1 = _
        rw [total_cons]
        show h.tmfFlag - 1 = 0 + _
        omega
      · intro hreset
        apply hrest
        simpa using hreset
      · intro _
        exact ⟨_, Multiset.mem_cons_self _ _, rfl⟩
    · have hnext : (TmfPc.dec.step h).2.toList.map HostActivity.reset = [] := by
        rw [TmfPc.step, if_neg hlast]
        rfl
      rw [hnext, Multiset.coe_nil, zero_add]
      refine ⟨?_, hstate, hrest, ?_⟩
      · show h.tmfFlag - 1 = _
        omega
      · intro _
        -- the flag counts another reset
        have hnonneg := tmf_nonneg rest
        have hpos : 0 < total tmf rest := by omega
        obtain ⟨q, hq, hqtmf⟩ := exists_tmf hpos
        exact ⟨q, hq, began_of_tmf hqtmf⟩
  | setRunning =>
    show ResetInv _ (↑([] : List HostActivity) + rest)
    rw [Multiset.coe_nil, zero_add]
    refine ⟨hcounted.trans (zero_add _), .inr rfl, ?_, nofun⟩
    · intro hreset
      exact absurd hreset (hguard rfl)

end Steps

/-! ## Every run -/

theorem resetStep_spec {s t : HostPool} {e : PoolEvent HostActivity HostEvent QueueView}
    (h : Program.Holds ResetInv s) (hstep : HostStep s e t) :
    (KeepsRecovery s e → Program.Holds ResetInv t) ∧
      (Program.Holds ResetSafe t → KeepsRecovery s e) := by
  rcases Program.step_cases hstep with ⟨s, ev, u, ps, rfl, rfl, hbegin, rfl⟩ |
    ⟨s, p, v, rest, o, rfl, rfl, hmove, rfl⟩
  · refine ⟨fun _ => ?_, fun _ => trivial⟩
    have hinv : ResetInv s.shared s.active := h
    cases ev with
    | taskMgmt =>
      cases hbegin
      exact hinv.begin rfl nofun
    | queueCommand req =>
      cases hbegin
      exact hinv.begin rfl nofun
  · have hinv : ResetInv s (p ::ₘ rest) := h
    cases p with
    | queue pc =>
      refine ⟨fun _ => ?_, fun _ => trivial⟩
      simp only [hostProgram] at hmove
      split at hmove
      · next pc' _ =>
        cases hmove
        exact hinv.queue (some pc')
      · cases hmove
        exact hinv.queue none
    | reset pc =>
      cases hmove
      constructor
      · intro hguard
        apply hinv.reset
        rintro rfl hreset
        exact hguard (Multiset.mem_cons_of_mem hreset)
      · intro hsafe
        cases pc with
        | setRunning =>
          intro hreset
          have hrest : .reset .resetCommand ∈ rest := by simpa using hreset
          have hrunning : ResetSafe { s with shostState := .running }
            (↑([] : List HostActivity) + rest) := hsafe
          have hrecovery := hrunning.recovery (by simpa using hrest)
          cases hrecovery
        | _ => trivial

/-- **Resets.** Along a run of resets and commands of a host that runs at first, what is promised
    holds just if the host is never taken out of recovery while the driver resets. -/
theorem resets_safe_iff {s : HostPool} {es : List (PoolEvent HostActivity HostEvent QueueView)}
    (hrun : Run HostStep (.ok ⟨{}, 0⟩) es s) :
    Always HostStep (Program.Holds ResetSafe) (.ok ⟨{}, 0⟩) es ↔
      Run (Guarded HostStep KeepsRecovery) (.ok ⟨{}, 0⟩) es s := by
  have hinit : ResetInv {} 0 := ⟨rfl, .inr rfl, nofun, nofun⟩
  apply always_iff_guarded (I := Program.Holds ResetInv) _ _ _ hrun hinit
  · intro s e t t' ht ht'
    exact ht.unique ht'
  · intro s hinv
    cases s with
    | error fault => exact hinv
    | ok s => exact ResetInv.resetSafe hinv
  · intro s e t hinv hstep
    exact resetStep_spec hinv hstep

def overlapRun : List (PoolEvent HostActivity HostEvent QueueView) :=
  [.begin .taskMgmt, .move (.reset .inc) {}, .begin .taskMgmt, .move (.reset .inc) {},
    .begin (.queueCommand {}), .move (.queue (.getCommand {})) {}, .move (.reset .setRecovery) {},
    .move (.queue .locked) {}, .move (.reset .resetCommand) {}, .move (.reset .setRecovery) {},
    .move (.reset .dec) {}, .move (.reset .resetCommand) {}, .move (.reset .dec) {},
    .move (.reset .setRunning) {}]

theorem resets_safe_overlapRun :
    Always HostStep (Program.Holds ResetSafe) (.ok ⟨{}, 0⟩) overlapRun := by
  have hexec : ∃ s, Run.exec
      (fun s e => if KeepsRecovery s e then hostProgram.next? s e else none)
      (.ok ⟨{}, 0⟩) overlapRun = some s := ⟨_, rfl⟩
  obtain ⟨s, hs⟩ := hexec
  have hsound : ∀ s e t, (if KeepsRecovery s e then hostProgram.next? s e else none) = some t →
      Guarded HostStep KeepsRecovery s e t := by
    intro s e t h
    exact (guarded_eq_some_iff (T := HostStep) (fun _ _ _ => Iff.rfl) s e t).mp h
  have hguarded := Run.of_exec hsound hs
  exact (resets_safe_iff (hguarded.mono fun _ _ _ h => h.2)).mpr hguarded

/-- A reset has found itself to be the last one, a second one begins and is in the driver, and the
    first sets the host running: a command goes to the driver. -/
theorem recovery_lost :
    ∃ s, Run HostStep (.ok ⟨{}, 0⟩)
        [.begin .taskMgmt, .move (.reset .inc) {}, .move (.reset .setRecovery) {},
          .move (.reset .resetCommand) {}, .move (.reset .dec) {}, .begin .taskMgmt,
          .move (.reset .inc) {}, .move (.reset .setRecovery) {}, .move (.reset .setRunning) {},
          .begin (.queueCommand {}), .move (.queue (.getCommand {})) {}] (.ok s) ∧
      .reset .resetCommand ∈ s.active ∧ .queue .locked ∈ s.active ∧
      QueuePc.locked.step s.shared.shostState {} = .inr .issue ∧ ¬ResetSafe s.shared s.active := by
  refine ⟨⟨⟨.running, 1⟩, {.queue .locked, .reset .resetCommand}⟩,
    Run.of_exec (f := hostProgram.next?) (fun _ _ _ h => h) rfl, by decide, by decide, rfl, ?_⟩
  intro hsafe
  have hrecovery := hsafe.recovery (by decide)
  cases hrecovery

end VmkDrivers.Vmklinux
