/-
  VmkDrivers.Vmklinux.ScsiBusy

  The counts of active commands of a SCSI host and of its devices, `host_busy` and
  `device_busy` (`linux_scsi.c`, `linux_scsi_vmk_if.c`, `linux_scsi_lld_if.c`).

  `SCSILinuxQueueCommand`, `scsi_execute` and `SCSILinuxDumpCommand` count a command
  before the driver has it.  What the first one has counted is always completed, also
  if the driver refuses it, and `scsi_execute` takes back its own.  A dump command that
  the driver refuses stays counted.  The dump commands share one `struct scsi_cmnd`, by
  which a completion finds its device, and their test of the limits is one for
  equality.

  A state is one with the lock of the host free: `queuecommand` of the driver is called
  with the lock, and takes part in the step.  The dropping of commands in debug builds
  is not part of the model.
-/

import VmkDrivers.Lib.Activities
import VmkDrivers.Vmklinux.Scsi

namespace VmkDrivers.Vmklinux

open VmkDrivers.Lib

/-! ## Counts and calls -/

structure BusyState where
  hostBusy : Int := 0
  canQueue : Int
  deviceBusy : Nat → Int := fun _ => 0
  queueDepth : Nat → Nat
  /-- `dump_scmd.device` -/
  dumpDevice : Nat := 0
  /-- A command has been counted for the driver with a limit reached. -/
  overrun : Bool := false

namespace BusyState

def count (s : BusyState) (d : Nat) : BusyState :=
  { s with
    hostBusy := s.hostBusy + 1
    deviceBusy := Function.update s.deviceBusy d (s.deviceBusy d + 1) }

def uncount (s : BusyState) (d : Nat) : BusyState :=
  { s with
    hostBusy := s.hostBusy - 1
    deviceBusy := Function.update s.deviceBusy d (s.deviceBusy d - 1) }

def hasRoom (s : BusyState) (d : Nat) : Prop :=
  s.hostBusy < s.canQueue ∧ s.deviceBusy d < s.queueDepth d

instance (s : BusyState) (d : Nat) : Decidable (s.hasRoom d) := inferInstanceAs (Decidable (_ ∧ _))

def countForDriver (s : BusyState) (d : Nat) : BusyState :=
  { s.count d with overrun := s.overrun || !decide (s.hasRoom d) }

end BusyState

inductive BusyActivity where
  /-- `SCSILinuxQueueCommand` -/
  | queue (d : Nat) (pc : QueuePc)
  /-- The driver has the command. -/
  | driver (d : Nat)
  /-- `SCSILinuxCmdDone` has been called, and `SCSILinuxProcessCompletions` will find it. -/
  | cmdDone (d : Nat)
  | execute (d : Nat)
  /-- It waits for the completion. -/
  | executing (d : Nat)
  | freeInternalCommand (d : Nat)
  /-- `SCSILinuxDumpCommand` -/
  | dump (d : Nat)
  /-- It has filled in `dump_scmd`. -/
  | dumpTest (d : Nat)
  /-- The driver is called next. -/
  | dumpQueue (d : Nat)
  | dumpDriver (d : Nat)
  /-- `scsi_adjust_queue_depth` -/
  | adjust (d : Nat) (tags : Int)
  | setDepth (d : Nat) (tags : Nat)
deriving DecidableEq, Repr

inductive BusyEvent where
  | queueCommand (d : Nat) (req : QueueRequest)
  | execute (d : Nat)
  | dumpCommand (d : Nat)
  | adjustQueueDepth (d : Nat) (tags : Int)
deriving DecidableEq, Repr

structure BusyAnswer where
  shostState : ShostState := .running
  hostSelfBlocked : Bool := false
  sdevState : SdevState := .running
  /-- `queuecommand` returns 0. -/
  accepts : Bool := true
  /-- There is memory, and the work can be queued. -/
  memory : Bool := true
deriving DecidableEq, Repr

/-- What `SCSILinuxQueueCommand` sees of the counts. -/
def BusyState.view (s : BusyState) (d : Nat) (b : BusyAnswer) : QueueView where
  hostSelfBlocked := b.hostSelfBlocked
  hostBusy := s.hostBusy
  canQueue := s.canQueue
  sdevState := b.sdevState
  deviceBusy := s.deviceBusy d
  queueDepth := s.queueDepth d

/-- The test of `SCSILinuxDumpCommand`. -/
def BusyState.dumpBlocked (s : BusyState) (d : Nat) (b : BusyAnswer) : Prop :=
  b.hostSelfBlocked = true ∨ s.deviceBusy d = s.queueDepth d ∨ s.hostBusy = s.canQueue

instance (s : BusyState) (d : Nat) (b : BusyAnswer) : Decidable (s.dumpBlocked d b) :=
  inferInstanceAs (Decidable (_ ∨ _))

def BusyState.decide (s : BusyState) (d : Nat) (b : BusyAnswer) :
    QueueVerdict → BusyState × List BusyActivity
  | .noMemory | .wouldBlock | .gone => (s, [])
  | .complete => (s.count d, [.cmdDone d])
  | .issue =>
    -- what the driver refuses is completed with `SAM_STAT_BUSY`
    (s.countForDriver d, if b.accepts then [.driver d] else [.cmdDone d])

def BusyActivity.step (s : BusyState) (b : BusyAnswer) :
    BusyActivity → BusyState × List BusyActivity
  | .queue d pc =>
    match pc.step b.shostState (s.view d b) with
    | .inl pc => (s, [.queue d pc])
    | .inr verdict => s.decide d b verdict
  | .driver d => (s, [.cmdDone d])
  | .cmdDone d => (s.uncount d, [])
  | .execute d =>
    if b.memory then
      (s.count d, if b.accepts then [.executing d] else [.freeInternalCommand d])
    else (s, [])
  | .executing d => (s, [.freeInternalCommand d])
  | .freeInternalCommand d => (s.uncount d, [])
  | .dump d => ({ s with dumpDevice := d }, [.dumpTest d])
  | .dumpTest d =>
    if s.dumpBlocked d b then (s, []) else (s.countForDriver d, [.dumpQueue d])
  | .dumpQueue d => (s, if b.accepts then [.dumpDriver d] else [])
  | .dumpDriver _ => (s.uncount s.dumpDevice, [])
  | .adjust d tags =>
    if tags < 0 then ({ s with queueDepth := Function.update s.queueDepth d 1 }, [])
    else if tags = s.queueDepth d then (s, [])
    else if b.memory then (s, [.setDepth d tags.toNat])
    else (s, [])
  | .setDepth d tags =>
    -- `queue_depth` is an `unsigned short`
    ({ s with queueDepth := Function.update s.queueDepth d (tags % 2 ^ 16) }, [])

def busyProgram : Program BusyState BusyActivity BusyEvent BusyAnswer Empty where
  begin s
    | .queueCommand d req => some (s, [.queue d (.getCommand req)])
    | .execute d => some (s, [.execute d])
    | .dumpCommand d => some (s, [.dump d])
    | .adjustQueueDepth d tags => some (s, [.adjust d tags])
  move s p b := some (.ok (p.step s b))

abbrev BusyPool := Except Empty (Pool BusyState BusyActivity)

abbrev BusyStep : BusyPool → PoolEvent BusyActivity BusyEvent BusyAnswer → BusyPool → Prop :=
  busyProgram.Step

/-! ## What is promised -/

def BusyActivity.outstanding : BusyActivity → Option Nat
  | .driver d | .cmdDone d | .executing d | .freeInternalCommand d | .dumpQueue d | .dumpDriver d =>
    some d
  | _ => none

def BusyActivity.onHost (p : BusyActivity) : Int := if p.outstanding.isSome then 1 else 0

def BusyActivity.onDevice (d : Nat) (p : BusyActivity) : Int :=
  if p.outstanding = some d then 1 else 0

open BusyActivity

structure BusySafe (s : BusyState) (ps : Multiset BusyActivity) : Prop where
  host : s.hostBusy = total onHost ps
  device : ∀ d, s.deviceBusy d = total (onDevice d) ps
  /-- Whatever went to the driver had been counted with room left on the host and on the device. -/
  respected : s.overrun = false

/-- No dump command is refused, finds a limit exceeded and passes its test, or is completed when
    another one has filled in `dump_scmd` for another device. -/
def KeepsBusy : BusyPool → PoolEvent BusyActivity BusyEvent BusyAnswer → Prop
  | .ok s, .move (.dumpTest d) b => ¬s.shared.dumpBlocked d b → s.shared.hasRoom d
  | .ok _, .move (.dumpQueue _) b => b.accepts = true
  | .ok s, .move (.dumpDriver d) _ => s.shared.dumpDevice = d
  | _, _ => True

instance (s : BusyPool) (e : PoolEvent BusyActivity BusyEvent BusyAnswer) :
    Decidable (KeepsBusy s e) := by
  unfold KeepsBusy
  split <;> infer_instance

/-! ## Every step -/

section Steps

variable {s s' : BusyState} {p : BusyActivity} {ps : List BusyActivity}
  {rest : Multiset BusyActivity} {b : BusyAnswer} {d : Nat}

theorem sum_onHost (ps : List BusyActivity) :
    (ps.map onHost).sum = (ps.filterMap outstanding).length := by
  induction ps with
  | nil => rfl
  | cons p ps ih =>
    rw [List.map_cons, List.sum_cons, ih, onHost]
    cases hout : p.outstanding with
    | none => simp [hout]
    | some d =>
      simp only [List.filterMap_cons, hout, Option.isSome_some, if_true, List.length_cons]
      omega

theorem sum_onDevice (d : Nat) (ps : List BusyActivity) :
    (ps.map (onDevice d)).sum =
      (ps.filterMap outstanding).count d := by
  induction ps with
  | nil => rfl
  | cons p ps ih =>
    rw [List.map_cons, List.sum_cons, ih, onDevice]
    cases hout : p.outstanding with
    | none => simp [hout]
    | some e =>
      by_cases he : e = d
      · simp only [List.filterMap_cons, hout, he, if_true, List.count_cons_self]
        omega
      · simp [hout, he]

theorem BusySafe.step (h : BusySafe s (p ::ₘ rest))
    (hhost : s'.hostBusy + ([p].filterMap outstanding).length =
      s.hostBusy + (ps.filterMap outstanding).length)
    (hdevice : ∀ d, s'.deviceBusy d + ([p].filterMap outstanding).count d =
      s.deviceBusy d + (ps.filterMap outstanding).count d)
    (hrespected : s'.overrun = false) : BusySafe s' (ps + rest) := by
  have hone : p ::ₘ rest = ([p] : List BusyActivity) + rest := by
    rw [Multiset.coe_singleton, Multiset.singleton_add]
  refine ⟨?_, ?_, hrespected⟩
  · have hbefore := h.host
    rw [hone, total_add, total_coe, sum_onHost] at hbefore
    rw [total_add, total_coe, sum_onHost]
    omega
  · intro d
    have hbefore := h.device d
    have hstep := hdevice d
    rw [hone, total_add, total_coe, sum_onDevice] at hbefore
    rw [total_add, total_coe, sum_onDevice]
    omega

theorem BusySafe.same (h : BusySafe s (p ::ₘ rest))
    (hout : ps.filterMap outstanding = [p].filterMap outstanding)
    (hhost : s'.hostBusy = s.hostBusy) (hdevice : s'.deviceBusy = s.deviceBusy)
    (hoverrun : s'.overrun = s.overrun) : BusySafe s' (ps + rest) := by
  apply h.step
  · rw [hhost, hout]
  · intro d
    rw [hdevice, hout]
  · rw [hoverrun]
    exact h.respected

theorem BusySafe.counted (h : BusySafe s (p ::ₘ rest)) (hbefore : [p].filterMap outstanding = [])
    (hout : ps.filterMap outstanding = [d])
    (hhost : s'.hostBusy = (s.count d).hostBusy)
    (hdevice : s'.deviceBusy = (s.count d).deviceBusy)
    (hrespected : s'.overrun = false) : BusySafe s' (ps + rest) := by
  apply h.step
  · rw [hhost, hout, hbefore]
    show s.hostBusy + 1 + 0 = s.hostBusy + 1
    omega
  · intro e
    rw [hdevice, hout, hbefore]
    show Function.update s.deviceBusy d (s.deviceBusy d + 1) e + 0 = _
    by_cases he : e = d
    · rw [he, Function.update_self, List.count_singleton_self]
      omega
    · rw [Function.update_of_ne he, List.count_singleton, if_neg (by simpa using Ne.symm he)]
      omega
  · exact hrespected

theorem BusySafe.uncounted (h : BusySafe s (p ::ₘ rest)) (hbefore : [p].filterMap outstanding = [d])
    (hout : ps.filterMap outstanding = []) :
    BusySafe (s.uncount d) (ps + rest) := by
  apply h.step
  · rw [hout, hbefore]
    show s.hostBusy - 1 + 1 = s.hostBusy + 0
    omega
  · intro e
    rw [hout, hbefore]
    show Function.update s.deviceBusy d (s.deviceBusy d - 1) e + _ = s.deviceBusy e + 0
    by_cases he : e = d
    · rw [he, Function.update_self, List.count_singleton_self]
      omega
    · rw [Function.update_of_ne he, List.count_singleton, if_neg (by simpa using Ne.symm he)]
      omega
  · exact h.respected

theorem countForDriver_respected (hrespected : s.overrun = false) (hroom : s.hasRoom d) :
    (s.countForDriver d).overrun = false := by
  show (s.overrun || !decide (s.hasRoom d)) = false
  rw [hrespected, decide_eq_true hroom]
  rfl

theorem hasRoom_of_issue {pc : QueuePc}
    (hissue : pc.step b.shostState (s.view d b) = .inr .issue) : s.hasRoom d := by
  cases pc with
  | getCommand req =>
    simp only [QueuePc.step] at hissue
    split at hissue
    · cases hissue
    split at hissue
    · cases hissue
    split at hissue
    · cases hissue
    · cases hissue
  | noCommand =>
    simp only [QueuePc.step] at hissue
    split at hissue
    · cases hissue
    · cases hissue
  | locked =>
    obtain ⟨-, -, -, hdepth, hqueue⟩ := queueLocked_issue.mp (Sum.inr.inj hissue)
    exact ⟨hqueue, hdepth⟩

theorem BusySafe.move (h : BusySafe s (p ::ₘ rest))
    (hguard : KeepsBusy (.ok ⟨s, p ::ₘ rest⟩) (.move p b)) :
    BusySafe (p.step s b).1 ((p.step s b).2 + rest) := by
  cases p with
  | queue d pc =>
    simp only [BusyActivity.step]
    split
    · exact h.same rfl rfl rfl rfl
    · next verdict hverdict =>
      cases verdict with
      | noMemory => exact h.same rfl rfl rfl rfl
      | wouldBlock => exact h.same rfl rfl rfl rfl
      | gone => exact h.same rfl rfl rfl rfl
      | complete => exact h.counted rfl rfl rfl rfl h.respected
      | issue =>
        have hrespected := countForDriver_respected h.respected (hasRoom_of_issue hverdict)
        have hout : (if b.accepts = true then [BusyActivity.driver d]
            else [.cmdDone d]).filterMap outstanding = [d] := by
          split <;> rfl
        exact h.counted rfl hout rfl rfl hrespected
  | driver d => exact h.same rfl rfl rfl rfl
  | cmdDone d => exact h.uncounted rfl rfl
  | execute d =>
    simp only [BusyActivity.step]
    split
    · have hout : (if b.accepts = true then [BusyActivity.executing d]
          else [.freeInternalCommand d]).filterMap outstanding = [d] := by
        split <;> rfl
      exact h.counted rfl hout rfl rfl h.respected
    · exact h.same rfl rfl rfl rfl
  | executing d => exact h.same rfl rfl rfl rfl
  | freeInternalCommand d => exact h.uncounted rfl rfl
  | dump d => exact h.same rfl rfl rfl rfl
  | dumpTest d =>
    simp only [BusyActivity.step]
    split
    · exact h.same rfl rfl rfl rfl
    · next hfree =>
      have hrespected := countForDriver_respected h.respected (hguard hfree)
      exact h.counted rfl rfl rfl rfl hrespected
  | dumpQueue d =>
    have haccepts : b.accepts = true := hguard
    simp only [BusyActivity.step, haccepts, if_true]
    exact h.same rfl rfl rfl rfl
  | dumpDriver d =>
    have hdevice : s.dumpDevice = d := hguard
    simp only [BusyActivity.step, hdevice]
    exact h.uncounted rfl rfl
  | adjust d tags =>
    simp only [BusyActivity.step]
    split
    · exact h.same rfl rfl rfl rfl
    split
    · exact h.same rfl rfl rfl rfl
    split
    · exact h.same rfl rfl rfl rfl
    · exact h.same rfl rfl rfl rfl
  | setDepth d tags => exact h.same rfl rfl rfl rfl

theorem BusySafe.needs (h : BusySafe s (p ::ₘ rest))
    (hafter : BusySafe (p.step s b).1 ((p.step s b).2 + rest)) :
    KeepsBusy (.ok ⟨s, p ::ₘ rest⟩) (.move p b) := by
  cases p with
  | dumpTest d =>
    intro hfree
    have hrespected := hafter.respected
    simp only [BusyActivity.step, if_neg hfree] at hrespected
    have hroom : (s.overrun || !decide (s.hasRoom d)) = false := hrespected
    rw [Bool.or_eq_false_iff] at hroom
    simpa using hroom.2
  | dumpQueue d =>
    show b.accepts = true
    by_contra hrefused
    -- the command is outstanding no more, and still counted
    have hbefore := h.host
    have hcount := hafter.host
    simp only [BusyActivity.step, if_neg hrefused, Multiset.coe_nil, zero_add] at hcount
    rw [total_cons] at hbefore
    have hone : (BusyActivity.dumpQueue d).onHost = 1 := rfl
    omega
  | dumpDriver d =>
    show s.dumpDevice = d
    by_contra hother
    -- another device has its count lowered
    have hbefore := h.device d
    have hcount := hafter.device d
    simp only [BusyActivity.step, Multiset.coe_nil, zero_add] at hcount
    have hsame : (s.uncount s.dumpDevice).deviceBusy d = s.deviceBusy d :=
      Function.update_of_ne (Ne.symm hother) _ _
    rw [hsame] at hcount
    rw [total_cons] at hbefore
    have hone : (BusyActivity.dumpDriver d).onDevice d = 1 := if_pos rfl
    omega
  | _ => trivial

end Steps

/-! ## Every run -/

def BusyState.start (canQueue : Int) (queueDepth : Nat → Nat) : BusyState where
  canQueue := canQueue
  queueDepth := queueDepth

theorem busyStep_spec {s t : BusyPool} {e : PoolEvent BusyActivity BusyEvent BusyAnswer}
    (h : Program.Holds BusySafe s) (hstep : BusyStep s e t) :
    (KeepsBusy s e → Program.Holds BusySafe t) ∧ (Program.Holds BusySafe t → KeepsBusy s e) := by
  rcases Program.step_cases hstep with ⟨s, ev, u, ps, rfl, rfl, hbegin, rfl⟩ |
    ⟨s, p, b, rest, o, rfl, rfl, hmove, rfl⟩
  · refine ⟨fun _ => ?_, fun _ => trivial⟩
    obtain ⟨hhost, hdevice, hrespected⟩ := (h : BusySafe s.shared s.active)
    -- nothing is counted at first
    have hnew : u = s.shared ∧ ps.filterMap outstanding = [] := by
      cases ev <;> (obtain ⟨rfl, rfl⟩ := Prod.mk.inj (Option.some.inj hbegin); exact ⟨rfl, rfl⟩)
    obtain ⟨rfl, hnone⟩ := hnew
    refine ⟨?_, ?_, hrespected⟩
    · rw [total_add, total_coe, sum_onHost, hnone]
      show s.shared.hostBusy = 0 + _
      rw [zero_add]
      exact hhost
    · intro d
      rw [total_add, total_coe, sum_onDevice, hnone]
      show s.shared.deviceBusy d = 0 + _
      rw [zero_add]
      exact hdevice d
  · cases hmove
    have hsafe : BusySafe s (p ::ₘ rest) := h
    exact ⟨hsafe.move, hsafe.needs⟩

/-- **Counts.** Along a run of commands of one host the counts are exact and respected, just if no
    dump command is refused by the driver, is taken with a limit exceeded, or is completed for the
    device of another one. -/
theorem busy_counts_iff {canQueue : Int} {queueDepth : Nat → Nat} {s : BusyPool}
    {es : List (PoolEvent BusyActivity BusyEvent BusyAnswer)}
    (hrun : Run BusyStep (.ok ⟨.start canQueue queueDepth, 0⟩) es s) :
    Always BusyStep (Program.Holds BusySafe) (.ok ⟨.start canQueue queueDepth, 0⟩) es ↔
      Run (Guarded BusyStep KeepsBusy) (.ok ⟨.start canQueue queueDepth, 0⟩) es s := by
  have hinit : BusySafe (.start canQueue queueDepth) 0 := ⟨rfl, fun _ => rfl, rfl⟩
  apply always_iff_guarded (I := Program.Holds BusySafe) _ _ _ hrun hinit
  · intro s e t t' ht ht'
    exact ht.unique ht'
  · exact fun s h => h
  · intro s e t h hstep
    exact busyStep_spec h hstep

/-- Two commands of a device, one of which the driver refuses, an internal one, and a dump command
    after the queue depth has been raised. -/
def mixedRun : List (PoolEvent BusyActivity BusyEvent BusyAnswer) :=
  [.begin (.queueCommand 0 {}), .move (.queue 0 (.getCommand {})) {}, .move (.queue 0 .locked) {},
    .begin (.queueCommand 0 {}), .move (.queue 0 (.getCommand {})) {},
    .move (.queue 0 .locked) { accepts := false }, .begin (.execute 0), .move (.execute 0) {},
    .begin (.adjustQueueDepth 0 5), .move (.adjust 0 5) {}, .move (.setDepth 0 5) {},
    .begin (.dumpCommand 0), .move (.dump 0) {}, .move (.dumpTest 0) {}, .move (.dumpQueue 0) {},
    .move (.dumpDriver 0) {}, .move (.cmdDone 0) {}, .move (.driver 0) {},
    .move (.executing 0) {}, .move (.freeInternalCommand 0) {}, .move (.cmdDone 0) {}]

theorem busy_counts_mixedRun :
    Always BusyStep (Program.Holds BusySafe) (.ok ⟨.start 8 fun _ => 2, 0⟩) mixedRun := by
  have hexec : ∃ s, Run.exec
      (fun s e => if KeepsBusy s e then busyProgram.next? s e else none)
      (.ok ⟨.start 8 fun _ => 2, 0⟩) mixedRun = some s := ⟨_, rfl⟩
  obtain ⟨s, hs⟩ := hexec
  have hsound : ∀ s e t, (if KeepsBusy s e then busyProgram.next? s e else none) = some t →
      Guarded BusyStep KeepsBusy s e t := by
    intro s e t h
    exact (guarded_eq_some_iff (T := BusyStep) (fun _ _ _ => Iff.rfl) s e t).mp h
  have hguarded := Run.of_exec hsound hs
  exact (busy_counts_iff (hguarded.mono fun _ _ _ h => h.2)).mpr hguarded

/-- A dump command that the driver refuses stays counted, and one goes to the driver when the queue
    depth has been lowered below the commands that are active. -/
theorem busy_miscounted :
    (∃ s, Run BusyStep (.ok ⟨.start 8 fun _ => 2, 0⟩)
        [.begin (.dumpCommand 0), .move (.dump 0) {}, .move (.dumpTest 0) {},
          .move (.dumpQueue 0) { accepts := false }] (.ok s) ∧
      s.active = 0 ∧ s.shared.hostBusy = 1 ∧ ¬BusySafe s.shared s.active) ∧
    ∃ s, Run BusyStep (.ok ⟨.start 8 fun _ => 2, 0⟩)
        [.begin (.queueCommand 0 {}), .move (.queue 0 (.getCommand {})) {},
          .move (.queue 0 .locked) {}, .begin (.queueCommand 0 {}),
          .move (.queue 0 (.getCommand {})) {}, .move (.queue 0 .locked) {},
          .begin (.adjustQueueDepth 0 1), .move (.adjust 0 1) {}, .move (.setDepth 0 1) {},
          .begin (.dumpCommand 0), .move (.dump 0) {}, .move (.dumpTest 0) {},
          .move (.dumpQueue 0) {}] (.ok s) ∧
      .dumpDriver 0 ∈ s.active ∧ s.shared.deviceBusy 0 = 3 ∧ s.shared.queueDepth 0 = 1 ∧
      ¬BusySafe s.shared s.active := by
  refine ⟨⟨_, Run.of_exec (f := busyProgram.next?) (fun _ _ _ h => h) rfl, rfl, rfl, ?_⟩,
    ⟨_, Run.of_exec (f := busyProgram.next?) (fun _ _ _ h => h) rfl, by decide, rfl, rfl, ?_⟩⟩
  · intro hsafe
    have hone : (1 : Int) = 0 := hsafe.host
    omega
  · intro hsafe
    have hrespected := hsafe.respected
    cases hrespected

end VmkDrivers.Vmklinux
