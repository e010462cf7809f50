/-
  VmkDrivers.Vmklinux.Napi

  The NAPI contexts of a `net_device` and the net polls that run them
  (`linux_net.c`, `netdevice.h`).

  Any number of worlds are under way in these functions.  A step is one atomic
  operation on a state word, one section under `napi_lock`, or one call of the
  net poll interface.  `vmk_NetPollActivate` causes a run that starts later,
  and `vmk_NetPollCheckState` finds a poll disabled that is neither activated
  nor running.  As the headers ask, `netif_napi_add` comes before any other
  function, `napi_enable` and `napi_disable` are paired, and a driver calls
  `napi_complete` from its poll function only.  The device is registered by the
  time a net poll cannot be created.

  `NAPI_STATE_UNUSED`, which only the removal of a context reads, vectors, the
  large receive offload and packet traces are left out.
-/

import VmkDrivers.Lib.Transition

namespace VmkDrivers.Vmklinux

open VmkDrivers.Lib

/-! ## Contexts -/

/-- The loop of `napi_disable_timeout`. -/
inductive DisableStage where
  /-- `NAPI_STATE_DISABLE` is set. -/
  | requested
  /-- `vmk_NetPollCheckState` said `VMK_NETPOLL_DISABLED`. -/
  | foundIdle
  /-- In `schedule_timeout_interruptible`. -/
  | asleep
  /-- Behind the `break`. -/
  | taken
deriving DecidableEq, Repr

inductive NapiPhase where
  | absent
  /-- In `napi_poll_init`, with a net poll. -/
  | initialized
  /-- In `netif_napi_add`, behind `napi_poll_init`. -/
  | listed
  /-- Added or disabled. -/
  | parked
  | enabled
  | disabling (stage : DisableStage)
deriving DecidableEq, Repr

namespace NapiPhase

/-- `netif_napi_add` has not returned. -/
def Fresh : NapiPhase → Prop
  | absent | initialized | listed => True
  | _ => False

/-- Not enabled, or behind the `test_and_set_bit` by which `napi_disable` blocks the context. -/
def Off : NapiPhase → Prop
  | parked | disabling .taken => True
  | _ => False

/-- Enabled, and not yet blocked by `napi_disable`. -/
def Active : NapiPhase → Prop
  | enabled | disabling .requested | disabling .foundIdle | disabling .asleep => True
  | _ => False

/-- Linked into `napi_list`. -/
def Linked : NapiPhase → Prop
  | absent | initialized => False
  | _ => True

instance (p : NapiPhase) : Decidable p.Fresh := by unfold Fresh; split <;> infer_instance
instance (p : NapiPhase) : Decidable p.Off := by unfold Off; split <;> infer_instance
instance (p : NapiPhase) : Decidable p.Active := by unfold Active; split <;> infer_instance

variable {p : NapiPhase}

theorem Active.not_fresh (h : p.Active) : ¬p.Fresh := by
  intro hfresh
  cases p <;> simp_all [Fresh, Active]

theorem Active.not_off (h : p.Active) : ¬p.Off := by
  intro hoff
  unfold Off at hoff
  split at hoff <;> simp_all [Active]

theorem Active.linked (h : p.Active) : p.Linked := by
  unfold Linked
  split <;> simp_all [Active]

theorem active_of (hfresh : ¬p.Fresh) (hoff : ¬p.Off) : p.Active := by
  cases p with
  | absent | initialized | listed => exact absurd trivial hfresh
  | parked => exact absurd trivial hoff
  | enabled => exact trivial
  | disabling stage =>
    cases stage with
    | taken => exact absurd trivial hoff
    | requested | foundIdle | asleep => exact trivial

end NapiPhase

/-- A run of `napi_poll`: before its first test, before and in `napi->poll`, and behind it. -/
inductive PollRun where
  | idle
  | entered
  | calling
  | polling
  | polled
deriving DecidableEq, Repr

/-- `struct napi_struct`, with the net poll that it created. -/
structure NapiCtx where
  sched : Bool := false
  disable : Bool := false
  devPoll : Bool := false
  phase : NapiPhase := .absent
  /-- Calls of `napi_schedule_prep` between its two operations. -/
  prepped : Nat := 0
  /-- Calls of `napi_schedule` that are about to activate the net poll. -/
  activating : Nat := 0
  /-- The net poll of its own is activated. -/
  activated : Bool := false
  run : PollRun := .idle
deriving DecidableEq, Repr

/-- A run of `netdev_poll`.  In the scan, `late` are the contexts that were scheduled after their
    test, and `rest` are still to be tested. -/
inductive BackupRun (ι : Type) where
  | idle
  | scanning (late rest : List ι)
  | picked (c : ι)
  | polling (c : ι)
deriving DecidableEq, Repr

/-- `struct net_device`, with its backup poll. -/
structure NapiDev (ι : Type) where
  napi : ι → NapiCtx := fun _ => {}
  napiList : List ι := []
  activated : Bool := false
  run : BackupRun ι := .idle

inductive NapiOp (ι : Type) where
  /-- `napi_poll_init`: the creation of the net poll, and the section that links the context. -/
  | pollInit (c : ι) (created : Bool)
  | listAdd (c : ι)
  /-- The end of `netif_napi_add`. -/
  | addDone (c : ι)
  | enable (c : ι)
  /-- `napi_disable`: `set_bit`, `vmk_NetPollCheckState`, `test_and_set_bit`, the end of a sleep,
      and the end. -/
  | disable (c : ι)
  | checkState (c : ι)
  | takeSched (c : ι)
  | wake (c : ι)
  | disabled (c : ι)
  /-- `napi_schedule`: `napi_disable_pending`, `test_and_set_bit` and `vmk_NetPollActivate`. -/
  | prep (c : ι)
  | prepSet (c : ι)
  | activate (c : ι)
  /-- `napi_poll`: its start, its tests, and the call between them. -/
  | pollStart (c : ι)
  | pollTest (c : ι)
  | pollCall (c : ι)
  | pollReturn (c : ι)
  | pollEnd (c : ι)
  /-- `napi_complete`, in the poll function of the context. -/
  | complete (c : ι)
  /-- `netdev_poll`: its start with the lock, the test of one context or the end of the list, the
      call, and the end. -/
  | backupStart
  | backupScan
  | backupCall
  | backupReturn
deriving DecidableEq, Repr

namespace NapiDev

variable {ι : Type} [DecidableEq ι] (s : NapiDev ι) (c : ι)

def set (c : ι) (x : NapiCtx) : NapiDev ι := { s with napi := Function.update s.napi c x }

@[simp] theorem set_self (x : NapiCtx) : (s.set c x).napi c = x :=
  Function.update_self ..

@[simp] theorem set_of_ne {c d : ι} (h : d ≠ c) (x : NapiCtx) : (s.set c x).napi d = s.napi d :=
  Function.update_of_ne h ..

@[simp] theorem set_napiList (x : NapiCtx) : (s.set c x).napiList = s.napiList := rfl

@[simp] theorem set_activated (x : NapiCtx) : (s.set c x).activated = s.activated := rfl

@[simp] theorem set_run (x : NapiCtx) : (s.set c x).run = s.run := rfl

/-- `vmk_NetPollCheckState` of `napi->net_poll` says `VMK_NETPOLL_ACTIVE`. -/
def PollActive (c : ι) : Prop :=
  if (s.napi c).devPoll then s.activated = true ∨ s.run ≠ .idle
  else (s.napi c).activated = true ∨ (s.napi c).run ≠ .idle

instance (c : ι) : Decidable (s.PollActive c) := by unfold PollActive; infer_instance

def InPoll (c : ι) : Prop := (s.napi c).run = .polling ∨ s.run = .polling c

instance (c : ι) : Decidable (s.InPoll c) := by unfold InPoll; infer_instance

/-- `napi_lock` is free. -/
def LockFree : Prop :=
  match s.run with
  | .scanning _ _ => False
  | _ => True

instance : Decidable s.LockFree := by unfold LockFree; split <;> infer_instance

/-- `napi_schedule_prep` sets the bit of `c`, perhaps behind the scan of `netdev_poll`. -/
def setSched (c : ι) : NapiDev ι :=
  let x := s.napi c
  { s.set c { x with sched := true, prepped := x.prepped - 1, activating := x.activating + 1 } with
    run := match s.run with
      | .scanning late rest => if c ∈ rest then s.run else .scanning (c :: late) rest
      | run => run }

/-- `vmk_NetPollActivate(napi->net_poll)` -/
def activatePoll (c : ι) : NapiDev ι :=
  let x := { s.napi c with activating := (s.napi c).activating - 1 }
  if x.devPoll then { s.set c x with activated := true }
  else s.set c { x with activated := true }

/-- `list_for_each_entry` of `netdev_poll`, one context at a time. -/
def scan : Option (NapiDev ι) :=
  match s.run with
  | .scanning _ [] => some { s with run := .idle }
  | .scanning late (c :: rest) =>
    if (s.napi c).devPoll ∧ (s.napi c).sched then
      some { s with napiList := s.napiList.erase c ++ [c], run := .picked c }
    else some { s with run := .scanning late rest }
  | _ => none

def next? (op : NapiOp ι) : Option (NapiDev ι) :=
  match op with
  | .pollInit c created =>
    let x := s.napi c
    if x.phase = .absent then
      some (s.set c { x with phase := .initialized, devPoll := !created })
    else none
  | .listAdd c =>
    let x := s.napi c
    if x.phase = .initialized ∧ s.LockFree then
      some { s.set c { x with phase := .listed } with napiList := c :: s.napiList }
    else none
  | .addDone c =>
    let x := s.napi c
    if x.phase = .listed then some (s.set c { x with phase := .parked, sched := true }) else none
  | .enable c =>
    let x := s.napi c
    -- `BUG_ON` stops the system when the context is not scheduled
    if x.phase = .parked ∧ x.sched then
      some (s.set c { x with phase := .enabled, sched := false })
    else none
  | .disable c =>
    let x := s.napi c
    if x.phase = .enabled then
      some (s.set c { x with phase := .disabling .requested, disable := true })
    else none
  | .checkState c =>
    let x := s.napi c
    if x.phase = .disabling .requested then
      some (s.set c { x with phase := .disabling (if s.PollActive c then .asleep else .foundIdle) })
    else none
  | .takeSched c =>
    let x := s.napi c
    if x.phase = .disabling .foundIdle then
      some (s.set c
        { x with phase := .disabling (if x.sched then .asleep else .taken), sched := true })
    else none
  | .wake c =>
    let x := s.napi c
    if x.phase = .disabling .asleep then
      some (s.set c { x with phase := .disabling .requested, disable := true })
    else none
  | .disabled c =>
    let x := s.napi c
    if x.phase = .disabling .taken then
      some (s.set c { x with phase := .parked, disable := false })
    else none
  | .prep c =>
    let x := s.napi c
    if ¬x.phase.Fresh ∧ x.disable = false then
      some (s.set c { x with prepped := x.prepped + 1 })
    else none
  | .prepSet c =>
    let x := s.napi c
    if 0 < x.prepped then
      some (if x.sched then s.set c { x with prepped := x.prepped - 1 } else s.setSched c)
    else none
  | .activate c => if 0 < (s.napi c).activating then some (s.activatePoll c) else none
  | .pollStart c =>
    let x := s.napi c
    if x.activated ∧ x.run = .idle then
      some (s.set c { x with activated := false, run := .entered })
    else none
  | .pollTest c =>
    let x := s.napi c
    if x.run = .entered then
      some (s.set c { x with run := if x.sched then .calling else .polled })
    else none
  | .pollCall c =>
    let x := s.napi c
    if x.run = .calling then some (s.set c { x with run := .polling }) else none
  | .pollReturn c =>
    let x := s.napi c
    if x.run = .polling then some (s.set c { x with run := .polled }) else none
  | .pollEnd c =>
    let x := s.napi c
    if x.run = .polled then
      some (s.set c { x with run := .idle, activated := x.activated || x.sched })
    else none
  | .complete c =>
    let x := s.napi c
    if s.InPoll c ∧ x.sched then some (s.set c { x with sched := false }) else none
  | .backupStart =>
    if s.activated ∧ s.run = .idle then
      some { s with activated := false, run := .scanning [] s.napiList }
    else none
  | .backupScan => s.scan
  | .backupCall =>
    match s.run with
    | .picked c => some { s with run := .polling c }
    | _ => none
  | .backupReturn =>
    match s.run with
    | .polling _ => some { s with run := .idle, activated := true }
    | _ => none

def polls (op : NapiOp ι) : Option ι :=
  match op, s.run with
  | .pollCall c, _ => some c
  | .backupCall, .picked c => some c
  | _, _ => none

def report (op : NapiOp ι) : Option Bool :=
  match op, s.run with
  | .pollEnd c, _ => some (s.napi c).sched
  | .backupScan, .scanning _ [] => some false
  | .backupReturn, .polling _ => some true
  | _, _ => none

/-- The contexts that a run serves, which the operation ends. -/
def Serves (op : NapiOp ι) (c : ι) : Prop :=
  match op with
  | .pollEnd d => c = d
  | _ => (s.napi c).devPoll = true

end NapiDev

def NapiStep {ι : Type} [DecidableEq ι] (s : NapiDev ι) (op : NapiOp ι) (t : NapiDev ι) : Prop :=
  s.next? op = some t

/-! ## What holds of every context -/

namespace BackupRun

variable {ι : Type}

def Busy (run : BackupRun ι) (c : ι) : Prop := run = .picked c ∨ run = .polling c

instance [DecidableEq ι] (run : BackupRun ι) (c : ι) : Decidable (run.Busy c) := by
  unfold Busy; infer_instance

theorem not_busy_idle (c : ι) : ¬(idle : BackupRun ι).Busy c := by simp [Busy]

theorem not_busy_scanning (late rest : List ι) (c : ι) : ¬(scanning late rest).Busy c := by
  simp [Busy]

@[simp] theorem busy_picked {c d : ι} : (picked d).Busy c ↔ d = c := by simp [Busy]

@[simp] theorem busy_polling {c d : ι} : (polling d).Busy c ↔ d = c := by simp [Busy]

def WillTest : BackupRun ι → ι → Prop
  | idle, _ => False
  | scanning _ rest, c => c ∈ rest
  | _, _ => True

end BackupRun

/-- What holds of a context, given whether it is linked, and the backup poll. -/
structure NapiCtx.Ok {ι : Type} (x : NapiCtx) (c : ι) (linked : Prop) (activated : Bool)
    (run : BackupRun ι) : Prop where
  fresh : x.phase.Fresh → x.sched = false ∧ x.prepped = 0 ∧ x.activating = 0
  off : x.phase.Off → x.sched = true
  still : ¬x.phase.Active → x.activated = false ∧ x.run = .idle
  unasked : ¬x.phase.Active → x.devPoll = false → x.activating = 0
  unserved : ¬x.phase.Active → ¬run.Busy c
  own : x.devPoll = true → x.activated = false ∧ x.run = .idle
  listed : x.phase.Linked → linked
  kept : x.phase.Active → x.sched = true → x.devPoll = false →
    x.activated = true ∨ x.run ≠ .idle ∨ 0 < x.activating
  keptBackup : x.phase.Active → x.sched = true → x.devPoll = true →
    activated = true ∨ 0 < x.activating ∨ run.WillTest c
  behind : x.phase.Active → x.sched = true → x.devPoll = true → ∀ late rest,
    run = .scanning late rest → c ∈ late ∨ c ∈ rest

open BackupRun

namespace NapiCtx.Ok

variable {ι : Type} {x : NapiCtx} {c : ι} {linked : Prop} {activated : Bool} {run : BackupRun ι}
  {p : NapiPhase} {linked' : Prop} {d : ι}

/-! ### Steps of one context -/

theorem of_idle (hfresh : x.phase.Fresh → x.sched = false ∧ x.prepped = 0 ∧ x.activating = 0)
    (hoff : x.phase.Off → x.sched = true) (hactive : ¬x.phase.Active)
    (hidle : x.activated = false ∧ x.run = .idle) (hasked : x.devPoll = false → x.activating = 0)
    (hbusy : ¬run.Busy c) (hlinked : x.phase.Linked → linked) :
    x.Ok c linked activated run where
  fresh := hfresh
  off := hoff
  still _ := hidle
  unasked _ := hasked
  unserved _ := hbusy
  own _ := hidle
  listed := hlinked
  kept h := absurd h hactive
  keptBackup h := absurd h hactive
  behind h := absurd h hactive

theorem rest (h : x.Ok c linked activated run) (hx : ¬x.phase.Active) (hp : ¬p.Active)
    {sched devPoll : Bool} (disable : Bool) (hfresh : p.Fresh → x.phase.Fresh ∧ sched = false)
    (hoff : p.Off → sched = true) (hdev : x.phase.Fresh ∨ devPoll = x.devPoll)
    (hlinked : p.Linked → linked') :
    ({ x with phase := p, sched, devPoll, disable } : NapiCtx).Ok c linked' activated run := by
  apply of_idle
  · intro hpf
    obtain ⟨hxf, hsched⟩ := hfresh hpf
    exact ⟨hsched, (h.fresh hxf).2⟩
  · exact hoff
  · exact hp
  · exact h.still hx
  · intro hown
    rcases hdev with hxf | heq
    · exact (h.fresh hxf).2.2
    · exact h.unasked hx (heq ▸ hown)
  · exact h.unserved hx
  · exact hlinked

theorem of_clear (hactive : x.phase.Active) (hsched : x.sched = false)
    (hown : x.devPoll = true → x.activated = false ∧ x.run = .idle) (hlinked : linked) :
    x.Ok c linked activated run where
  fresh h := absurd h hactive.not_fresh
  off h := absurd h hactive.not_off
  still h := absurd hactive h
  unasked h := absurd hactive h
  unserved h := absurd hactive h
  own := hown
  listed _ := hlinked
  kept _ h := absurd h (by simp [hsched])
  keptBackup _ h := absurd h (by simp [hsched])
  behind _ h := absurd h (by simp [hsched])

theorem move (h : x.Ok c linked activated run) (hx : x.phase.Active) (hp : p.Active)
    (disable : Bool) : ({ x with phase := p, disable } : NapiCtx).Ok c linked activated run where
  fresh hfresh := absurd hfresh hp.not_fresh
  off hoff := absurd hoff hp.not_off
  still hstill := absurd hp hstill
  unasked hstill := absurd hp hstill
  unserved hstill := absurd hp hstill
  own := h.own
  listed _ := h.listed hx.linked
  kept _ := h.kept hx
  keptBackup _ := h.keptBackup hx
  behind _ := h.behind hx

theorem run_to (h : x.Ok c linked activated run) (hx : x.run ≠ .idle) {r : PollRun}
    (hr : r ≠ .idle) : ({ x with run := r } : NapiCtx).Ok c linked activated run where
  fresh := h.fresh
  off := h.off
  still hstill := absurd (h.still hstill).2 hx
  unasked := h.unasked
  unserved := h.unserved
  own hdev := absurd (h.own hdev).2 hx
  listed := h.listed
  kept _ _ _ := .inr (.inl hr)
  keptBackup := h.keptBackup
  behind := h.behind

theorem active_of_run (h : x.Ok c linked activated run)
    (hx : x.activated = true ∨ x.run ≠ .idle) : x.phase.Active := by
  by_contra hstill
  obtain ⟨hactivated, hrun⟩ := h.still hstill
  rcases hx with hx | hx
  · simp [hactivated] at hx
  · exact hx hrun

theorem devPoll_of_run (h : x.Ok c linked activated run)
    (hx : x.activated = true ∨ x.run ≠ .idle) : x.devPoll = false := by
  by_contra hdev
  obtain ⟨hactivated, hrun⟩ := h.own (by simpa using hdev)
  rcases hx with hx | hx
  · simp [hactivated] at hx
  · exact hx hrun

theorem active_of_busy (h : x.Ok c linked activated run) (hbusy : run.Busy c) : x.phase.Active := by
  by_contra hstill
  exact h.unserved hstill hbusy

theorem start (h : x.Ok c linked activated run) (hactivated : x.activated = true) :
    ({ x with activated := false, run := .entered } : NapiCtx).Ok c linked activated run := by
  have hactive := h.active_of_run (.inl hactivated)
  have hdev := h.devPoll_of_run (.inl hactivated)
  exact { h with
    still := fun hstill => absurd hactive hstill
    own := fun hown => absurd hown (by simp [hdev])
    kept := fun _ _ _ => .inr (.inl (by simp)) }

theorem finish (h : x.Ok c linked activated run) (hrun : x.run = .polled) :
    ({ x with run := .idle, activated := x.activated || x.sched } : NapiCtx).Ok c linked activated
      run := by
  have hactive := h.active_of_run (.inr (by simp [hrun]))
  have hdev := h.devPoll_of_run (.inr (by simp [hrun]))
  exact { h with
    still := fun hstill => absurd hactive hstill
    own := fun hown => absurd hown (by simp [hdev])
    kept := fun _ hsched _ => .inl (by simp_all) }

theorem prep (h : x.Ok c linked activated run) (hfresh : ¬x.phase.Fresh) (n : Nat) :
    ({ x with prepped := n } : NapiCtx).Ok c linked activated run :=
  { h with fresh := fun hf => absurd hf hfresh }

theorem take (h : x.Ok c linked activated run) (hactive : x.phase.Active)
    (hquiet : x.devPoll = false → x.activated = false ∧ x.run = .idle ∧ x.activating = 0)
    (hbusy : ¬run.Busy c) :
    ({ x with phase := .disabling .taken, sched := true } : NapiCtx).Ok c linked activated run := by
  have hidle : x.activated = false ∧ x.run = .idle := by
    cases hdev : x.devPoll with
    | true => exact h.own hdev
    | false => exact ⟨(hquiet hdev).1, (hquiet hdev).2.1⟩
  apply of_idle
  · exact fun hfresh => hfresh.elim
  · exact fun _ => rfl
  · exact id
  · exact hidle
  · exact fun hdev => (hquiet hdev).2.2
  · exact hbusy
  · exact fun _ => h.listed hactive.linked

theorem active_of_prepped (h : x.Ok c linked activated run) (hprepped : 0 < x.prepped)
    (hsched : x.sched = false) : x.phase.Active := by
  apply NapiPhase.active_of
  · intro hfresh
    have hnone := (h.fresh hfresh).2.1
    omega
  · intro hoff
    simp [h.off hoff] at hsched

theorem setSched (h : x.Ok c linked activated run) (hactive : x.phase.Active)
    (hbehind : ∀ late rest, run = .scanning late rest → c ∈ late ∨ c ∈ rest) :
    ({ x with sched := true, prepped := x.prepped - 1, activating := x.activating + 1 } :
      NapiCtx).Ok c linked activated run where
  fresh hfresh := absurd hfresh hactive.not_fresh
  off _ := rfl
  still := h.still
  unasked hstill := absurd hactive hstill
  unserved := h.unserved
  own := h.own
  listed := h.listed
  kept _ _ _ := .inr (.inr (Nat.succ_pos _))
  keptBackup _ _ _ := .inr (.inl (Nat.succ_pos _))
  behind _ _ _ := hbehind

theorem activateOwn (h : x.Ok c linked activated run) (hasked : 0 < x.activating)
    (hdev : x.devPoll = false) (n : Nat) :
    ({ x with activating := n, activated := true } : NapiCtx).Ok c linked activated run := by
  have hactive : x.phase.Active := by
    by_contra hstill
    have hnone := h.unasked hstill hdev
    omega
  exact { h with
    fresh := fun hfresh => absurd hfresh hactive.not_fresh
    still := fun hstill => absurd hactive hstill
    unasked := fun hstill => absurd hactive hstill
    own := fun hown => absurd hown (by simp [hdev])
    kept := fun _ _ _ => .inl rfl
    keptBackup := fun _ _ hown => absurd hown (by simp [hdev]) }

theorem activateBackup (h : x.Ok c linked activated run) (hasked : 0 < x.activating)
    (hdev : x.devPoll = true) :
    ({ x with activating := x.activating - 1 } : NapiCtx).Ok c linked true run := by
  have hfresh : ¬x.phase.Fresh := by
    intro hfresh
    have hnone := (h.fresh hfresh).2.2
    omega
  exact { h with
    fresh := fun hf => absurd hf hfresh
    unasked := fun _ hown => absurd hown (by simp [hdev])
    kept := fun _ _ hown => absurd hown (by simp [hdev])
    keptBackup := fun _ _ _ => .inl rfl }

/-! ### Steps of the others and of the backup poll -/

theorem device (h : x.Ok c linked activated run) {activated' : Bool}
    {run' : BackupRun ι} (hlinked : linked → linked') (hbusy : run'.Busy c → x.phase.Active)
    (hkept : x.phase.Active → x.sched = true → x.devPoll = true →
      activated' = true ∨ 0 < x.activating ∨ run'.WillTest c)
    (hbehind : x.phase.Active → x.sched = true → x.devPoll = true → ∀ late rest,
      run' = .scanning late rest → c ∈ late ∨ c ∈ rest) :
    x.Ok c linked' activated' run' :=
  { h with
    unserved := fun hstill hb => hstill (hbusy hb)
    listed := fun hl => hlinked (h.listed hl)
    keptBackup := hkept
    behind := hbehind }

theorem link (h : x.Ok c linked activated run) (hlinked : linked → linked') :
    x.Ok c linked' activated run :=
  h.device hlinked h.active_of_busy h.keptBackup h.behind

theorem activate (h : x.Ok c linked activated run) : x.Ok c linked true run :=
  h.device id h.active_of_busy (fun _ _ _ => .inl rfl) h.behind

theorem late {late rest : List ι} (h : x.Ok c linked activated (.scanning late rest)) (d : ι) :
    x.Ok c linked activated (.scanning (d :: late) rest) := by
  apply h.device id
  · exact fun hbusy => absurd hbusy (not_busy_scanning _ _ c)
  · exact h.keptBackup
  · intro hactive hsched hdev late' rest' heq
    cases heq
    rcases h.behind hactive hsched hdev late rest rfl with hlate | hrest
    · exact .inl (List.mem_cons_of_mem d hlate)
    · exact .inr hrest

theorem backupStart {list : List ι} (h : x.Ok c (c ∈ list) activated run) :
    x.Ok c (c ∈ list) false (.scanning [] list) := by
  apply h.device id
  · exact fun hbusy => absurd hbusy (not_busy_scanning _ _ c)
  · exact fun hactive _ _ => .inr (.inr (h.listed hactive.linked))
  · intro hactive _ _ late rest heq
    cases heq
    exact .inr (h.listed hactive.linked)

theorem scanEnd {late : List ι} (h : x.Ok c linked activated (.scanning late [])) :
    x.Ok c linked activated .idle := by
  apply h.device id
  · exact fun hbusy => absurd hbusy (not_busy_idle c)
  · intro hactive hsched hdev
    rcases h.keptBackup hactive hsched hdev with hactivated | hasked | hrest
    · exact .inl hactivated
    · exact .inr (.inl hasked)
    · exact absurd hrest List.not_mem_nil
  · intro _ _ _ late' rest' heq
    cases heq

theorem scanPass {late rest : List ι} (h : x.Ok c linked activated (.scanning late (d :: rest)))
    (hpass : c = d → ¬(x.devPoll = true ∧ x.sched = true)) :
    x.Ok c linked activated (.scanning late rest) := by
  -- the passed context itself is not scheduled, and the others are still ahead
  have hne : x.sched = true → x.devPoll = true → c ≠ d :=
    fun hsched hdev heq => hpass heq ⟨hdev, hsched⟩
  apply h.device id
  · exact fun hbusy => absurd hbusy (not_busy_scanning _ _ c)
  · intro hactive hsched hdev
    rcases h.keptBackup hactive hsched hdev with hactivated | hasked | hrest
    · exact .inl hactivated
    · exact .inr (.inl hasked)
    · exact .inr (.inr (List.mem_of_ne_of_mem (hne hsched hdev) hrest))
  · intro hactive hsched hdev late' rest' heq
    cases heq
    rcases h.behind hactive hsched hdev late (d :: rest) rfl with hlate | hrest
    · exact .inl hlate
    · exact .inr (List.mem_of_ne_of_mem (hne hsched hdev) hrest)

theorem scanPick (h : x.Ok c linked activated run) (hlinked : linked → linked')
    (hpick : c = d → x.phase.Active) : x.Ok c linked' activated (.picked d) := by
  apply h.device hlinked
  · exact fun hbusy => hpick (busy_picked.mp hbusy).symm
  · exact fun _ _ _ => .inr (.inr trivial)
  · intro _ _ _ late rest heq
    cases heq

theorem backupCall (h : x.Ok c linked activated (.picked d)) :
    x.Ok c linked activated (.polling d) := by
  apply h.device id
  · intro hbusy
    exact h.active_of_busy (busy_picked.mpr (busy_polling.mp hbusy))
  · exact fun _ _ _ => .inr (.inr trivial)
  · intro _ _ _ late rest heq
    cases heq

theorem backupReturn (h : x.Ok c linked activated run) : x.Ok c linked true .idle := by
  apply h.device id
  · exact fun hbusy => absurd hbusy (not_busy_idle c)
  · exact fun _ _ _ => .inl rfl
  · intro _ _ _ late rest heq
    cases heq

end NapiCtx.Ok

/-! ## Steps of the device -/

section Run

variable {ι : Type} {c : ι} {op : NapiOp ι}

def NapiInv (s : NapiDev ι) : Prop :=
  ∀ c, (s.napi c).Ok c (c ∈ s.napiList) s.activated s.run

theorem NapiInv.init : NapiInv ({} : NapiDev ι) := by
  intro c
  apply NapiCtx.Ok.of_idle
  · exact fun _ => ⟨rfl, rfl, rfl⟩
  · exact fun hoff => hoff.elim
  · exact id
  · exact ⟨rfl, rfl⟩
  · exact fun _ => rfl
  · exact not_busy_idle c
  · exact fun hlinked => hlinked.elim

theorem NapiInv.scheduled {s : NapiDev ι} (h : NapiInv s) (hactive : (s.napi c).phase.Active)
    (hsched : (s.napi c).sched = true) : s.PollActive c ∨ 0 < (s.napi c).activating := by
  unfold NapiDev.PollActive
  cases hdev : (s.napi c).devPoll with
  | false =>
    have hkept := (h c).kept hactive hsched hdev
    simpa [or_assoc] using hkept
  | true =>
    rcases (h c).keptBackup hactive hsched hdev with hactivated | hasked | htest
    · exact .inl (by simp [hactivated])
    · exact .inr hasked
    · -- a run that has yet to test the context is a run
      left
      have hrun : s.run ≠ .idle := by
        intro hidle
        simp [hidle, BackupRun.WillTest] at htest
      simp [hrun]

variable [DecidableEq ι] {s t : NapiDev ι}

theorem NapiInv.set (h : NapiInv s) {x : NapiCtx} (hx : x.Ok c (c ∈ s.napiList) s.activated s.run) :
    NapiInv (s.set c x) := by
  intro d
  by_cases hd : d = c
  · subst hd
    simpa using hx
  · simpa [hd] using h d

/-- The context that the scan of `netdev_poll` tests next is not one that is added or disabled. -/
def NapiDev.ScanOk (s : NapiDev ι) : Prop :=
  match s.run with
  | .scanning _ (c :: _) => (s.napi c).devPoll = true → ¬(s.napi c).phase.Off
  | _ => True

instance (s : NapiDev ι) : Decidable s.ScanOk := by unfold NapiDev.ScanOk; split <;> infer_instance

/-- No poll of the context is activated, runs or is about to be activated. -/
def NapiDev.Quiet (s : NapiDev ι) (c : ι) : Prop :=
  ((s.napi c).devPoll = false →
    (s.napi c).activated = false ∧ (s.napi c).run = .idle ∧ (s.napi c).activating = 0) ∧
  ¬s.run.Busy c

instance (s : NapiDev ι) (c : ι) : Decidable (s.Quiet c) := by
  unfold NapiDev.Quiet; infer_instance

/-- The scan of `netdev_poll` comes upon no context that is added or disabled, and `napi_disable`
    blocks a context only while the poll is quiet. -/
def NapiGuard (s : NapiDev ι) : NapiOp ι → Prop
  | .backupScan => s.ScanOk
  | .takeSched c => (s.napi c).sched = false → s.Quiet c
  | _ => True

instance (s : NapiDev ι) (op : NapiOp ι) : Decidable (NapiGuard s op) := by
  unfold NapiGuard; split <;> infer_instance

theorem NapiInv.setSched (h : NapiInv s) (hprepped : 0 < (s.napi c).prepped)
    (hsched : (s.napi c).sched = false) : NapiInv (s.setSched c) := by
  have hactive := (h c).active_of_prepped hprepped hsched
  intro d
  unfold NapiDev.setSched
  by_cases hd : d = c
  · subst hd
    cases hrun : s.run with
    | scanning late rest =>
      by_cases hmem : d ∈ rest
      · simpa [hmem, hrun] using (hrun ▸ h d).setSched hactive
          (fun late' rest' heq => by cases heq; exact .inr hmem)
      · simpa [hmem] using ((hrun ▸ h d).late d).setSched hactive
          (fun late' rest' heq => by cases heq; exact .inl List.mem_cons_self)
    | _ => simpa [hrun] using (h d).setSched hactive (by simp [hrun])
  · cases hrun : s.run with
    | scanning late rest =>
      by_cases hmem : c ∈ rest
      · simpa [hd, hmem, hrun] using h d
      · simpa [hd, hmem] using (hrun ▸ h d).late c
    | _ => simpa [hd, hrun] using h d

theorem NapiInv.activatePoll (h : NapiInv s) (hasked : 0 < (s.napi c).activating) :
    NapiInv (s.activatePoll c) := by
  unfold NapiDev.activatePoll
  by_cases hdev : (s.napi c).devPoll = true
  · rw [if_pos hdev]
    intro d
    by_cases hd : d = c
    · subst hd
      simpa using (h d).activateBackup hasked hdev
    · simpa [hd] using (h d).activate
  · rw [if_neg hdev]
    exact h.set ((h c).activateOwn hasked (by simpa using hdev) _)

theorem NapiInv.scan (h : NapiInv s) (hguard : NapiGuard s .backupScan) (hscan : s.scan = some t) :
    NapiInv t := by
  unfold NapiDev.scan at hscan
  split at hscan
  · next late hrun =>
      cases hscan
      exact fun d => NapiCtx.Ok.scanEnd (hrun ▸ h d)
  · next late c rest hrun =>
      split at hscan
      · next hpick =>
          cases hscan
          obtain ⟨hdev, hsched⟩ := hpick
          have hfresh : ¬(s.napi c).phase.Fresh := by
            intro hfresh
            simp [((h c).fresh hfresh).1] at hsched
          have hoff : ¬(s.napi c).phase.Off := by
            simp only [NapiGuard, NapiDev.ScanOk, hrun] at hguard
            exact hguard hdev
          have hactive := NapiPhase.active_of hfresh hoff
          intro d
          apply (h d).scanPick
          · intro hmem
            by_cases hd : d = c
            · simp [hd]
            · exact List.mem_append_left _ ((List.mem_erase_of_ne hd).mpr hmem)
          · rintro rfl
            exact hactive
      · next hpass =>
          cases hscan
          intro d
          apply NapiCtx.Ok.scanPass (hrun ▸ h d)
          rintro rfl
          exact hpass
  · exact absurd hscan (by simp)

theorem NapiInv.step (h : NapiInv s) (hguard : NapiGuard s op) (hstep : NapiStep s op t) :
    NapiInv t := by
  unfold NapiStep at hstep
  cases op with
  | backupScan => exact h.scan hguard hstep
  | backupStart =>
    obtain ⟨-, ⟨⟩⟩ := Option.ite_none_right_eq_some.mp hstep
    exact fun d => (h d).backupStart
  | backupCall =>
    simp only [NapiDev.next?] at hstep
    split at hstep
    · next c hrun =>
        cases hstep
        exact fun d => NapiCtx.Ok.backupCall (hrun ▸ h d)
    · cases hstep
  | backupReturn =>
    simp only [NapiDev.next?] at hstep
    split at hstep
    · cases hstep
      exact fun d => (h d).backupReturn
    · cases hstep
  -- `netif_napi_add`: until it is done nobody can schedule the context
  | pollInit c created =>
    obtain ⟨hphase, ⟨⟩⟩ := Option.ite_none_right_eq_some.mp hstep
    have hfresh : (s.napi c).phase.Fresh := by simp [hphase, NapiPhase.Fresh]
    have hsched := ((h c).fresh hfresh).1
    apply h.set
    exact (h c).rest (by simp [hphase, NapiPhase.Active]) id _ (fun _ => ⟨hfresh, hsched⟩)
      (fun hoff => hoff.elim) (.inl hfresh) (fun hlinked => hlinked.elim)
  | listAdd c =>
    obtain ⟨⟨hphase, -⟩, ⟨⟩⟩ := Option.ite_none_right_eq_some.mp hstep
    have hfresh : (s.napi c).phase.Fresh := by simp [hphase, NapiPhase.Fresh]
    have hsched := ((h c).fresh hfresh).1
    intro d
    by_cases hd : d = c
    · subst hd
      rw [NapiDev.set_self]
      exact (h d).rest (by simp [hphase, NapiPhase.Active]) id _ (fun _ => ⟨hfresh, hsched⟩)
        (fun hoff => hoff.elim) (.inl hfresh) (fun _ => List.mem_cons_self)
    · simpa [hd] using (h d).link (List.mem_cons_of_mem c)
  | addDone c =>
    obtain ⟨hphase, ⟨⟩⟩ := Option.ite_none_right_eq_some.mp hstep
    have hlinked := (h c).listed (by simp [hphase, NapiPhase.Linked])
    apply h.set
    exact (h c).rest (by simp [hphase, NapiPhase.Active]) id _ (fun hfresh => hfresh.elim)
      (fun _ => rfl) (.inr rfl) (fun _ => hlinked)
  | enable c =>
    obtain ⟨⟨hphase, -⟩, ⟨⟩⟩ := Option.ite_none_right_eq_some.mp hstep
    have hlinked := (h c).listed (by simp [hphase, NapiPhase.Linked])
    exact h.set (NapiCtx.Ok.of_clear trivial rfl (h c).own hlinked)
  | disable c =>
    obtain ⟨hphase, ⟨⟩⟩ := Option.ite_none_right_eq_some.mp hstep
    apply h.set
    have hactive : (s.napi c).phase.Active := by simp [hphase, NapiPhase.Active]
    exact (h c).move (p := .disabling .requested) hactive trivial true
  -- `napi_disable` does not have the bit before `takeSched`
  | checkState c =>
    obtain ⟨hphase, ⟨⟩⟩ := Option.ite_none_right_eq_some.mp hstep
    apply h.set
    apply (h c).move (by simp [hphase, NapiPhase.Active]) _ (s.napi c).disable
    split <;> exact trivial
  | takeSched c =>
    obtain ⟨hphase, ⟨⟩⟩ := Option.ite_none_right_eq_some.mp hstep
    have hactive : (s.napi c).phase.Active := by simp [hphase, NapiPhase.Active]
    apply h.set
    cases hsched : (s.napi c).sched with
    -- the poll has the bit, and the world sleeps
    | true => simpa [hsched] using (h c).move hactive (p := .disabling .asleep) trivial _
    | false => simpa using (h c).take hactive (hguard hsched).1 (hguard hsched).2
  | wake c =>
    obtain ⟨hphase, ⟨⟩⟩ := Option.ite_none_right_eq_some.mp hstep
    apply h.set
    have hactive : (s.napi c).phase.Active := by simp [hphase, NapiPhase.Active]
    exact (h c).move (p := .disabling .requested) hactive trivial true
  | disabled c =>
    obtain ⟨hphase, ⟨⟩⟩ := Option.ite_none_right_eq_some.mp hstep
    have hlinked := (h c).listed (by simp [hphase, NapiPhase.Linked])
    have hsched := (h c).off (by simp [hphase, NapiPhase.Off])
    apply h.set
    exact (h c).rest (by simp [hphase, NapiPhase.Active]) id false (fun hfresh => hfresh.elim)
      (fun _ => hsched) (.inr rfl) (fun _ => hlinked)
  | prep c =>
    obtain ⟨⟨hfresh, -⟩, ⟨⟩⟩ := Option.ite_none_right_eq_some.mp hstep
    exact h.set ((h c).prep hfresh _)
  | prepSet c =>
    obtain ⟨hprepped, ⟨⟩⟩ := Option.ite_none_right_eq_some.mp hstep
    split
    -- the bit was set in between, so the scheduling is given up
    · have hfresh : ¬(s.napi c).phase.Fresh := by
        intro hfresh
        have hnone := ((h c).fresh hfresh).2.1
        omega
      exact h.set ((h c).prep hfresh _)
    · next hsched => exact h.setSched hprepped (by simpa using hsched)
  | activate c =>
    obtain ⟨hasked, ⟨⟩⟩ := Option.ite_none_right_eq_some.mp hstep
    exact h.activatePoll hasked
  | pollStart c =>
    obtain ⟨⟨hactivated, -⟩, ⟨⟩⟩ := Option.ite_none_right_eq_some.mp hstep
    exact h.set ((h c).start hactivated)
  | pollTest c =>
    obtain ⟨hrun, ⟨⟩⟩ := Option.ite_none_right_eq_some.mp hstep
    apply h.set
    apply (h c).run_to (by simp [hrun])
    split <;> simp
  | pollCall c =>
    obtain ⟨hrun, ⟨⟩⟩ := Option.ite_none_right_eq_some.mp hstep
    exact h.set ((h c).run_to (by simp [hrun]) (by simp))
  | pollReturn c =>
    obtain ⟨hrun, ⟨⟩⟩ := Option.ite_none_right_eq_some.mp hstep
    exact h.set ((h c).run_to (by simp [hrun]) (by simp))
  | pollEnd c =>
    obtain ⟨hrun, ⟨⟩⟩ := Option.ite_none_right_eq_some.mp hstep
    exact h.set ((h c).finish hrun)
  | complete c =>
    obtain ⟨⟨hpoll, -⟩, ⟨⟩⟩ := Option.ite_none_right_eq_some.mp hstep
    -- `napi_complete` is called by a poll, in a pass or behind it
    have hactive : (s.napi c).phase.Active := by
      rcases hpoll with hrun | hrun
      · exact (h c).active_of_run (.inr (by simp [hrun]))
      · exact (h c).active_of_busy (.inr hrun)
    exact h.set (NapiCtx.Ok.of_clear hactive rfl (h c).own ((h c).listed hactive.linked))

/-! ## What is promised of the contexts -/

/-- The poll function is called on active contexts only; a run that reports that no more polling
    is needed has found none of the active contexts it serves scheduled, and one that was
    scheduled behind its test causes another run; and an active context that is scheduled has its
    poll activated, running or about to be activated. -/
structure NapiPromise (s : NapiDev ι) : Prop where
  polled : ∀ op t c, NapiStep s op t → s.polls op = some c → (s.napi c).phase.Active
  done : ∀ op t c, NapiStep s op t → s.report op = some false → s.Serves op c →
    (s.napi c).phase.Active → (s.napi c).sched = true →
      (∃ late, s.run = .scanning late [] ∧ c ∈ late) ∧
        (t.activated = true ∨ 0 < (t.napi c).activating)
  scheduled : ∀ c, (s.napi c).phase.Active → (s.napi c).sched = true →
    s.PollActive c ∨ 0 < (s.napi c).activating

theorem NapiInv.polled (h : NapiInv s) (hstep : NapiStep s op t) (hpolls : s.polls op = some c) :
    (s.napi c).phase.Active := by
  unfold NapiDev.polls at hpolls
  split at hpolls
  · -- `napi_poll` of the context
    cases hpolls
    simp only [NapiStep, NapiDev.next?, Option.ite_none_right_eq_some] at hstep
    exact (h _).active_of_run (.inr (by simp [hstep.1]))
  · next hrun =>
      cases hpolls
      exact (h _).active_of_busy (.inl hrun)
  · cases hpolls

theorem NapiInv.done (h : NapiInv s) (hstep : NapiStep s op t) (hreport : s.report op = some false)
    (hserves : s.Serves op c) (hactive : (s.napi c).phase.Active)
    (hsched : (s.napi c).sched = true) :
    (∃ late, s.run = .scanning late [] ∧ c ∈ late) ∧
      (t.activated = true ∨ 0 < (t.napi c).activating) := by
  unfold NapiDev.report at hreport
  split at hreport
  · obtain rfl : c = _ := hserves
    simp [hsched] at hreport
  · next late hrun =>
      have hdev : (s.napi c).devPoll = true := hserves
      have ht : t = { s with run := .idle } := by
        simpa [NapiStep, NapiDev.next?, NapiDev.scan, hrun] using hstep.symm
      constructor
      · have hbehind := (h c).behind hactive hsched hdev late [] hrun
        exact ⟨late, hrun, by simpa using hbehind⟩
      · have hkept := (h c).keptBackup hactive hsched hdev
        simpa [ht, hrun, BackupRun.WillTest] using hkept
  · cases hreport
  · cases hreport

theorem not_napiPromise_of_picked (hpicked : s.run = .picked c) (hoff : (s.napi c).phase.Off) :
    ¬NapiPromise s := by
  intro hpromise
  have hstep : NapiStep s .backupCall { s with run := .polling c } := by
    simp [NapiStep, NapiDev.next?, hpicked]
  have hpolls : s.polls .backupCall = some c := by simp [NapiDev.polls, hpicked]
  exact (hpromise.polled _ _ c hstep hpolls).not_off hoff

/-- A run in which each scan and each `napi_disable` meets the guard keeps what is promised. -/
theorem napiPromise_of_run {ops : List (NapiOp ι)}
    (hrun : Run (Guarded NapiStep NapiGuard) {} ops s) : NapiPromise s := by
  have hinv : NapiInv s := by
    apply hrun.invariant _ NapiInv.init
    exact fun s op t h hstep => h.step hstep.1 hstep.2
  constructor
  · exact fun op t c hstep hpolls => hinv.polled hstep hpolls
  · exact fun op t c hstep hreport hserves hactive hsched =>
      hinv.done hstep hreport hserves hactive hsched
  · exact fun c hactive hsched => hinv.scheduled hactive hsched

/-- One context has a poll of its own and one the backup poll: both are enabled, scheduled and
    polled, and then disabled. -/
def pairOps : List (NapiOp Nat) :=
  [.pollInit 0 true, .listAdd 0, .addDone 0, .enable 0, .pollInit 1 false, .listAdd 1, .addDone 1,
    .enable 1, .prep 0, .prep 1, .prepSet 0, .prepSet 1, .activate 0, .activate 1, .pollStart 0,
    .backupStart, .backupScan, .pollTest 0, .pollCall 0, .backupCall, .complete 1, .complete 0,
    .backupReturn, .pollReturn 0, .pollEnd 0, .disable 0, .checkState 0, .takeSched 0, .disabled 0,
    .backupStart, .backupScan, .disable 1, .checkState 1, .backupScan, .backupScan, .wake 1,
    .checkState 1, .takeSched 1, .disabled 1]

theorem napiPromise_pair : ∃ s, Run (Guarded NapiStep NapiGuard) {} pairOps s ∧
    (s.napi 1).phase = .parked ∧ NapiPromise s := by
  have hsome : ((Run.exec (fun s op => if NapiGuard s op then s.next? op else none) {}
      pairOps).map fun s => (s.napi 1).phase) = some .parked := by
    decide
  obtain ⟨s, hexec, hphase⟩ := Option.map_eq_some_iff.mp hsome
  have hrun := (Run.exec_eq_some_iff (guarded_eq_some_iff fun _ _ _ => Iff.rfl)).mp hexec
  exact ⟨s, hrun, hphase, napiPromise_of_run hrun⟩

def addedOps : List (NapiOp Nat) :=
  [.pollInit 0 false, .listAdd 0, .addDone 0, .enable 0, .prep 0, .prepSet 0, .activate 0,
    .pollInit 1 false, .listAdd 1, .addDone 1, .backupStart, .backupScan]

/-- The backup poll takes a context for scheduled that was never enabled. -/
theorem napi_addedPolled : ∃ s, Run NapiStep {} addedOps s ∧
    (s.napi 1).phase = .parked ∧ s.polls .backupCall = some 1 ∧ ¬NapiPromise s := by
  have hsome : ((Run.exec NapiDev.next? {} addedOps).map fun s => ((s.napi 1).phase, s.run)) =
      some (.parked, .picked 1) := by
    decide
  obtain ⟨s, hexec, hs⟩ := Option.map_eq_some_iff.mp hsome
  obtain ⟨hphase, hpicked⟩ := Prod.mk.inj hs
  have hrun := (Run.exec_eq_some_iff (T := NapiStep) fun _ _ _ => Iff.rfl).mp hexec
  have hpolls : s.polls .backupCall = some 1 := by simp [NapiDev.polls, hpicked]
  refine ⟨s, hrun, hphase, hpolls, ?_⟩
  apply not_napiPromise_of_picked hpicked
  simp [hphase, NapiPhase.Off]

end Run

end VmkDrivers.Vmklinux
