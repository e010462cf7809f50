/-
  VmkDrivers.Vmklinux.PortEvents

  The callbacks for port events (`vmklnx_register_event_callback`, `LinNetVswitch_cb`,
  `LinNetEvent_cb_workq` and `vmklnx_unregister_event_callback` in `linux_net.c`).

  An event is put at the front of a shared list.  The worker moves the list to a list of
  its own, which turns it round, counts a reference for each event, and calls the driver.
  The unregistration takes the events of its registration off the shared list, and waits
  for the worker if there are references.

  Three steps go wrong: the lookup of the uplink fails and its task is forgotten; the
  unregistration takes a task off the list without freeing it; and the registration is
  freed although `vmk_UplinkUnregisterEventCB` failed.  In runs without such steps the
  callbacks are ordered, final, and leak nothing (`events_safe_of_run`).
-/

import VmkDrivers.Lib.Transition

namespace VmkDrivers.Vmklinux

open VmkDrivers.Lib

/-! ## The parties -/

/-- A `LinNetEventCB_Task`: the number of its allocation, and its `LinNetEventCB`. -/
structure EvTask where
  id : Nat
  cb : Nat
deriving DecidableEq, Repr

/-- Where a `LinNetEventCB` is in its life; the unregistration has called
    `vmk_UplinkUnregisterEventCB`, left the section of the lock, seen references while the
    worker was in its `k`-th run, seen that none is left, and returned. -/
inductive EvCbPhase
  | unused
  | registered
  | unregistered
  | swept
  | flushing (k : Nat)
  | unreferenced
  | freed
deriving DecidableEq, Repr

/-- `LinNetEvent_cb_workq`: between two tasks, in `devCB`, at `cb_cleanup`, and behind
    `vmk_AtomicDec64`. -/
inductive EvWorker
  | idle
  | next
  | calling
  | cleanup
  | released
deriving DecidableEq, Repr

structure EvState where
  /-- `LinNetEventCB_WorkQ_List`, the newest task first. -/
  queue : List EvTask := []
  /-- `temp_list` -/
  temp : List EvTask := []
  worker : EvWorker := .idle
  runs : Nat := 0
  /-- `LinNetEventCB_Work` is queued. -/
  pending : Bool := false
  /-- `LinNetVswitch_cb` behind its allocation, behind the lookup, and behind the lock. -/
  starting : List EvTask := []
  ready : List EvTask := []
  adding : List EvTask := []
  /-- The vmkernel calls `LinNetVswitch_cb` with this context. -/
  hooked : Nat → Bool := fun _ => false
  phase : Nat → EvCbPhase := fun _ => .unused
  refCount : Nat → Nat := fun _ => 0
  -- what happened
  allocated : List EvTask := []
  freed : List EvTask := []
  queued : List EvTask := []
  called : List EvTask := []
  /-- A freed `LinNetEventCB` was read or written. -/
  touchedFreed : Bool := false

/-- The steps: of `LinNetVswitch_cb` for a task, of the worker, and of the registration and
    unregistration of a `LinNetEventCB`. -/
inductive EvStep
  | register (r : Nat)
  /-- `kzalloc`; without memory the event is gone before it is there. -/
  | cbStart (r : Nat)
  /-- `vmk_UplinkGetByName` -/
  | cbLookup (t : EvTask) (ok : Bool)
  | cbUnsupported (t : EvTask)
  | cbAdd (t : EvTask)
  | cbQueueWork (t : EvTask)
  | workerTake
  /-- The next task; `found` tells if the port has an address. -/
  | workerNext (found : Bool)
  | workerReturn
  | workerDec
  | workerFree
  /-- `vmk_UplinkUnregisterEventCB` -/
  | unregister (r : Nat) (ok : Bool)
  /-- The section of the lock. -/
  | sweep (r : Nat)
  /-- `vmk_AtomicRead64` -/
  | readRef (r : Nat)
  /-- `flush_workqueue` returns. -/
  | flushed (r : Nat)
  | freeCb (r : Nat)
deriving DecidableEq, Repr

namespace EvState

variable (s : EvState)

/-- The event callback of `r` goes on to `p`. -/
def setPhase (r : Nat) (p : EvCbPhase) : Nat → EvCbPhase := Function.update s.phase r p

/-- `list_for_each_entry_safe` over the shared list: each task gets a reference, and goes to
    the front of `temp_list`. -/
def take : EvState :=
  { s with
    worker := .next
    runs := s.runs + 1
    pending := false
    temp := s.queue.reverse ++ s.temp
    queue := []
    refCount := fun r => s.refCount r + s.queue.countP (·.cb = r)
    touchedFreed := s.touchedFreed || s.queue.any fun t => s.phase t.cb = .freed }

def workerNext (found : Bool) : EvState :=
  match s.temp with
  | [] => { s with worker := .idle }
  | t :: _ =>
    if found then
      { s with
        worker := .calling
        called := s.called ++ [t]
        touchedFreed := s.touchedFreed || s.phase t.cb = .freed }
    else { s with worker := .cleanup }

def next? : EvStep → Option EvState
  | .register r =>
    if s.phase r = .unused then
      some { s with
        hooked := Function.update s.hooked r true, phase := s.setPhase r .registered }
    else none
  | .cbStart r =>
    if s.hooked r then
      let t : EvTask := ⟨s.allocated.length, r⟩
      some { s with starting := t :: s.starting, allocated := s.allocated ++ [t] }
    else none
  | .cbLookup t ok =>
    if t ∈ s.starting then
      some { s with
        starting := s.starting.erase t, ready := if ok then t :: s.ready else s.ready }
    else none
  | .cbUnsupported t =>
    if t ∈ s.ready then some { s with ready := s.ready.erase t, freed := t :: s.freed } else none
  | .cbAdd t =>
    if t ∈ s.ready then
      some { s with
        ready := s.ready.erase t
        adding := t :: s.adding
        queue := t :: s.queue
        queued := s.queued ++ [t] }
    else none
  | .cbQueueWork t =>
    if t ∈ s.adding then some { s with adding := s.adding.erase t, pending := true } else none
  | .workerTake => if s.worker = .idle ∧ s.pending = true then some s.take else none
  | .workerNext found => if s.worker = .next then some (s.workerNext found) else none
  | .workerReturn => if s.worker = .calling then some { s with worker := .cleanup } else none
  | .workerDec =>
    match s.worker, s.temp with
    | .cleanup, t :: _ =>
      some { s with
        worker := .released
        refCount := Function.update s.refCount t.cb (s.refCount t.cb - 1)
        touchedFreed := s.touchedFreed || s.phase t.cb = .freed }
    | _, _ => none
  | .workerFree =>
    match s.worker, s.temp with
    | .released, t :: ts => some { s with worker := .next, temp := ts, freed := t :: s.freed }
    | _, _ => none
  | .unregister r ok =>
    -- a success lets no callback of `r` be running, or start
    if s.phase r = .registered ∧ (ok = true → ∀ t ∈ s.starting ++ s.ready ++ s.adding, t.cb ≠ r) then
      some { s with
        hooked := if ok then Function.update s.hooked r false else s.hooked
        phase := s.setPhase r .unregistered }
    else none
  | .sweep r =>
    if s.phase r = .unregistered then
      some { s with queue := s.queue.filter (·.cb ≠ r), phase := s.setPhase r .swept }
    else none
  | .readRef r =>
    if s.phase r = .swept then
      some { s with
        phase := s.setPhase r (if s.refCount r ≠ 0 then .flushing s.runs else .unreferenced) }
    else none
  | .flushed r =>
    match s.phase r with
    | .flushing k =>
      if s.worker = .idle ∨ s.runs ≠ k then some { s with phase := s.setPhase r .unreferenced }
      else none
    | _ => none
  | .freeCb r =>
    if s.phase r = .unreferenced then some { s with phase := s.setPhase r .freed } else none

end EvState

def EvMove (s : EvState) (e : EvStep) (s' : EvState) : Prop := s.next? e = some s'

/-! ## The claim -/

def EvState.Quiet (s : EvState) : Prop :=
  s.worker = .idle ∧ s.pending = false ∧ s.starting = [] ∧ s.ready = [] ∧ s.adding = []

structure EventsSafe (s : EvState) : Prop where
  /-- The calls for a registration are for its events, in the order in which they were queued,
      and for each once. -/
  ordered : ∀ r, (s.called.filter (·.cb = r)).Sublist (s.queued.filter (·.cb = r))
  distinct : s.queued.Nodup
  /-- No call is made, or going on, for a registration whose unregistration returned. -/
  final : s.worker = .calling → ∀ t ∈ s.temp.head?, s.phase t.cb ≠ .freed
  memory : s.touchedFreed = false
  /-- No task is freed twice, and one that is not freed has an owner. -/
  freedOnce : s.freed.Nodup ∧ s.freed ⊆ s.allocated
  owned : ∀ t ∈ s.allocated, t ∈ s.freed ∨ t ∈ s.temp ∨ t ∈ s.queue ∨ t ∈ s.ready ∨ t ∈ s.starting
  complete : s.Quiet → s.allocated.Perm s.freed

def EvGood (s : EvState) : EvStep → Prop
  | .cbLookup _ ok => ok = true
  | .unregister _ ok => ok = true
  | .sweep r => ∀ t ∈ s.queue, t.cb ≠ r
  | _ => True

/-! ## The invariant -/

namespace EvState

variable (s : EvState)

def held : List EvTask :=
  match s.worker with
  | .released => s.temp.tail
  | _ => s.temp

def current : List EvTask :=
  match s.worker with
  | .idle | .next => []
  | _ => s.temp.take 1

end EvState

/-- A task of the worker keeps its registration, until a flush that waits for this run. -/
def EvCbPhase.Keeps (runs : Nat) : EvCbPhase → Prop
  | .registered | .unregistered | .swept => True
  | .flushing k => k = runs
  | _ => False

structure EvInv (s : EvState) : Prop where
  hooked : ∀ r, s.hooked r = true → s.phase r = .registered
  running : ∀ t ∈ s.starting ++ s.ready ++ s.adding, s.phase t.cb = .registered
  queue : ∀ t ∈ s.queue, s.phase t.cb = .registered ∨ s.phase t.cb = .unregistered
  held : ∀ t ∈ s.held, (s.phase t.cb).Keeps s.runs
  refCount : ∀ r, s.refCount r = s.held.countP (·.cb = r)
  idle : s.worker = .idle → s.temp = []
  /-- The events of the past, those of the worker, and the list from its back. -/
  order : ∃ done dropped, s.queued = done ++ (s.temp ++ s.queue.reverse) ∧
    s.called.Sublist (done ++ s.current) ∧ s.freed.Perm (done ++ dropped)
  tasks : s.allocated.Perm (s.freed ++ (s.temp ++ (s.queue ++ (s.ready ++ s.starting))))
  fresh : s.allocated.Nodup ∧ ∀ t ∈ s.allocated, t.id < s.allocated.length
  pending : s.queue ≠ [] → s.pending = true ∨ s.adding ≠ []
  memory : s.touchedFreed = false

theorem evInv_init : EvInv {} where
  hooked := nofun
  running := nofun
  queue := nofun
  held := nofun
  refCount _ := rfl
  idle _ := rfl
  order := ⟨[], [], rfl, .slnil, .nil⟩
  tasks := .nil
  fresh := ⟨.nil, nofun⟩
  pending h := absurd rfl h
  memory := rfl

/-! ## Steps -/

section Steps

variable {s s' : EvState} {r : Nat} {t : EvTask} {p : EvCbPhase} {ts : List EvTask}

theorem setPhase_apply (r' : Nat) (p : EvCbPhase) :
    s.setPhase r p r' = if r' = r then p else s.phase r' := Function.update_apply ..

theorem EvInv.withPhase {hooked : Nat → Bool} (h : EvInv s)
    (hhooked : ∀ r', hooked r' = true → s.setPhase r p r' = .registered)
    (hrunning : ∀ t ∈ s.starting ++ s.ready ++ s.adding, t.cb = r → p = .registered)
    (hqueue : ∀ t ∈ s.queue, t.cb = r → p = .registered ∨ p = .unregistered)
    (hheld : ∀ t ∈ s.held, t.cb = r → p.Keeps s.runs) :
    EvInv { s with hooked, phase := s.setPhase r p } :=
  { h with
    hooked := hhooked
    running := fun t ht => by
      change s.setPhase r p t.cb = _
      rw [setPhase_apply]
      split_ifs with hr
      · exact hrunning t ht hr
      · exact h.running t ht
    queue := fun t ht => by
      change s.setPhase r p t.cb = _ ∨ s.setPhase r p t.cb = _
      rw [setPhase_apply]
      split_ifs with hr
      · exact hqueue t ht hr
      · exact h.queue t ht
    held := fun t ht => by
      change (s.setPhase r p t.cb).Keeps s.runs
      rw [setPhase_apply]
      split_ifs with hr
      · exact hheld t ht hr
      · exact h.held t ht }

theorem EvInv.withLaterPhase (h : EvInv s) (hr : s.phase r ≠ .registered)
    (hqueue : ∀ t ∈ s.queue, t.cb ≠ r) (hheld : ∀ t ∈ s.held, t.cb = r → p.Keeps s.runs) :
    EvInv { s with phase := s.setPhase r p } := by
  refine h.withPhase (fun r' hr' => ?_) (fun t ht htr => ?_)
    (fun t ht htr => absurd htr (hqueue t ht)) hheld
  · have hphase := h.hooked r' hr'
    rw [setPhase_apply, if_neg]
    · exact hphase
    · rintro rfl
      exact hr hphase
  · exact absurd (htr ▸ h.running t ht) hr

theorem EvInv.register (h : EvInv s) :
    EvInv { s with
      hooked := Function.update s.hooked r true, phase := s.setPhase r .registered } := by
  refine h.withPhase (fun r' hr' => ?_) (fun _ _ _ => rfl) (fun _ _ _ => .inl rfl)
    fun _ _ _ => trivial
  rw [setPhase_apply]
  split_ifs with heq
  · rfl
  · rw [Function.update_of_ne heq] at hr'
    exact h.hooked r' hr'

theorem EvInv.cbStart (h : EvInv s) (hr : s.hooked r = true) :
    EvInv { s with
      starting := ⟨s.allocated.length, r⟩ :: s.starting
      allocated := s.allocated ++ [⟨s.allocated.length, r⟩] } :=
  { h with
    running := fun t ht => by
      rcases List.mem_cons.mp (show t ∈ _ :: (s.starting ++ s.ready ++ s.adding) from ht) with
        rfl | ht
      · exact h.hooked r hr
      · exact h.running t ht
    tasks := by
      refine (List.perm_append_singleton _ _).trans ((h.tasks.cons _).trans ?_)
      rw [← List.append_assoc, ← List.append_assoc, ← List.append_assoc, ← List.append_assoc,
        ← List.append_assoc, ← List.append_assoc]
      exact List.perm_middle.symm
    fresh := by
      obtain ⟨hnodup, hlt⟩ := h.fresh
      refine ⟨List.nodup_append.mpr ⟨hnodup, List.nodup_singleton _, fun a ha b hb => ?_⟩,
        fun t ht => ?_⟩
      · rw [List.mem_singleton.mp hb]
        rintro rfl
        exact absurd (hlt _ ha) (Nat.lt_irrefl _)
      · rw [List.length_append, List.length_singleton]
        rcases List.mem_append.mp ht with ht | ht
        · exact Nat.lt_succ_of_lt (hlt t ht)
        · rw [List.mem_singleton.mp ht]
          exact Nat.lt_succ_self _ }

theorem EvInv.cbLookup (h : EvInv s) (ht : t ∈ s.starting) :
    EvInv { s with starting := s.starting.erase t, ready := t :: s.ready } :=
  { h with
    running := fun a ha => by
      refine h.running a ?_
      simp only [List.mem_append, List.mem_cons] at ha ⊢
      rcases ha with (ha | rfl | ha) | ha
      · exact .inl (.inl (List.mem_of_mem_erase ha))
      · exact .inl (.inl ht)
      · exact .inl (.inr ha)
      · exact .inr ha
    tasks := by
      refine h.tasks.trans ?_
      iterate 3 refine .append_left _ ?_
      exact ((List.perm_cons_erase ht).append_left _).trans List.perm_middle }

theorem EvInv.cbUnsupported (h : EvInv s) (ht : t ∈ s.ready) :
    EvInv { s with ready := s.ready.erase t, freed := t :: s.freed } :=
  { h with
    running := fun a ha => by
      refine h.running a ?_
      simp only [List.mem_append] at ha ⊢
      rcases ha with (ha | ha) | ha
      · exact .inl (.inl ha)
      · exact .inl (.inr (List.mem_of_mem_erase ha))
      · exact .inr ha
    order := by
      obtain ⟨done, dropped, hqueued, hcalled, hfreed⟩ := h.order
      exact ⟨done, t :: dropped, hqueued, hcalled, (hfreed.cons t).trans List.perm_middle.symm⟩
    tasks := by
      refine List.perm_iff_count.mpr fun a => ?_
      have htasks := h.tasks.count_eq a
      have hready := (List.perm_cons_erase ht).count_eq a
      simp only [List.count_append, List.count_cons] at htasks hready ⊢
      omega }

theorem EvInv.cbAdd (h : EvInv s) (ht : t ∈ s.ready) :
    EvInv { s with
      ready := s.ready.erase t
      adding := t :: s.adding
      queue := t :: s.queue
      queued := s.queued ++ [t] } :=
  have hphase : s.phase t.cb = .registered := h.running t (by simp [ht])
  { h with
    running := fun a ha => by
      simp only [List.mem_append, List.mem_cons] at ha
      rcases ha with (ha | ha) | rfl | ha
      · exact h.running a (by simp [ha])
      · exact h.running a (by simp [List.mem_of_mem_erase ha])
      · exact hphase
      · exact h.running a (by simp [ha])
    queue := List.forall_mem_cons.mpr ⟨.inl hphase, h.queue⟩
    order := by
      obtain ⟨done, dropped, hqueued, hcalled, hfreed⟩ := h.order
      refine ⟨done, dropped, ?_, hcalled, hfreed⟩
      rw [hqueued, List.reverse_cons, List.append_assoc, List.append_assoc]
    tasks := by
      refine List.perm_iff_count.mpr fun a => ?_
      have htasks := h.tasks.count_eq a
      have hready := (List.perm_cons_erase ht).count_eq a
      simp only [List.count_append, List.count_cons] at htasks hready ⊢
      omega
    pending := fun _ => .inr (List.cons_ne_nil _ _) }

theorem EvInv.cbQueueWork (h : EvInv s) :
    EvInv { s with adding := s.adding.erase t, pending := true } :=
  { h with
    running := fun a ha => by
      refine h.running a ?_
      simp only [List.mem_append] at ha ⊢
      exact ha.imp_right List.mem_of_mem_erase
    pending := fun _ => .inl rfl }

theorem EvInv.take (h : EvInv s) (hidle : s.worker = .idle) : EvInv s.take :=
  have htemp : s.temp = [] := h.idle hidle
  have hlive (t : EvTask) (ht : t ∈ s.queue) : (s.phase t.cb).Keeps (s.runs + 1) := by
    rcases h.queue t ht with hp | hp <;> rw [hp] <;> trivial
  { h with
    queue := nofun
    held := fun t ht => by
      rw [show s.take.held = s.queue.reverse ++ s.temp from rfl, htemp, List.append_nil] at ht
      exact hlive t (List.mem_reverse.mp ht)
    refCount := fun r => by
      have hzero : s.refCount r = 0 := by
        rw [h.refCount, EvState.held, hidle, htemp]
        rfl
      change s.refCount r + _ = (s.queue.reverse ++ s.temp).countP _
      rw [hzero, htemp, Nat.zero_add, List.append_nil, List.countP_reverse]
    idle := nofun
    order := by
      obtain ⟨done, dropped, hqueued, hcalled, hfreed⟩ := h.order
      refine ⟨done, dropped, ?_, ?_, hfreed⟩
      · rw [htemp] at hqueued
        simpa [EvState.take, htemp] using hqueued
      · rw [EvState.current, hidle] at hcalled
        exact hcalled
    tasks := by
      refine h.tasks.trans (.append_left _ ?_)
      change (s.temp ++ (s.queue ++ _)).Perm ((s.queue.reverse ++ s.temp) ++ ([] ++ _))
      rw [htemp, List.append_nil]
      exact (List.reverse_perm s.queue).symm.append_right _
    pending := fun hne => absurd rfl hne
    memory := by
      have hnone : (s.queue.any fun t => s.phase t.cb = .freed) = false := by
        rw [List.any_eq_false]
        intro t ht hfreed
        have hp := hlive t ht
        rw [of_decide_eq_true hfreed] at hp
        exact hp
      change (s.touchedFreed || _) = false
      rw [h.memory, hnone]
      rfl }

theorem EvInv.withWorker (w : EvWorker) (called : List EvTask) (h : EvInv s)
    (hheld : EvState.held { s with worker := w } = s.held) (hidle : w = .idle → s.temp = [])
    (hcalled : ∀ done, s.called.Sublist (done ++ s.current) →
      called.Sublist (done ++ EvState.current { s with worker := w })) :
    EvInv { s with worker := w, called } :=
  { h with
    held := fun t ht => h.held t (hheld ▸ ht)
    refCount := fun r => (h.refCount r).trans (by rw [← hheld]; rfl)
    idle := hidle
    order := by
      obtain ⟨done, dropped, hqueued, hsub, hfreed⟩ := h.order
      exact ⟨done, dropped, hqueued, hcalled done hsub, hfreed⟩ }

theorem workerNext_nil {found : Bool} (htemp : s.temp = []) :
    s.workerNext found = { s with worker := .idle } := by
  unfold EvState.workerNext
  split
  · rfl
  · next heq => exact nomatch htemp.symm.trans heq

theorem workerNext_cons {found : Bool} (htemp : s.temp = t :: ts) :
    s.workerNext found =
      if found then
        { s with
          worker := .calling
          called := s.called ++ [t]
          touchedFreed := s.touchedFreed || s.phase t.cb = .freed }
      else { s with worker := .cleanup } := by
  unfold EvState.workerNext
  split
  · next heq => exact nomatch htemp.symm.trans heq
  · next heq =>
    cases htemp.symm.trans heq
    rfl

theorem EvInv.untouched (h : EvInv s) (ht : t ∈ s.held) :
    (s.touchedFreed || decide (s.phase t.cb = .freed)) = false := by
  have hphase := h.held t ht
  rw [h.memory, Bool.false_or, decide_eq_false_iff_not]
  intro hfreed
  rw [hfreed] at hphase
  exact hphase

theorem EvInv.workerNext (h : EvInv s) (hnext : s.worker = .next) (found : Bool) :
    EvInv (s.workerNext found) := by
  have hheld : s.held = s.temp := by rw [EvState.held, hnext]
  have hcurrent : s.current = [] := by rw [EvState.current, hnext]
  rcases htemp : s.temp with _ | ⟨t, ts⟩
  · rw [workerNext_nil htemp]
    refine h.withWorker .idle _ hheld.symm (fun _ => htemp) fun done hsub => ?_
    rwa [hcurrent] at hsub
  · rw [workerNext_cons htemp]
    cases found with
    | false =>
      refine h.withWorker .cleanup _ hheld.symm nofun fun done hsub => ?_
      rw [hcurrent, List.append_nil] at hsub
      exact hsub.trans (List.sublist_append_left ..)
    | true =>
      have hcall := h.withWorker .calling (s.called ++ [t]) hheld.symm nofun
        fun done hsub => by
          rw [hcurrent, List.append_nil] at hsub
          rw [htemp]
          exact hsub.append (.refl _)
      exact { hcall with
        memory := h.untouched (by rw [hheld, htemp]; exact List.mem_cons_self) }

theorem EvInv.workerReturn (h : EvInv s) (hcalling : s.worker = .calling) :
    EvInv { s with worker := .cleanup } := by
  have hheld : s.held = s.temp := by rw [EvState.held, hcalling]
  have hcurrent : s.current = s.temp.take 1 := by rw [EvState.current, hcalling]
  exact h.withWorker _ _ hheld.symm nofun fun done hsub => by rwa [hcurrent] at hsub

theorem EvInv.workerDec (h : EvInv s) (hcleanup : s.worker = .cleanup) (htemp : s.temp = t :: ts) :
    EvInv { s with
      worker := .released
      refCount := Function.update s.refCount t.cb (s.refCount t.cb - 1)
      touchedFreed := s.touchedFreed || s.phase t.cb = .freed } :=
  have hheld : s.held = t :: ts := by rw [EvState.held, hcleanup, htemp]
  have hheld' : EvState.held { s with worker := .released } = ts := by
    change s.temp.tail = ts
    rw [htemp, List.tail_cons]
  { h with
    held := fun a ha => h.held a (hheld ▸ List.mem_cons_of_mem t (hheld' ▸ ha))
    refCount := fun r => by
      change Function.update s.refCount t.cb _ r =
        (EvState.held { s with worker := .released }).countP _
      have hcount := h.refCount r
      rw [hheld, List.countP_cons] at hcount
      rw [hheld', Function.update_apply]
      split_ifs with hr
      · subst hr
        rw [hcount]
        simp
      · have : t.cb ≠ r := fun h => hr h.symm
        simpa [this] using hcount
    idle := nofun
    order := by
      obtain ⟨done, dropped, hqueued, hsub, hfreed⟩ := h.order
      rw [EvState.current, hcleanup] at hsub
      exact ⟨done, dropped, hqueued, hsub, hfreed⟩
    memory := h.untouched (by rw [hheld]; exact List.mem_cons_self) }

theorem EvInv.workerFree (h : EvInv s) (hreleased : s.worker = .released)
    (htemp : s.temp = t :: ts) :
    EvInv { s with worker := .next, temp := ts, freed := t :: s.freed } :=
  have hheld : s.held = ts := by rw [EvState.held, hreleased, htemp, List.tail_cons]
  { h with
    held := fun a ha => h.held a (hheld ▸ ha)
    refCount := fun r => (h.refCount r).trans (by rw [hheld]; rfl)
    idle := nofun
    order := by
      obtain ⟨done, dropped, hqueued, hsub, hfreed⟩ := h.order
      rw [htemp] at hqueued
      rw [EvState.current, hreleased, htemp] at hsub
      refine ⟨done ++ [t], dropped, by simp [hqueued], hsub.trans (by simp [EvState.current]), ?_⟩
      refine (hfreed.cons t).trans ?_
      rw [List.append_assoc]
      exact List.perm_middle.symm
    tasks := by
      refine List.perm_iff_count.mpr fun a => ?_
      have htasks := h.tasks.count_eq a
      rw [htemp] at htasks
      simp only [List.count_append, List.count_cons] at htasks ⊢
      omega }

/-- **One step** that does not go wrong. -/
theorem EvInv.step {e : EvStep} (h : EvInv s) (hgood : EvGood s e) (hmove : EvMove s e s') :
    EvInv s' := by
  unfold EvMove EvState.next? at hmove
  cases e with
  | register r =>
    dsimp only at hmove
    split_ifs at hmove
    cases hmove
    exact h.register
  | cbStart r =>
    dsimp only at hmove
    split_ifs at hmove with hr
    cases hmove
    exact h.cbStart hr
  | cbLookup t ok =>
    obtain rfl : ok = true := hgood
    dsimp only at hmove
    by_cases ht : t ∈ s.starting
    · rw [if_pos ht] at hmove
      cases hmove
      exact h.cbLookup ht
    · rw [if_neg ht] at hmove
      cases hmove
  | cbUnsupported t =>
    dsimp only at hmove
    split_ifs at hmove with ht
    cases hmove
    exact h.cbUnsupported ht
  | cbAdd t =>
    dsimp only at hmove
    split_ifs at hmove with ht
    cases hmove
    exact h.cbAdd ht
  | cbQueueWork t =>
    dsimp only at hmove
    split_ifs at hmove
    cases hmove
    exact h.cbQueueWork
  | workerTake =>
    dsimp only at hmove
    split_ifs at hmove with hidle
    cases hmove
    exact h.take hidle.1
  | workerNext found =>
    dsimp only at hmove
    split_ifs at hmove with hnext
    cases hmove
    exact h.workerNext hnext found
  | workerReturn =>
    dsimp only at hmove
    split_ifs at hmove with hcalling
    cases hmove
    exact h.workerReturn hcalling
  | workerDec =>
    dsimp only at hmove
    split at hmove <;> cases hmove
    next hworker htemp => exact h.workerDec hworker htemp
  | workerFree =>
    dsimp only at hmove
    split at hmove <;> cases hmove
    next hworker htemp => exact h.workerFree hworker htemp
  | unregister r ok =>
    obtain rfl : ok = true := hgood
    dsimp only at hmove
    by_cases hr : s.phase r = .registered ∧
        (true = true → ∀ t ∈ s.starting ++ s.ready ++ s.adding, t.cb ≠ r)
    · rw [if_pos hr] at hmove
      cases hmove
      refine h.withPhase (fun r' hr' => ?_) (fun t ht htr => absurd htr (hr.2 rfl t ht))
        (fun _ _ _ => .inr rfl) fun _ _ _ => trivial
      rw [if_pos rfl] at hr'
      have hne : r' ≠ r := by
        rintro rfl
        rw [Function.update_self] at hr'
        cases hr'
      rw [Function.update_of_ne hne] at hr'
      rw [setPhase_apply, if_neg hne]
      exact h.hooked r' hr'
    · rw [if_neg hr] at hmove
      cases hmove
  | sweep r =>
    dsimp only at hmove
    split_ifs at hmove with hr
    cases hmove
    have hqueue : s.queue.filter (·.cb ≠ r) = s.queue :=
      List.filter_eq_self.mpr fun t ht => decide_eq_true (hgood t ht)
    rw [hqueue]
    exact h.withLaterPhase (by rw [hr]; nofun) hgood fun _ _ _ => trivial
  | readRef r =>
    dsimp only at hmove
    split_ifs at hmove with hr href
    · cases hmove
      refine h.withLaterPhase (by rw [hr]; nofun) (fun t ht htr => ?_) fun _ _ _ => rfl
      rcases h.queue t ht with hp | hp <;> rw [htr, hr] at hp <;> cases hp
    · cases hmove
      refine h.withLaterPhase (by rw [hr]; nofun) (fun t ht htr => ?_) fun t ht htr => ?_
      · rcases h.queue t ht with hp | hp <;> rw [htr, hr] at hp <;> cases hp
      · -- a task of `r` would have counted
        rw [not_not, h.refCount, List.countP_eq_zero] at href
        exact absurd (decide_eq_true htr) (href t ht)
  | flushed r =>
    dsimp only at hmove
    split at hmove
    · next k hr =>
      split_ifs at hmove with hdone
      cases hmove
      refine h.withLaterPhase (by rw [hr]; nofun) (fun t ht htr => ?_) fun t ht htr => ?_
      · rcases h.queue t ht with hp | hp <;> rw [htr, hr] at hp <;> cases hp
      · -- the run that had tasks of `r` is over
        have hkeeps := h.held t ht
        rw [htr, hr] at hkeeps
        rcases hdone with hidle | hruns
        · rw [EvState.held, hidle, h.idle hidle] at ht
          cases ht
        · exact absurd hkeeps.symm hruns
    · cases hmove
  | freeCb r =>
    dsimp only at hmove
    split_ifs at hmove with hr
    cases hmove
    refine h.withLaterPhase (by rw [hr]; nofun) (fun t ht htr => ?_) fun t ht htr => ?_
    · rcases h.queue t ht with hp | hp <;> rw [htr, hr] at hp <;> cases hp
    · have hkeeps := h.held t ht
      rw [htr, hr] at hkeeps
      exact hkeeps.elim

theorem EvInv.safe (h : EvInv s) : EventsSafe s := by
  obtain ⟨done, dropped, hqueued, hcalled, hfreed⟩ := h.order
  have htasks : (s.freed ++ (s.temp ++ (s.queue ++ (s.ready ++ s.starting)))).Nodup :=
    h.tasks.nodup_iff.mp h.fresh.1
  have hsub : s.called.Sublist s.queued := by
    rw [hqueued]
    refine hcalled.trans (.append_left (.trans ?_ (List.sublist_append_left ..)) _)
    unfold EvState.current
    split
    · exact List.nil_sublist _
    · exact List.nil_sublist _
    · exact List.take_sublist ..
  refine ⟨fun r => hsub.filter _, ?_, fun hcalling t ht hp => ?_, h.memory, ⟨?_, ?_⟩, ?_, ?_⟩
  · -- what was queued is done, or with the worker, or on the list
    refine List.Nodup.of_append_left (?_ : (_ ++ (dropped ++ (s.ready ++ s.starting))).Nodup)
    refine (List.Perm.nodup_iff ?_).mp htasks
    refine List.perm_iff_count.mpr fun a => ?_
    have hcount := hfreed.count_eq a
    simp only [hqueued, List.count_append, List.count_reverse] at hcount ⊢
    omega
  · have hheld : s.held = s.temp := by rw [EvState.held, hcalling]
    have hkeeps := h.held t (by rw [hheld]; exact List.mem_of_mem_head? ht)
    rw [hp] at hkeeps
    exact hkeeps
  · exact htasks.of_append_left
  · exact fun t ht => h.tasks.mem_iff.mpr (List.mem_append_left _ ht)
  · intro t ht
    have := h.tasks.mem_iff.mp ht
    simpa only [List.mem_append] using this
  · rintro ⟨hidle, hpending, hstarting, hready, hadding⟩
    have hqueue : s.queue = [] := by
      by_contra hne
      rcases h.pending hne with hp | hp
      · rw [hpending] at hp
        cases hp
      · exact hp hadding
    simpa [h.idle hidle, hqueue, hready, hstarting] using h.tasks

end Steps

/-- **Port events**: without a lookup that fails, an unregistration that fails, and one that
    takes a task off the list, the callbacks are ordered and final, no freed registration is
    touched, and each task is freed once. -/
theorem events_safe_of_run {s : EvState} {es : List EvStep}
    (hrun : Run (Guarded EvMove EvGood) {} es s) : EventsSafe s :=
  (hrun.invariant (fun _ _ _ h hmove => h.step hmove.1 hmove.2) evInv_init).safe

def flushRun : List EvStep :=
  [.register 0, .cbStart 0, .cbLookup ⟨0, 0⟩ true, .cbAdd ⟨0, 0⟩, .cbQueueWork ⟨0, 0⟩,
    .workerTake, .workerNext true, .unregister 0 true, .sweep 0, .readRef 0, .workerReturn,
    .workerDec, .workerFree, .workerNext true, .flushed 0, .freeCb 0]

theorem events_safe_flushRun :
    ∃ s, Run (Guarded EvMove EvGood) {} flushRun s ∧ s.called = [⟨0, 0⟩] ∧ s.phase 0 = .freed ∧
      EventsSafe s := by
  have hrun : Run (Guarded EvMove EvGood) {} flushRun _ :=
    .cons ⟨trivial, rfl⟩ (.cons ⟨trivial, rfl⟩ (.cons ⟨rfl, rfl⟩ (.cons ⟨trivial, rfl⟩
      (.cons ⟨trivial, rfl⟩ (.cons ⟨trivial, rfl⟩ (.cons ⟨trivial, rfl⟩ (.cons ⟨rfl, rfl⟩
        (.cons ⟨nofun, rfl⟩ (.cons ⟨trivial, rfl⟩ (.cons ⟨trivial, rfl⟩ (.cons ⟨trivial, rfl⟩
          (.cons ⟨trivial, rfl⟩ (.cons ⟨trivial, rfl⟩ (.cons ⟨trivial, rfl⟩
            (.cons ⟨trivial, rfl⟩ (.nil _))))))))))))))))
  exact ⟨_, hrun, rfl, rfl, events_safe_of_run hrun⟩

/-- An uplink that is not found: its task stays allocated. -/
theorem events_unsafe : ¬∀ es s, Run EvMove {} es s → EventsSafe s := by
  intro hall
  have hrun : Run EvMove {} [.register 0, .cbStart 0, .cbLookup ⟨0, 0⟩ false] _ :=
    .cons rfl (.cons rfl (.cons rfl (.nil _)))
  have hcomplete := (hall _ _ hrun).complete ⟨rfl, rfl, rfl, rfl, rfl⟩
  exact absurd hcomplete.length_eq (by decide)

end VmkDrivers.Vmklinux
