/-
  VmkDrivers.Vmklinux.QueueDepth

  The queue depth of a SCSI device, and what the storage stack of the vmkernel is told
  of it (`scsi_adjust_queue_depth`, `scsi_track_queue_full` and
  `vmklnx_scsi_modify_queue_depth` in `linux_scsi_lld_if.c`).

  A call queues a work item that reports the new depth, and stores the depth afterwards.
  The items run one after the other, at any time from then on.  `depth_follows_iff`
  says which calls let the depth that was reported follow the depth of the device.

  The items of other devices on the queue of the host are left out, and so are the locks.
-/

import VmkDrivers.Lib.Transition

namespace VmkDrivers.Vmklinux

open VmkDrivers.Lib

/-! ## The device -/

/-- `struct scsi_device`, as far as its queue depth goes; `cmdPerLun` is that of its host. -/
structure QdepthDevice where
  queueDepth : BitVec 16 := 0
  taggedSupported : Bool := true
  orderedTags : Bool := false
  simpleTags : Bool := false
  lastQueueFullDepth : BitVec 16 := 0
  lastQueueFullCount : BitVec 16 := 0
  lastQueueFullTime : BitVec 64 := 0
  cmdPerLun : BitVec 16 := 1
deriving DecidableEq, Repr

def msgSimpleTag : BitVec 32 := 0x20

def msgHeadTag : BitVec 32 := 0x21

def msgOrderedTag : BitVec 32 := 0x22

def QdepthDevice.scsiGetTagType (sdev : QdepthDevice) : BitVec 32 :=
  if !sdev.taggedSupported then 0
  else if sdev.orderedTags then msgOrderedTag
  else if sdev.simpleTags then msgSimpleTag
  else 0

/-- What follows `skip_qdepth_event`. -/
def QdepthDevice.store (sdev : QdepthDevice) (tagged tags : BitVec 32) : QdepthDevice :=
  { sdev with
    queueDepth := tags.setWidth 16
    orderedTags := tagged = msgHeadTag ∨ tagged = msgOrderedTag
    simpleTags := tagged = msgHeadTag ∨ tagged = msgOrderedTag ∨ tagged = msgSimpleTag }

/-! ## Calls -/

/-- The outcomes of `scsi_queue_work`. -/
inductive ScsiQueueWork where
  | queued
  /-- The work queue is being destroyed. -/
  | destroyed
  /-- The host has no work queue. -/
  | noQueue
deriving DecidableEq, Repr

/-- What `scsi_queue_work` returns. -/
def ScsiQueueWork.result : ScsiQueueWork → BitVec 32
  | .queued => 1
  | .destroyed => 0
  | .noQueue => -22

structure QdepthEnv where
  kmalloc : Bool := true
  queueWork : ScsiQueueWork := .queued
deriving DecidableEq, Repr

structure PendingDepth where
  tagged : BitVec 32
  tags : BitVec 32
  lost : Bool := false
deriving DecidableEq, Repr

structure AdjustOutcome where
  sdev : QdepthDevice
  pending : Option PendingDepth := none
  event : Option (BitVec 32) := none
deriving DecidableEq, Repr

/-- `scsi_adjust_queue_depth`, up to `skip_qdepth_event`. -/
def QdepthDevice.scsiAdjustQueueDepth (sdev : QdepthDevice) (tagged tags : BitVec 32)
    (env : QdepthEnv) : AdjustOutcome :=
  if tags.toInt < 0 then { sdev := { sdev with queueDepth := 1 } }
  else if tags = sdev.queueDepth.setWidth 32 ∧ tagged = sdev.scsiGetTagType then { sdev }
  else if tags = sdev.queueDepth.setWidth 32 then { sdev, pending := some { tagged, tags } }
  else if env.kmalloc then
    -- `-EINVAL` is not 0
    if env.queueWork.result = 0 then { sdev }
    else {
      sdev
      pending := some { tagged, tags, lost := env.queueWork ≠ .queued }
      event := if env.queueWork = .queued then some tags else none }
  else { sdev }

/-- `scsi_track_queue_full`: the device, the call of `scsi_adjust_queue_depth` and what is
    returned. -/
def QdepthDevice.scsiTrackQueueFull (sdev : QdepthDevice) (jiffies : BitVec 64)
    (depth : BitVec 32) : QdepthDevice × Option (BitVec 32 × BitVec 32) × BitVec 32 :=
  if jiffies >>> 4 = sdev.lastQueueFullTime then (sdev, none, 0)
  else
    let sdev := { sdev with lastQueueFullTime := jiffies >>> 4 }
    let sdev :=
      if sdev.lastQueueFullDepth.setWidth 32 ≠ depth then
        { sdev with lastQueueFullCount := 1, lastQueueFullDepth := depth.setWidth 16 }
      else { sdev with lastQueueFullCount := sdev.lastQueueFullCount + 1 }
    if sdev.lastQueueFullCount ≤ 10 then (sdev, none, 0)
    else if sdev.lastQueueFullDepth < 8 then
      -- "Drop back to untagged"
      (sdev, some (0, sdev.cmdPerLun.signExtend 32), -1)
    else if sdev.orderedTags then (sdev, some (msgOrderedTag, depth), depth)
    else (sdev, some (msgSimpleTag, depth), depth)

inductive QdepthCall where
  | adjust (tagged tags : BitVec 32) (env : QdepthEnv)
  | trackQueueFull (jiffies : BitVec 64) (depth : BitVec 32) (env : QdepthEnv)
deriving DecidableEq, Repr

namespace QdepthCall

def env : QdepthCall → QdepthEnv
  | adjust _ _ env => env
  | trackQueueFull _ _ env => env

/-- The device when `scsi_adjust_queue_depth` is called, and its arguments. -/
def request (sdev : QdepthDevice) : QdepthCall → QdepthDevice × Option (BitVec 32 × BitVec 32)
  | adjust tagged tags _ => (sdev, some (tagged, tags))
  | trackQueueFull jiffies depth _ =>
    let (sdev, args, _) := sdev.scsiTrackQueueFull jiffies depth
    (sdev, args)

def enter (sdev : QdepthDevice) (c : QdepthCall) : AdjustOutcome :=
  match c.request sdev with
  | (sdev, none) => { sdev }
  | (sdev, some (tagged, tags)) => sdev.scsiAdjustQueueDepth tagged tags c.env

end QdepthCall

def storePending (sdev : QdepthDevice) : Option PendingDepth → QdepthDevice
  | none => sdev
  | some p => sdev.store p.tagged p.tags

def QdepthCall.complete (sdev : QdepthDevice) (c : QdepthCall) : QdepthDevice :=
  storePending (c.enter sdev).sdev (c.enter sdev).pending

/-! ## Runs -/

/-- A device, a call that has not returned, the items on the queue and the one that runs,
    and the depth that was reported last. -/
structure QdepthState where
  sdev : QdepthDevice
  pending : Option PendingDepth := none
  queue : List (BitVec 32) := []
  running : Option (BitVec 32) := none
  reported : BitVec 32
deriving DecidableEq, Repr

inductive QdepthOp where
  | call (c : QdepthCall)
  | store
  | workStart
  /-- `vmk_ScsiModifyQueueDepth`, and the item is freed. -/
  | workReport
deriving DecidableEq, Repr

def QdepthOp.call? : QdepthOp → Option QdepthCall
  | call c => some c
  | _ => none

def QdepthOp.next? (s : QdepthState) : QdepthOp → Option QdepthState
  | call c =>
    -- one call at a time
    if s.pending.isSome then none
    else
      let o := c.enter s.sdev
      some { s with sdev := o.sdev, pending := o.pending, queue := s.queue ++ o.event.toList }
  | store =>
    if s.pending.isSome then
      some { s with sdev := storePending s.sdev s.pending, pending := none }
    else none
  | workStart =>
    match s.running, s.queue with
    | none, e :: queue => some { s with running := some e, queue }
    | _, _ => none
  | workReport =>
    match s.running with
    | some e => some { s with running := none, reported := e }
    | none => none

def QdepthStep (s : QdepthState) (op : QdepthOp) (t : QdepthState) : Prop := op.next? s = some t

def QdepthState.start (sdev : QdepthDevice) : QdepthState where
  sdev
  reported := sdev.queueDepth.setWidth 32

/-! ## What is promised -/

def QdepthState.Settled (s : QdepthState) : Prop :=
  s.queue = [] ∧ s.running = none ∧ s.pending = none

/-- **The claim about a state**: what was reported last is the depth, and what a call will
    store whose notification could not be queued is the depth as it is. -/
def QdepthState.Follows (s : QdepthState) : Prop :=
  (s.Settled → s.reported = s.sdev.queueDepth.setWidth 32) ∧
    ∀ p ∈ s.pending, p.lost = true → p.tags.setWidth 16 = s.sdev.queueDepth

def DepthFollows (s : QdepthState) (cs : List QdepthCall) : Prop :=
  ∀ ops t, Run QdepthStep s ops t → ops.filterMap QdepthOp.call? <+: cs → t.Follows

/-- **The condition on a call**, with the device before it.  A negative depth finds the depth
    at 1; another one is the depth already, or fails to be queued, or has 16 bits. -/
def QdepthCall.Meets (sdev : QdepthDevice) (c : QdepthCall) : Prop :=
  ∀ args ∈ (c.request sdev).2,
    if args.2.toInt < 0 then sdev.queueDepth = 1
    else args.2 = sdev.queueDepth.setWidth 32 ∨ c.env.kmalloc = false ∨
      match c.env.queueWork with
      | .queued => args.2.toNat < 2 ^ 16
      | .destroyed => True
      | .noQueue => args.2.setWidth 16 = sdev.queueDepth

/-- The condition on calls, one after the other. -/
def CallsMeet : QdepthDevice → List QdepthCall → Prop
  | _, [] => True
  | sdev, c :: cs => c.Meets sdev ∧ CallsMeet (c.complete sdev) cs

/-! ## One call -/

variable {sdev : QdepthDevice} {c : QdepthCall} {cs : List QdepthCall} {s t : QdepthState}
  {op : QdepthOp}

theorem trackQueueFull_queueDepth (sdev : QdepthDevice) (jiffies : BitVec 64) (depth : BitVec 32) :
    (sdev.scsiTrackQueueFull jiffies depth).1.queueDepth = sdev.queueDepth := by
  unfold QdepthDevice.scsiTrackQueueFull
  dsimp only
  repeat' split
  all_goals rfl

theorem request_queueDepth (c : QdepthCall) (sdev : QdepthDevice) : (c.request sdev).1.queueDepth = sdev.queueDepth := by
  cases c with
  | adjust tagged tags env => rfl
  | trackQueueFull jiffies depth env => exact trackQueueFull_queueDepth sdev jiffies depth

theorem setWidth_32_inj {a b : BitVec 16} : a.setWidth 32 = b.setWidth 32 ↔ a = b := by
  constructor
  · intro h
    have hcut := congrArg (BitVec.setWidth 16) h
    simpa using hcut
  · rintro rfl
    rfl

theorem eq_setWidth_iff_lt {tags : BitVec 32} :
    tags = (tags.setWidth 16).setWidth 32 ↔ tags.toNat < 2 ^ 16 := by
  rw [← BitVec.toNat_inj, BitVec.toNat_setWidth, BitVec.toNat_setWidth]
  omega

/-- The item of a call reports what the call stores, and a call without one stores nothing
    new. -/
def AdjustOutcome.Right (o : AdjustOutcome) (depth : BitVec 16) : Prop :=
  o.event.getD (depth.setWidth 32) =
      (storePending o.sdev o.pending).queueDepth.setWidth 32 ∧
    ∀ p ∈ o.pending, p.lost = true → p.tags.setWidth 16 = o.sdev.queueDepth

theorem right_of_idle (h : sdev.queueDepth = d) : AdjustOutcome.Right { sdev } d := by
  refine ⟨?_, nofun⟩
  rw [← h]
  rfl

variable {d : BitVec 16}

theorem adjust_right_iff (tagged tags : BitVec 32) (env : QdepthEnv) :
    (sdev.scsiAdjustQueueDepth tagged tags env).Right sdev.queueDepth ↔
      if tags.toInt < 0 then sdev.queueDepth = 1
      else tags = sdev.queueDepth.setWidth 32 ∨ env.kmalloc = false ∨
        match env.queueWork with
        | .queued => tags.toNat < 2 ^ 16
        | .destroyed => True
        | .noQueue => tags.setWidth 16 = sdev.queueDepth := by
  unfold QdepthDevice.scsiAdjustQueueDepth
  by_cases hneg : tags.toInt < 0
  · -- no item reports the depth of 1
    rw [if_pos hneg, if_pos hneg]
    refine (and_iff_left nofun).trans ?_
    exact setWidth_32_inj (a := sdev.queueDepth) (b := 1)
  rw [if_neg hneg, if_neg hneg]
  by_cases hsame : tags = sdev.queueDepth.setWidth 32
  · rw [if_pos hsame]
    refine iff_of_true ?_ (.inl hsame)
    by_cases htype : tagged = sdev.scsiGetTagType
    · rw [if_pos ⟨hsame, htype⟩]
      exact right_of_idle rfl
    · rw [if_neg fun h => htype h.2]
      refine ⟨?_, fun p hp hlost => ?_⟩
      · exact hsame.symm.trans (eq_setWidth_iff_lt.mpr (by rw [hsame]; simp; omega))
      · cases hp
        cases hlost
  rw [if_neg fun h => hsame h.1, if_neg hsame, or_iff_right hsame]
  cases hk : env.kmalloc with
  | false =>
    rw [if_neg Bool.false_ne_true]
    exact iff_of_true (right_of_idle rfl) (.inl rfl)
  | true =>
    rw [if_pos rfl, or_iff_right Bool.noConfusion]
    cases hq : env.queueWork with
    | destroyed => exact iff_of_true (right_of_idle rfl) trivial
    | queued =>
      refine (and_iff_left ?_).trans eq_setWidth_iff_lt
      rintro p hp hlost
      cases hp
      cases hlost
    | noQueue =>
      constructor
      · exact fun h => h.2 _ rfl rfl
      · intro heq
        refine ⟨setWidth_32_inj.mpr heq.symm, fun p hp _ => ?_⟩
        cases hp
        exact heq

/-- **One call**: the condition is that its outcome is right. -/
theorem meets_iff_right : c.Meets sdev ↔ (c.enter sdev).Right sdev.queueDepth := by
  have hdepth := request_queueDepth c sdev
  unfold QdepthCall.Meets QdepthCall.enter
  generalize c.request sdev = r at hdepth ⊢
  rcases r with ⟨sdev', _ | ⟨tagged, tags⟩⟩
  · exact iff_of_true nofun (right_of_idle hdepth)
  · rw [← hdepth]
    rw [adjust_right_iff]
    exact ⟨fun h => h _ rfl, fun h args hargs => by cases hargs; exact h⟩

/-! ## Steps -/

theorem step_call_iff : QdepthStep s (.call c) t ↔
    s.pending = none ∧ t = { s with
      sdev := (c.enter s.sdev).sdev
      pending := (c.enter s.sdev).pending
      queue := s.queue ++ (c.enter s.sdev).event.toList } := by
  change (if s.pending.isSome then none else some _) = some t ↔ _
  cases hp : s.pending with
  | none => simp [eq_comm]
  | some p => simp

theorem step_store_iff : QdepthStep s .store t ↔
    s.pending.isSome = true ∧
      t = { s with sdev := storePending s.sdev s.pending, pending := none } := by
  change (if s.pending.isSome then some _ else none) = some t ↔ _
  cases hp : s.pending with
  | none => simp
  | some p => simp [eq_comm]

theorem step_workStart_iff : QdepthStep s .workStart t ↔
    ∃ e queue, s.running = none ∧ s.queue = e :: queue ∧
      t = { s with running := some e, queue } := by
  unfold QdepthStep
  rw [QdepthOp.next?]
  rcases hr : s.running with _ | e
  · rcases hq : s.queue with _ | ⟨e, queue⟩
    · simp
    · simp [eq_comm]
  · simp

theorem step_workReport_iff : QdepthStep s .workReport t ↔
    ∃ e, s.running = some e ∧ t = { s with running := none, reported := e } := by
  unfold QdepthStep
  rw [QdepthOp.next?]
  rcases s.running with _ | e
  · simp
  · simp [eq_comm]

/-! ## All runs -/

def QdepthState.latest (s : QdepthState) : BitVec 32 :=
  s.queue.getLast?.getD (s.running.getD s.reported)

def QdepthState.after (s : QdepthState) : QdepthDevice := storePending s.sdev s.pending

structure QdepthState.Agrees (s : QdepthState) : Prop where
  latest : s.latest = s.after.queueDepth.setWidth 32
  lost : ∀ p ∈ s.pending, p.lost = true → p.tags.setWidth 16 = s.sdev.queueDepth

theorem QdepthState.Agrees.follows (h : s.Agrees) : s.Follows := by
  refine ⟨fun ⟨hqueue, hrunning, hpending⟩ => ?_, h.lost⟩
  have hlatest := h.latest
  rw [QdepthState.latest, QdepthState.after, hqueue, hrunning, hpending] at hlatest
  exact hlatest

theorem latest_append (s : QdepthState) (o : AdjustOutcome) :
    (s.queue ++ o.event.toList).getLast?.getD (s.running.getD s.reported) =
      o.event.getD s.latest := by
  cases o.event with
  | none => rw [Option.toList_none, List.append_nil]; rfl
  | some e => rw [Option.toList_some, List.getLast?_concat]; rfl

theorem after_of_call (h : QdepthStep s (.call c) t) :
    s.after = s.sdev ∧ t.after = c.complete s.sdev := by
  obtain ⟨hidle, rfl⟩ := step_call_iff.mp h
  refine ⟨?_, rfl⟩
  rw [QdepthState.after, hidle]
  rfl

theorem QdepthState.Agrees.call (h : s.Agrees) (hstep : QdepthStep s (.call c) t) :
    t.Agrees ↔ c.Meets s.sdev := by
  obtain ⟨hafter, -⟩ := after_of_call hstep
  have hlatest := h.latest
  rw [hafter] at hlatest
  obtain ⟨-, rfl⟩ := step_call_iff.mp hstep
  rw [meets_iff_right, AdjustOutcome.Right, ← hlatest]
  constructor
  · intro ht
    exact ⟨(latest_append s _).symm.trans ht.latest, ht.lost⟩
  · rintro ⟨hreport, hlost⟩
    exact ⟨(latest_append s _).trans hreport, hlost⟩

theorem QdepthState.Agrees.step (h : s.Agrees) (hstep : QdepthStep s op t)
    (hop : op.call? = none) : t.Agrees ∧ t.after = s.after := by
  have hlatest := h.latest
  cases op with
  | call c => cases hop
  | store =>
    obtain ⟨-, rfl⟩ := step_store_iff.mp hstep
    exact ⟨⟨hlatest, nofun⟩, rfl⟩
  | workStart =>
    obtain ⟨e, queue, -, hqueue, rfl⟩ := step_workStart_iff.mp hstep
    refine ⟨⟨?_, h.lost⟩, rfl⟩
    rw [QdepthState.latest, hqueue, List.getLast?_cons, Option.getD_some] at hlatest
    exact hlatest
  | workReport =>
    obtain ⟨e, hrunning, rfl⟩ := step_workReport_iff.mp hstep
    refine ⟨⟨?_, h.lost⟩, rfl⟩
    rw [QdepthState.latest, hrunning, Option.getD_some] at hlatest
    exact hlatest

/-- **Every run** whose calls meet the condition. -/
theorem agrees_of_run {ops : List QdepthOp} (hrun : Run QdepthStep s ops t) (h : s.Agrees)
    (hpre : ops.filterMap QdepthOp.call? <+: cs) (hcs : CallsMeet s.after cs) : t.Agrees := by
  induction hrun generalizing cs with
  | nil s => exact h
  | @cons s u t op ops hstep _ ih =>
    cases hop : op.call? with
    | none =>
      rw [List.filterMap_cons_none hop] at hpre
      obtain ⟨hu, hafter⟩ := h.step hstep hop
      exact ih hu hpre (hafter ▸ hcs)
    | some c =>
      obtain rfl : op = .call c := by
        cases op with
        | call c' => exact congrArg QdepthOp.call (Option.some.inj hop)
        | _ => cases hop
      rw [List.filterMap_cons_some hop] at hpre
      obtain ⟨rest, rfl⟩ := hpre
      rw [List.cons_append] at hcs
      obtain ⟨hafter, hnext⟩ := after_of_call hstep
      rw [hafter] at hcs
      exact ih ((h.call hstep).mpr hcs.1) (List.prefix_append _ rest) (hnext ▸ hcs.2)

/-! ## A run that waits -/

theorem start_agrees (sdev : QdepthDevice) : (QdepthState.start sdev).Agrees := ⟨rfl, nofun⟩

def QdepthState.entered (sdev : QdepthDevice) (c : QdepthCall) : QdepthState :=
  { QdepthState.start sdev with
    sdev := (c.enter sdev).sdev
    pending := (c.enter sdev).pending
    queue := (c.enter sdev).event.toList }

def QdepthState.drained (sdev : QdepthDevice) (c : QdepthCall) : QdepthState where
  sdev := c.complete sdev
  reported := (c.enter sdev).event.getD (sdev.queueDepth.setWidth 32)

theorem call_run (sdev : QdepthDevice) (c : QdepthCall) :
    QdepthStep (.start sdev) (.call c) (.entered sdev c) := step_call_iff.mpr ⟨rfl, rfl⟩

theorem store_run (s : QdepthState) : ∃ ops,
    Run QdepthStep s ops { s with sdev := s.after, pending := none } ∧
      ops.filterMap QdepthOp.call? = [] := by
  obtain ⟨sdev, _ | p, queue, running, reported⟩ := s
  · exact ⟨[], .nil _, rfl⟩
  · exact ⟨[.store], .single (step_store_iff.mpr ⟨rfl, rfl⟩), rfl⟩

theorem item_run (sdev : QdepthDevice) (event : Option (BitVec 32)) (reported : BitVec 32) :
    ∃ ops, Run QdepthStep { sdev, queue := event.toList, reported } ops
        { sdev, reported := event.getD reported } ∧ ops.filterMap QdepthOp.call? = [] := by
  rcases event with _ | e
  · exact ⟨[], .nil _, rfl⟩
  · exact ⟨[.workStart, .workReport], .cons (step_workStart_iff.mpr ⟨e, [], rfl, rfl, rfl⟩)
        (.single (step_workReport_iff.mpr ⟨e, rfl, rfl⟩)), rfl⟩

theorem drain_run (sdev : QdepthDevice) (c : QdepthCall) : ∃ ops,
    Run QdepthStep (.entered sdev c) ops (.drained sdev c) ∧
      ops.filterMap QdepthOp.call? = [] := by
  obtain ⟨ops, hstore, hops⟩ := store_run (.entered sdev c)
  obtain ⟨ops', hitem, hops'⟩ :=
    item_run (c.complete sdev) (c.enter sdev).event (sdev.queueDepth.setWidth 32)
  exact ⟨ops ++ ops', hstore.append hitem, by rw [List.filterMap_append, hops, hops']; rfl⟩

theorem DepthFollows.cons (h : DepthFollows (.start sdev) (c :: cs)) :
    c.Meets sdev ∧ DepthFollows (.start (c.complete sdev)) cs := by
  obtain ⟨ops, hdrain, hops⟩ := drain_run sdev c
  have hcall := call_run sdev c
  have hentered := h [.call c] _ (.single hcall) (List.prefix_append [c] cs)
  have hcalls : (QdepthOp.call c :: ops).filterMap QdepthOp.call? = [c] := congrArg (c :: ·) hops
  have hdrained := (h _ _ (.cons hcall hdrain) (by rw [hcalls]; exact List.prefix_append [c] cs)).1
    ⟨rfl, rfl, rfl⟩
  refine ⟨meets_iff_right.mpr ⟨hdrained, hentered.2⟩, ?_⟩
  intro rest t hrun hpre
  have hstart : QdepthState.drained sdev c =
      .start (c.complete sdev) := by
    have hreported : (c.enter sdev).event.getD (sdev.queueDepth.setWidth 32) =
        (c.complete sdev).queueDepth.setWidth 32 := hdrained
    rw [QdepthState.drained, QdepthState.start, hreported]
  rw [← hstart] at hrun
  refine h _ t (.cons hcall (hdrain.append hrun)) ?_
  rw [← List.cons_append, List.filterMap_append, hcalls]
  exact (List.prefix_cons_inj c).mpr hpre

/-- **The reported depth follows** that of the device, in every run that makes the calls and
    whenever their items run, exactly if the calls meet the condition. -/
theorem depth_follows_iff (sdev : QdepthDevice) (cs : List QdepthCall) :
    DepthFollows (.start sdev) cs ↔ CallsMeet sdev cs := by
  constructor
  · intro h
    induction cs generalizing sdev with
    | nil => trivial
    | cons c cs ih => exact ⟨h.cons.1, ih _ h.cons.2⟩
  · intro h ops t hrun hpre
    exact (agrees_of_run hrun (start_agrees sdev) hpre h).follows

/-- A negative depth, as a driver asks for when it gives up on queueing. -/
theorem depth_not_follows :
    ¬DepthFollows (.start { queueDepth := 32 }) [.adjust msgSimpleTag (-1) {}] := by
  intro h
  have hstep : QdepthStep (.start { queueDepth := 32 }) (.call (.adjust msgSimpleTag (-1) {}))
      { QdepthState.start { queueDepth := 32 } with sdev := { queueDepth := 1 } } := rfl
  have hfollows := h _ _ (.single hstep) List.prefix_rfl
  exact absurd (hfollows.1 ⟨rfl, rfl, rfl⟩) (by decide)

end VmkDrivers.Vmklinux
