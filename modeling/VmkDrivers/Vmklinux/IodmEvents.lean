/-
  VmkDrivers.Vmklinux.IodmEvents

  The event log of a SCSI host, and what `IODM_IOCTL_GET_EVENTS` gets of it
  (`linux_iodm.c`).

  `vmklnx_iodm_event` writes the slot at `cur` and goes on to the next, so that the
  log is a ring of the last `IODM_EVENT_LIMIT` events.  `iodmGetEvents` copies them in
  order.  But an event fills only the fields of its kind, and the slot is not cleared
  first: what it leaves alone is that of an event one lap ago (`events_latest_iff`).

  The fields of an event that nothing writes, and what is logged, are left out.
-/

import VmkDrivers.Lib.RingLog
import VmkDrivers.Lib.Transition

namespace VmkDrivers.Vmklinux

open VmkDrivers.Lib

/-! ## Events -/

def iodmEventLimit : Nat := 400

/-- `enum iodm_scsi_event_type`, as far as the kinds are told apart. -/
def iodmRscn : UInt32 := 1

def iodmLinkdown : UInt32 := 3

def iodmFramedrop : UInt32 := 4

def iodmFcoeCvl : UInt32 := 6

/-- `struct iodm_ScsiEvent` -/
structure IodmEvent where
  sec : UInt64 := 0
  usec : UInt32 := 0
  id : UInt32 := 0
  cmd : UInt32 := 0
  channel : UInt16 := 0
  target : UInt16 := 0
  lun : UInt16 := 0
  data0 : UInt32 := 0
  data1 : UInt32 := 0
  data2 : UInt32 := 0
  data3 : UInt32 := 0
deriving DecidableEq, Repr

/-- Of a `struct scsi_cmnd` and its device, what an event takes. -/
structure IodmCmnd where
  cmnd0 : UInt8 := 0
  channel : UInt32 := 0
  id : UInt32 := 0
  lun : UInt32 := 0
  bufflen : UInt32 := 0
deriving DecidableEq, Repr

/-- A call of `vmklnx_iodm_event`, with what it finds. -/
structure IodmCall where
  id : UInt32
  /-- 0 is NULL. -/
  addr : UInt64 := 0
  /-- What is at `addr` for `IODM_FRAMEDROP`. -/
  scmd : IodmCmnd := {}
  data : UInt64 := 0
  /-- `do_gettimeofday` -/
  sec : UInt64 := 0
  usec : UInt32 := 0
deriving DecidableEq, Repr

/-- `iodm_ScsiEventBuf_t` -/
structure IodmEventBuf where
  cur : Nat := 0
  full : Bool := false
  event : Nat → IodmEvent := fun _ => {}

def IodmCall.fill (c : IodmCall) (t : IodmEvent) : IodmEvent :=
  if c.id = iodmLinkdown then t
  else if c.id = iodmFramedrop then
    if c.addr = 0 then t
    else
      { t with
        cmd := c.scmd.cmnd0.toUInt32
        channel := c.scmd.channel.toUInt16
        target := c.scmd.id.toUInt16
        lun := c.scmd.lun.toUInt16
        data0 := c.data.toUInt32
        data1 := c.scmd.bufflen }
  else if c.id = iodmRscn ∨ c.id = iodmFcoeCvl then { t with data0 := c.data.toUInt32 }
  else
    -- `addr` and `data` are stored whole
    { t with
      data0 := c.addr.toUInt32
      data1 := (c.addr >>> 32).toUInt32
      data2 := c.data.toUInt32
      data3 := (c.data >>> 32).toUInt32 }

namespace IodmEventBuf

variable (buf : IodmEventBuf)

/-- `vmklnx_iodm_event` -/
def iodmEvent (c : IodmCall) : IodmEventBuf where
  cur := if buf.cur = iodmEventLimit - 1 then 0 else buf.cur + 1
  full := if buf.cur = iodmEventLimit - 1 then true else buf.full
  event := Function.update buf.event buf.cur
    (c.fill { buf.event buf.cur with id := c.id, sec := c.sec, usec := c.usec })

def eventCnt : Nat := if buf.full then iodmEventLimit else buf.cur

/-- `IODM_IOCTL_CLEAR_EVENTS` -/
def clearEvents : IodmEventBuf where
  cur := 0
  full := false
  event := fun i => if i < iodmEventLimit then {} else buf.event i

/-- What `iodmGetEvents` has put into `ioc->data`, and `ioc->status`. -/
structure Reply where
  data : List IodmEvent
  status : Nat
deriving DecidableEq, Repr

/-- `iodmGetEvents`; `none` is `VMK_BAD_PARAM`. -/
def iodmGetEvents (len : Nat) : Option Reply :=
  if iodmEventLimit < len then none
  else if buf.full then
    let sz1 := iodmEventLimit - buf.cur
    let sz2 := buf.cur
    if len < sz1 then some ⟨copyOut buf.event buf.cur len, len⟩
    else if len - sz1 < sz2 then
      some ⟨copyOut buf.event buf.cur sz1 ++ copyOut buf.event 0 (len - sz1), len⟩
    else some ⟨copyOut buf.event buf.cur sz1 ++ copyOut buf.event 0 sz2, iodmEventLimit⟩
  else
    let cnt := min buf.eventCnt len
    some ⟨copyOut buf.event 0 cnt, cnt⟩

end IodmEventBuf

/-! ## Histories -/

structure IodmHistory where
  buf : IodmEventBuf := {}
  since : List IodmCall := []

inductive IodmRequest where
  | event (c : IodmCall)
  | clearEvents
deriving DecidableEq, Repr

def IodmHistory.exec (s : IodmHistory) : IodmRequest → IodmHistory
  | .event c => ⟨s.buf.iodmEvent c, s.since ++ [c]⟩
  | .clearEvents => ⟨s.buf.clearEvents, []⟩

def IodmStep (s : IodmHistory) (r : IodmRequest) (t : IodmHistory) : Prop := t = s.exec r

/-! ## What is promised -/

inductive IodmField where
  | cmd
  | channel
  | target
  | lun
  | data0
  | data1
  | data2
  | data3
deriving DecidableEq, Repr

def IodmEvent.field (e : IodmEvent) : IodmField → Nat
  | .cmd => e.cmd.toNat
  | .channel => e.channel.toNat
  | .target => e.target.toNat
  | .lun => e.lun.toNat
  | .data0 => e.data0.toNat
  | .data1 => e.data1.toNat
  | .data2 => e.data2.toNat
  | .data3 => e.data3.toNat

def IodmCall.given (c : IodmCall) (f : IodmField) : Option Nat :=
  if c.id = iodmLinkdown then none
  else if c.id = iodmFramedrop then
    if c.addr = 0 then none
    else
      match f with
      | .cmd => some c.scmd.cmnd0.toNat
      | .channel => some (c.scmd.channel.toNat % 2 ^ 16)
      | .target => some (c.scmd.id.toNat % 2 ^ 16)
      | .lun => some (c.scmd.lun.toNat % 2 ^ 16)
      | .data0 => some (c.data.toNat % 2 ^ 32)
      | .data1 => some c.scmd.bufflen.toNat
      | .data2 | .data3 => none
  else if c.id = iodmRscn ∨ c.id = iodmFcoeCvl then
    match f with
    | .data0 => some (c.data.toNat % 2 ^ 32)
    | _ => none
  else
    match f with
    | .data0 => some (c.addr.toNat % 2 ^ 32)
    | .data1 => some (c.addr.toNat / 2 ^ 32)
    | .data2 => some (c.data.toNat % 2 ^ 32)
    | .data3 => some (c.data.toNat / 2 ^ 32)
    | _ => none

structure IodmCall.Stamps (c : IodmCall) (e : IodmEvent) : Prop where
  id : e.id = c.id
  sec : e.sec = c.sec
  usec : e.usec = c.usec

structure IodmCall.Fills (c : IodmCall) (e : IodmEvent) : Prop extends c.Stamps e where
  fields : ∀ f, e.field f = 0 ∨ c.given f = some (e.field f)

/-- `IODM_IOCTL_GET_EVENTS` returns the oldest of the latest events, as many as there is room
    for. -/
def EventsLatest (s : IodmHistory) : Prop :=
  ∀ n ≤ iodmEventLimit, ∃ r, s.buf.iodmGetEvents n = some r ∧ r.status = r.data.length ∧
    List.Forall₂ IodmCall.Fills ((latest iodmEventLimit s.since).take n) r.data

def SlotClean (s : IodmHistory) : IodmRequest → Prop
  | .event c => ∀ f, c.given f = none → (s.buf.event s.buf.cur).field f = 0
  | .clearEvents => True

/-! ## The slots -/

variable {c : IodmCall} {e t : IodmEvent} {s : IodmHistory}

theorem stamps_fill (c : IodmCall) (t : IodmEvent) :
    c.Stamps (c.fill { t with id := c.id, sec := c.sec, usec := c.usec }) := by
  unfold IodmCall.fill
  split
  · exact ⟨rfl, rfl, rfl⟩
  · split
    · split <;> exact ⟨rfl, rfl, rfl⟩
    · split <;> exact ⟨rfl, rfl, rfl⟩

theorem field_fill (c : IodmCall) (t : IodmEvent) (f : IodmField) :
    (c.fill t).field f = (c.given f).getD (t.field f) := by
  -- the upper half of an address
  have hhigh (x : UInt64) : (x >>> 32).toUInt32.toNat = x.toNat / 2 ^ 32 := by
    have hlt := x.toNat_lt
    rw [UInt64.toNat_toUInt32, UInt64.toNat_shiftRight, Nat.shiftRight_eq_div_pow]
    exact Nat.mod_eq_of_lt (by simp; omega)
  unfold IodmCall.fill IodmCall.given
  split
  · rfl
  · split
    · split
      · rfl
      · cases f <;> simp [IodmEvent.field]
    · split
      · cases f <;> simp [IodmEvent.field]
      · cases f <;> simp [IodmEvent.field, hhigh]

structure IodmCall.Shows (c : IodmCall) (e : IodmEvent) : Prop extends c.Stamps e where
  given : ∀ f v, c.given f = some v → e.field f = v

theorem shows_fill (c : IodmCall) (t : IodmEvent) :
    c.Shows (c.fill { t with id := c.id, sec := c.sec, usec := c.usec }) where
  toStamps := stamps_fill c t
  given f v hgiven := by rw [field_fill, hgiven, Option.getD_some]

theorem fills_iff (c : IodmCall) (t : IodmEvent) :
    c.Fills (c.fill { t with id := c.id, sec := c.sec, usec := c.usec }) ↔
      ∀ f, c.given f = none → t.field f = 0 := by
  -- the stamps are not among the fields
  have hsame (f : IodmField) :
      ({ t with id := c.id, sec := c.sec, usec := c.usec } : IodmEvent).field f = t.field f := by
    cases f <;> rfl
  constructor
  · intro h f hnone
    have hfield := field_fill c { t with id := c.id, sec := c.sec, usec := c.usec } f
    rw [hnone, Option.getD_none, hsame] at hfield
    rcases h.fields f with hzero | hgiven
    · exact hfield.symm.trans hzero
    · rw [hnone] at hgiven
      cases hgiven
  · intro hclean
    refine ⟨stamps_fill c t, fun f => ?_⟩
    rw [field_fill, hsame]
    cases hgiven : c.given f with
    | none => exact .inl (hclean f hgiven)
    | some v => exact .inr rfl

/-! ## The log -/

variable {α : Type*} {R : α → IodmEvent → Prop} {h : List α} {buf : IodmEventBuf}

theorem iodmEventLimit_pos : 0 < iodmEventLimit := by decide

theorem iodmGetEvents_spec (hlog : RingLog iodmEventLimit R h buf.event buf.cur buf.full) {n : Nat}
    (hn : n ≤ iodmEventLimit) :
    ∃ r, buf.iodmGetEvents n = some r ∧ r.status = r.data.length ∧
      List.Forall₂ R ((latest iodmEventLimit h).take n) r.data := by
  rw [IodmEventBuf.iodmGetEvents, if_neg (Nat.not_lt.mpr hn)]
  cases hfull : buf.full with
  | false =>
    have hcnt : buf.eventCnt = buf.cur := by
      rw [IodmEventBuf.eventCnt, hfull, if_neg Bool.false_ne_true]
    rw [if_neg Bool.false_ne_true]
    rw [hcnt]
    exact ⟨_, rfl, (length_copyOut ..).symm, hlog.copy_partial hfull n⟩
  | true =>
    have hcopy := hlog.copy_full iodmEventLimit_pos hfull hn
    have hcur := hlog.cur_lt iodmEventLimit_pos
    rw [if_pos rfl]
    by_cases hone : n < iodmEventLimit - buf.cur
    · rw [if_pos hone] at hcopy ⊢
      exact ⟨_, rfl, (length_copyOut ..).symm, hcopy⟩
    · rw [if_neg hone] at hcopy ⊢
      by_cases htwo : n - (iodmEventLimit - buf.cur) < buf.cur
      · rw [if_pos htwo]
        refine ⟨_, rfl, ?_, hcopy⟩
        dsimp only
        rw [List.length_append, length_copyOut, length_copyOut]
        omega
      · -- all of them are asked for
        have hall : n - (iodmEventLimit - buf.cur) = buf.cur := by omega
        rw [hall] at hcopy
        rw [if_neg htwo]
        refine ⟨_, rfl, ?_, hcopy⟩
        dsimp only
        rw [List.length_append, length_copyOut, length_copyOut]
        omega

abbrev IodmHistory.Log (R : IodmCall → IodmEvent → Prop) (s : IodmHistory) : Prop :=
  RingLog iodmEventLimit R s.since s.buf.event s.buf.cur s.buf.full

theorem IodmHistory.Log.event {R : IodmCall → IodmEvent → Prop} (hlog : s.Log R)
    (hfill : R c (c.fill { s.buf.event s.buf.cur with id := c.id, sec := c.sec, usec := c.usec })) :
    (s.exec (.event c)).Log R :=
  hlog.push iodmEventLimit_pos hfill

theorem log_clearEvents (R : IodmCall → IodmEvent → Prop) (s : IodmHistory) :
    (s.exec .clearEvents).Log R where
  cur_eq := rfl
  full_iff := iff_of_false Bool.false_ne_true (Nat.not_le.mpr iodmEventLimit_pos)
  holds := nofun

theorem log_of_run {rs : List IodmRequest} (hrun : Run IodmStep {} rs s) :
    s.Log IodmCall.Shows := by
  refine hrun.invariant (fun s r t hlog hstep => ?_) (RingLog.nil iodmEventLimit_pos)
  -- an event keeps the log exactly if its slot is clean
  obtain rfl := hstep
  cases r with
  | event c => exact hlog.event (shows_fill c _)
  | clearEvents => exact log_clearEvents IodmCall.Shows s

theorem eventsLatest_iff_log {R : IodmCall → IodmEvent → Prop} (hlog : s.Log R) :
    EventsLatest s ↔ s.Log IodmCall.Fills := by
  constructor
  · intro hall
    -- a reader who asks for as many as there can be sees the whole log
    obtain ⟨r, hget, -, hfills⟩ := hall iodmEventLimit le_rfl
    obtain ⟨r', hget', -, hpos⟩ := iodmGetEvents_spec hlog.positions le_rfl
    obtain rfl : r = r' := Option.some.inj (hget.symm.trans hget')
    have htake {γ : Type} (l : List γ) :
        (latest iodmEventLimit l).take iodmEventLimit = latest iodmEventLimit l := by
      refine List.take_of_length_le ?_
      rw [length_latest]
      exact Nat.min_le_left ..
    rw [htake] at hfills hpos
    exact hlog.of_copy hpos hfills
  · intro hfills n hn
    exact iodmGetEvents_spec hfills hn

theorem clean_of_log {R : IodmCall → IodmEvent → Prop} (hlog : s.Log R)
    (hnext : (s.exec (.event c)).Log IodmCall.Fills) : SlotClean s (.event c) := by
  have hnew : s.since.length < (s.exec (.event c)).since.length := by
    show s.since.length < (s.since ++ [c]).length
    rw [List.length_append, List.length_singleton]
    exact Nat.lt_succ_self _
  -- the newest entry, in its slot
  have hfills := hnext.holds s.since.length hnew (by
    show (s.since ++ [c]).length ≤ s.since.length + iodmEventLimit
    rw [List.length_append, List.length_singleton]
    exact Nat.add_le_add_left iodmEventLimit_pos _)
  have hentry : (s.exec (.event c)).since[s.since.length] = c := by simp [IodmHistory.exec]
  have hslot : (s.exec (.event c)).buf.event (s.since.length % iodmEventLimit) =
      c.fill { s.buf.event s.buf.cur with id := c.id, sec := c.sec, usec := c.usec } := by
    rw [← hlog.cur_eq]
    exact Function.update_self ..
  rw [hentry, hslot] at hfills
  exact (fills_iff c _).mp hfills

theorem IodmStep.unique (s : IodmHistory) (r : IodmRequest) (t t' : IodmHistory)
    (h : IodmStep s r t) (h' : IodmStep s r t') : t = t' :=
  h.trans h'.symm

theorem run_events (cs : List IodmCall) (s : IodmHistory) :
    ∃ t, Run IodmStep s (cs.map .event) t ∧ t.since = s.since ++ cs := by
  induction cs generalizing s with
  | nil => exact ⟨s, .nil s, (List.append_nil _).symm⟩
  | cons c cs ih =>
    obtain ⟨t, hrun, hsince⟩ := ih (s.exec (.event c))
    refine ⟨t, .cons rfl hrun, ?_⟩
    rw [hsince]
    exact List.append_assoc s.since [c] cs

/-- **Event log**: after all requests `IODM_IOCTL_GET_EVENTS` returns the oldest of the latest
    events, each with what was given with it and zero for the rest, if and only if each event took
    a slot that was zero in what is not given with it. -/
theorem events_latest_iff {rs : List IodmRequest} (hrun : Run IodmStep {} rs s) :
    Always IodmStep EventsLatest {} rs ↔ Run (Guarded IodmStep SlotClean) {} rs s := by
  refine always_iff_guarded IodmStep.unique (I := fun s => s.Log IodmCall.Fills)
    (fun s hlog => (eventsLatest_iff_log hlog).mpr hlog) (fun s r t hlog hstep => ?_) hrun
    (RingLog.nil iodmEventLimit_pos)
  obtain rfl := hstep
  cases r with
  | event c =>
    refine ⟨fun hclean => hlog.event ((fills_iff c _).mpr hclean), fun hlatest => ?_⟩
    have hstamps := hlog.mono fun _ _ (h : IodmCall.Fills _ _) => h.toStamps
    have hnext := IodmHistory.Log.event hstamps (stamps_fill c _)
    exact clean_of_log hlog ((eventsLatest_iff_log hnext).mp hlatest)
  | clearEvents => exact ⟨fun _ => log_clearEvents _ s, fun _ => trivial⟩

/-- A frame was dropped, and the link went down. -/
theorem events_latest_two : Always IodmStep EventsLatest {}
    [.event { id := iodmFramedrop, addr := 1, data := 2 }, .event { id := iodmLinkdown }] :=
  (events_latest_iff (.cons rfl (.cons rfl (.nil _)))).mpr
    (.cons ⟨fun f _ => by cases f <;> rfl, rfl⟩
      (.cons ⟨fun f _ => by cases f <;> rfl, rfl⟩ (.nil _)))

/-- After 400 events of a driver's own the event of a link that went down has the data of the
    first of them. -/
theorem events_latest_stale : ¬∀ rs s, Run IodmStep {} rs s → EventsLatest s := by
  intro hall
  let own : IodmCall := { id := 1000, data := 7 }
  let down : IodmCall := { id := iodmLinkdown }
  obtain ⟨s, hrun, hsince⟩ := run_events (List.replicate iodmEventLimit own) {}
  have hlog := log_of_run hrun
  -- the next event takes the slot of the first one
  have hnext : (s.exec (.event down)).Log IodmCall.Shows := hlog.event (shows_fill down _)
  have hrun' := hrun.append (.single (rfl : IodmStep s (.event down) _))
  have hclean := clean_of_log hlog ((eventsLatest_iff_log hnext).mp (hall _ _ hrun'))
  -- the slot that comes next is the first one again
  have hlength : s.since.length = iodmEventLimit := by
    rw [hsince]
    exact List.length_replicate
  have hcur : s.buf.cur = 0 := by rw [hlog.cur_eq, hlength, Nat.mod_self]
  have hsome : 0 < s.since.length := by
    rw [hlength]
    exact iodmEventLimit_pos
  have hfirst := hlog.holds 0 hsome (by omega)
  have hown : s.since[0] = own := by
    simp [hsince]
  rw [hown] at hfirst
  have hdata := hfirst.given .data2 7 rfl
  have hzero := hclean .data2 rfl
  rw [hcur] at hzero
  rw [Nat.zero_mod] at hdata
  omega

end VmkDrivers.Vmklinux
