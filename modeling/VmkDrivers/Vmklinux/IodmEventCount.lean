/-
  VmkDrivers.Vmklinux.IodmEventCount

  How often an event happened lately (`iodmEventCount` in `linux_iodm.c`).

  `vmklnx_iodm_event` counts the events of the newest one's kind to warn of an
  unstable link.  The scan goes back from the newest event, and looks at its time
  stamp again at each one: as `event[cur - 1]`, which after a lap stands before the
  array.  It ends at an event with id 0, which is what an unused slot has but also a
  driver may give, and it subtracts the duration from the seconds since 1970 without
  looking whether there are as many (`event_count_iff`).
-/

import VmkDrivers.Vmklinux.IodmEvents

namespace VmkDrivers.Vmklinux

open VmkDrivers.Lib

/-! ## The scan -/

/-- What `iodmEventCount` returns, with the indices of `event` that it looked at. -/
structure EventCount where
  cnt : Nat := 0
  touched : List Int := []
deriving DecidableEq, Repr

namespace IodmEventBuf

variable (buf : IodmEventBuf) (outside : Int → IodmEvent)

/-- `buf->event[i]`; `outside` is what stands around the array. -/
def eventAt (i : Int) : IodmEvent :=
  if 0 ≤ i ∧ i < iodmEventLimit then buf.event i.toNat else outside i

/-- The loop of `iodmEventCount`, with as many iterations as are left. -/
def countFrom (id duration : UInt32) : Nat → Int → EventCount
  | 0, _ => {}
  | iteration + 1, i =>
    let i := if i < 0 then (iodmEventLimit : Int) - 1 else i
    let t := buf.eventAt outside i
    if t.id = 0 then ⟨0, [i]⟩
    -- break out if the event is not within the duration
    else if t.sec < (buf.eventAt outside (buf.cur - 1)).sec - duration.toUInt64 then
      ⟨0, [i, buf.cur - 1]⟩
    else
      let r := countFrom id duration iteration (i - 1)
      ⟨if id = t.id then r.cnt + 1 else r.cnt, i :: (buf.cur - 1) :: r.touched⟩

def iodmEventCount (id duration : UInt32) : EventCount :=
  buf.countFrom outside id duration buf.eventCnt (buf.cur - 1)

end IodmEventBuf

/-! ## What is promised -/

def IodmCall.Counted (newest : IodmCall) (duration : UInt32) (c : IodmCall) : Prop :=
  c.id = newest.id ∧ newest.sec.toNat ≤ c.sec.toNat + duration.toNat

instance (newest : IodmCall) (duration : UInt32) :
    DecidablePred (newest.Counted duration) := fun _ => inferInstanceAs (Decidable (_ ∧ _))

structure CountsRight (s : IodmHistory) (outside : Int → IodmEvent) (newest : IodmCall)
    (duration : UInt32) : Prop where
  inside : ∀ i ∈ (s.buf.iodmEventCount outside newest.id duration).touched,
    0 ≤ i ∧ i < iodmEventLimit
  cnt : (s.buf.iodmEventCount outside newest.id duration).cnt =
    (latest iodmEventLimit s.since).countP (newest.Counted duration)

/-- The newest event is not in the last slot, it is not older than the duration, and nothing that
    counts stands at or behind one with id 0. -/
structure CountsAll (since : List IodmCall) (newest : IodmCall) (duration : UInt32) : Prop where
  notLast : since.length % iodmEventLimit ≠ 0
  duration_le : duration.toNat ≤ newest.sec.toNat
  noZero : ∀ c ∈ (latest iodmEventLimit since).reverse.dropWhile (·.id ≠ 0),
    ¬newest.Counted duration c

/-! ## Lists -/

theorem countP_takeWhile_and {α : Type*} {p q r : α → Bool} {l : List α}
    (hq : l.Pairwise fun a b => q b = true → q a = true) :
    (l.takeWhile fun a => p a && q a).countP r = (l.takeWhile p).countP fun a => q a && r a := by
  induction l with
  | nil => rfl
  | cons a l ih =>
    obtain ⟨ha, hl⟩ := List.pairwise_cons.mp hq
    rw [List.takeWhile_cons, List.takeWhile_cons]
    cases hp : p a with
    | false => rfl
    | true =>
      cases hqa : q a with
      | true => simp [List.countP_cons, ih hl, hqa]
      | false =>
        -- nothing behind `a` counts either
        symm
        simp only [if_true, Bool.and_false, Bool.false_eq_true, if_false, List.countP_nil,
          List.countP_eq_zero, Bool.and_eq_true, not_and]
        intro b hb hqb
        rcases List.mem_cons.mp hb with rfl | hb
        · rw [hqa] at hqb
          cases hqb
        · have hqa' := ha b (List.takeWhile_subset _ hb) hqb
          rw [hqa] at hqa'
          cases hqa'

theorem take_succ_reverse {α : Type*} {l : List α} {k : Nat} (hk : k < l.length) :
    (l.take (k + 1)).reverse = l[k] :: (l.take k).reverse := by
  rw [← List.take_append_getElem hk, List.reverse_append, List.reverse_singleton,
    List.singleton_append]

/-! ## The scan goes back over the history -/

variable {h : List IodmCall} {buf : IodmEventBuf} (outside : Int → IodmEvent)
  (id duration : UInt32)

theorem countFrom_spec
    (hlog : RingLog iodmEventLimit IodmCall.Stamps h buf.event buf.cur buf.full) (n k : Nat)
    (i : Int) (hn : n ≤ k) (hk : k ≤ h.length) (hstored : h.length ≤ k - n + iodmEventLimit)
    (hi : n ≠ 0 → (if i < 0 then (iodmEventLimit : Int) - 1 else i) =
      ((k - 1) % iodmEventLimit : Nat)) :
    (buf.countFrom outside id duration n i).cnt =
        (((h.take k).reverse.take n).takeWhile fun c => c.id ≠ 0 &&
          ¬c.sec < (buf.eventAt outside (buf.cur - 1)).sec - duration.toUInt64).countP
            (fun c => id = c.id) ∧
      (∀ x ∈ (buf.countFrom outside id duration n i).touched,
        (0 ≤ x ∧ x < iodmEventLimit) ∨ x = buf.cur - 1) ∧
      ∀ c ∈ ((h.take k).reverse.take n).head?, c.id ≠ 0 →
        (buf.cur : Int) - 1 ∈ (buf.countFrom outside id duration n i).touched := by
  induction n generalizing k i with
  | zero => exact ⟨by simp [IodmEventBuf.countFrom], nofun, nofun⟩
  | succ n ih =>
    obtain ⟨k, rfl⟩ : ∃ k', k = k' + 1 := ⟨k - 1, by omega⟩
    have hindex := hi (Nat.succ_ne_zero n)
    rw [Nat.add_sub_cancel] at hindex
    have hlt : k % iodmEventLimit < iodmEventLimit := Nat.mod_lt _ iodmEventLimit_pos
    have hin : (0 : Int) ≤ (k % iodmEventLimit : Nat) ∧
        ((k % iodmEventLimit : Nat) : Int) < iodmEventLimit :=
      ⟨Int.natCast_nonneg _, Int.ofNat_lt.mpr hlt⟩
    have hevent := hlog.holds k hk (by omega)
    rw [take_succ_reverse hk, List.take_succ_cons, List.takeWhile_cons, IodmEventBuf.countFrom]
    rw [hindex]
    have hat : buf.eventAt outside (k % iodmEventLimit : Nat) =
        buf.event (k % iodmEventLimit) := by
      rw [IodmEventBuf.eventAt, if_pos hin, Int.toNat_natCast]
    rw [hat, hevent.id, hevent.sec]
    by_cases hzero : h[k].id = 0
    · rw [if_pos hzero]
      refine ⟨by simp [hzero], fun x hx => .inl ?_, fun c hc hid => ?_⟩
      · rw [List.mem_singleton.mp hx]
        exact hin
      · rw [← Option.some.inj hc] at hid
        exact absurd hzero hid
    · rw [if_neg hzero]
      by_cases hold : h[k].sec <
          (buf.eventAt outside (buf.cur - 1)).sec - duration.toUInt64
      · rw [if_pos hold]
        refine ⟨by simp [hold], fun x hx => ?_, fun _ _ _ => by simp⟩
        rcases List.mem_cons.mp hx with rfl | hx
        · exact .inl hin
        · exact .inr (List.mem_singleton.mp hx)
      · rw [if_neg hold]
        obtain ⟨hcnt, htouched, -⟩ := ih k (((k % iodmEventLimit : Nat) : Int) - 1) (by omega)
          (by omega) (by omega) (fun hmore => by
            -- before slot 0 comes the last one
            have hlimit : iodmEventLimit = 400 := rfl
            rw [hlimit]
            split <;> omega)
        dsimp only
        rw [hcnt]
        refine ⟨?_, fun x hx => ?_, fun _ _ _ => by simp⟩
        · simp only [ne_eq, hzero, hold, not_false_eq_true, decide_true, Bool.and_true, if_true,
            List.countP_cons, decide_eq_true_eq]
          split <;> rfl
        · rcases List.mem_cons.mp hx with rfl | hx
          · exact .inl hin
          · rcases List.mem_cons.mp hx with rfl | hx
            · exact .inr rfl
            · exact htouched x hx

theorem latest_reverse (h : List IodmCall) :
    (latest iodmEventLimit h).reverse = h.reverse.take (min iodmEventLimit h.length) := by
  rw [latest, ← List.take_reverse, List.take_eq_take_min, List.length_reverse]

theorem iodmEventCount_spec
    (hlog : RingLog iodmEventLimit IodmCall.Stamps h buf.event buf.cur buf.full)
    (hsome : h ≠ []) :
    (buf.iodmEventCount outside id duration).cnt =
        ((latest iodmEventLimit h).reverse.takeWhile fun c => c.id ≠ 0 &&
          ¬c.sec < (buf.eventAt outside (buf.cur - 1)).sec - duration.toUInt64).countP
            (fun c => id = c.id) ∧
      (∀ x ∈ (buf.iodmEventCount outside id duration).touched,
        (0 ≤ x ∧ x < iodmEventLimit) ∨ x = buf.cur - 1) ∧
      ∀ c ∈ (latest iodmEventLimit h).reverse.head?, c.id ≠ 0 →
        (buf.cur : Int) - 1 ∈ (buf.iodmEventCount outside id duration).touched := by
  have hlength := List.length_pos_iff.mpr hsome
  have hcur := hlog.cur_eq
  -- as many as there are, up to the size of the ring
  have hcnt : buf.eventCnt = min iodmEventLimit h.length := by
    rw [IodmEventBuf.eventCnt]
    split
    · next hfull => exact (Nat.min_eq_left (hlog.full_iff.mp hfull)).symm
    · next hfull =>
      have hless : h.length < iodmEventLimit := Nat.not_le.mp (hfull ∘ hlog.full_iff.mpr)
      rw [hcur, Nat.mod_eq_of_lt hless]
      exact (Nat.min_eq_right hless.le).symm
  have hscan := countFrom_spec outside id duration hlog (min iodmEventLimit h.length) h.length
    (buf.cur - 1) (by omega) le_rfl (by omega)
    (fun _ => by
      have hlimit : iodmEventLimit = 400 := rfl
      rw [hlimit] at hcur ⊢
      split <;> omega)
  rw [IodmEventBuf.iodmEventCount, hcnt, latest_reverse]
  rw [List.take_length] at hscan
  exact hscan

theorem latest_reverse_append (older : List IodmCall) (newest : IodmCall) :
    ∃ rest, (latest iodmEventLimit (older ++ [newest])).reverse = newest :: rest := by
  have hone : min iodmEventLimit (older ++ [newest]).length =
      min iodmEventLimit (older ++ [newest]).length - 1 + 1 := by
    rw [List.length_append, List.length_singleton]
    have hpos := iodmEventLimit_pos
    omega
  rw [latest_reverse, hone, List.reverse_append, List.reverse_singleton, List.singleton_append,
    List.take_succ_cons]
  exact ⟨_, rfl⟩

theorem eventAt_newest {older : List IodmCall} {newest : IodmCall}
    (hlog : RingLog iodmEventLimit IodmCall.Stamps (older ++ [newest]) buf.event buf.cur buf.full)
    (hcur : buf.cur ≠ 0) : (buf.eventAt outside (buf.cur - 1)).sec = newest.sec := by
  have hlt := hlog.cur_lt iodmEventLimit_pos
  have hmod := hlog.cur_eq
  rw [List.length_append, List.length_singleton] at hmod
  -- `cur` is behind the newest, and has not come round
  have hslot : ((buf.cur : Int) - 1).toNat = older.length % iodmEventLimit := by
    have hlimit : iodmEventLimit = 400 := rfl
    rw [hlimit] at hmod ⊢
    omega
  have hevent := hlog.holds older.length (by simp) (by
    rw [List.length_append, List.length_singleton]
    exact Nat.add_le_add_left iodmEventLimit_pos _)
  rw [IodmEventBuf.eventAt, if_pos (by omega), hslot, hevent.sec]
  simp

theorem not_lt_sub_iff {duration : UInt32} {newest sec : UInt64}
    (hle : duration.toNat ≤ newest.toNat) :
    ¬sec < newest - duration.toUInt64 ↔ newest.toNat ≤ sec.toNat + duration.toNat := by
  have hsub : (newest - duration.toUInt64).toNat = newest.toNat - duration.toNat :=
    UInt64.toNat_sub_of_le _ _ (UInt64.le_iff_toNat_le.mpr hle)
  rw [UInt64.lt_iff_toNat_lt, hsub]
  omega

theorem lt_sub_of_lt {duration : UInt32} {newest : UInt64} (hlt : newest.toNat < duration.toNat) :
    newest < newest - duration.toUInt64 := by
  have hsmall := duration.toNat_lt
  rw [UInt64.lt_iff_toNat_lt, UInt64.toNat_sub]
  simp only [UInt32.toNat_toUInt64]
  omega

theorem count_recent_iff {duration : UInt32} {newest : IodmCall} {recent : List IodmCall}
    (hle : duration.toNat ≤ newest.sec.toNat)
    (hsorted : recent.Pairwise fun a b => b.sec ≤ a.sec) :
    (recent.takeWhile fun c => c.id ≠ 0 &&
        ¬c.sec < newest.sec - duration.toUInt64).countP (fun c => newest.id = c.id) =
        recent.countP (newest.Counted duration) ↔
      ∀ c ∈ recent.dropWhile (·.id ≠ 0), ¬newest.Counted duration c := by
  have hp : (fun c : IodmCall => c.id ≠ 0 && ¬c.sec < newest.sec - duration.toUInt64) =
      fun c => decide (c.id ≠ 0) && decide (newest.sec.toNat ≤ c.sec.toNat + duration.toNat) := by
    funext c
    rw [decide_eq_decide.mpr (not_lt_sub_iff hle)]
  have hr : (fun c : IodmCall => decide (newest.sec.toNat ≤ c.sec.toNat + duration.toNat) &&
      decide (newest.id = c.id)) = fun c => decide (newest.Counted duration c) := by
    funext c
    simp [IodmCall.Counted, eq_comm, Bool.decide_and, Bool.and_comm]
  -- the events in time are a prefix, as the stamps only grow
  have hback : recent.Pairwise fun a b =>
      decide (newest.sec.toNat ≤ b.sec.toNat + duration.toNat) = true →
        decide (newest.sec.toNat ≤ a.sec.toNat + duration.toNat) = true := by
    refine hsorted.imp fun {a b} hab hlate => ?_
    have hab' := UInt64.le_iff_toNat_le.mp hab
    rw [decide_eq_true_eq] at hlate ⊢
    omega
  -- what comes behind an id of zero is not looked at
  have htotal : recent.countP (newest.Counted duration) =
      (recent.takeWhile (·.id ≠ 0)).countP (newest.Counted duration) +
        (recent.dropWhile (·.id ≠ 0)).countP (newest.Counted duration) := by
    rw [← List.countP_append, List.takeWhile_append_dropWhile]
  rw [hp, countP_takeWhile_and hback, hr, htotal, left_eq_add, List.countP_eq_zero]
  simp only [decide_eq_true_eq]

/-- **Event count**: `iodmEventCount` for the newest event stays in the array and counts what is
    stored of its kind and not much older, if and only if the newest event is not in the last
    slot, it is not older than the duration, and nothing that counts stands at or behind an event
    with id 0. -/
theorem event_count_iff {s : IodmHistory} {rs : List IodmRequest} (hrun : Run IodmStep {} rs s)
    {older : List IodmCall} {newest : IodmCall} (hsince : s.since = older ++ [newest])
    (hsorted : s.since.Pairwise fun a b => a.sec ≤ b.sec) (outside : Int → IodmEvent)
    (duration : UInt32) :
    CountsRight s outside newest duration ↔ CountsAll s.since newest duration := by
  have hlog := (log_of_run hrun).mono fun _ _ h => h.toStamps
  have hcurEq := hlog.cur_eq
  obtain ⟨hcnt, htouched, hlast⟩ := iodmEventCount_spec outside newest.id duration hlog
    (by rw [hsince]; exact List.append_ne_nil_of_right_ne_nil _ nofun)
  obtain ⟨rest, hrecent⟩ := latest_reverse_append older newest
  rw [← hsince] at hrecent
  -- the newest event counts itself
  have hself : newest.Counted duration newest := ⟨rfl, Nat.le_add_right ..⟩
  have hpos : 0 < (latest iodmEventLimit s.since).countP (newest.Counted duration) := by
    rw [← List.countP_reverse, hrecent]
    exact List.countP_pos_iff.mpr ⟨newest, List.mem_cons_self, by simpa using hself⟩
  have hnone (hfirst : ¬(newest.id ≠ 0 ∧
      ¬newest.sec < (s.buf.eventAt outside (s.buf.cur - 1)).sec - duration.toUInt64)) :
      (s.buf.iodmEventCount outside newest.id duration).cnt = 0 := by
    rw [hcnt, hrecent, List.takeWhile_cons, if_neg (by simpa using hfirst), List.countP_nil]
  by_cases hcur : s.buf.cur = 0
  · refine iff_of_false (fun h => ?_) (fun h => h.notLast (hcurEq.symm.trans hcur))
    by_cases hid : newest.id = 0
    · have hzero := hnone fun hfirst => hfirst.1 hid
      have hall := h.cnt
      omega
    · -- `event[-1]`
      have hbefore := h.inside _ (hlast newest (by rw [hrecent]; rfl) hid)
      omega
  · have hsec := eventAt_newest outside (hsince ▸ hlog) hcur
    rw [hsec] at hcnt hnone
    by_cases hle : duration.toNat ≤ newest.sec.toNat
    · have hback : (latest iodmEventLimit s.since).reverse.Pairwise fun a b => b.sec ≤ a.sec :=
        List.pairwise_reverse.mpr (hsorted.sublist (List.drop_sublist ..))
      have hscan := count_recent_iff hle hback
      rw [List.countP_reverse, ← hcnt] at hscan
      have hlt := hlog.cur_lt iodmEventLimit_pos
      constructor
      · intro h
        exact ⟨fun hwrap => hcur (hcurEq.trans hwrap), hle, hscan.mp h.cnt⟩
      · intro h
        refine ⟨fun i hi => ?_, hscan.mpr h.noZero⟩
        rcases htouched i hi with hin | rfl
        · exact hin
        · omega
    · refine iff_of_false (fun h => ?_) (fun h => hle h.duration_le)
      have hzero := hnone fun hfirst => hfirst.2 (lt_sub_of_lt (Nat.not_le.mp hle))
      have hall := h.cnt
      omega

def linkdownAt (sec : UInt64) : IodmCall := { id := iodmLinkdown, sec := sec }

/-- The link went down twice in half a minute. -/
theorem event_count_two : CountsRight
    ((IodmHistory.exec {} (.event (linkdownAt 100))).exec (.event (linkdownAt 130)))
    (fun _ => {}) (linkdownAt 130) 60 :=
  (@event_count_iff _ [.event (linkdownAt 100), .event (linkdownAt 130)]
    (.cons rfl (.cons rfl (.nil _))) [linkdownAt 100] (linkdownAt 130) rfl (by decide) _ 60).mpr
    ⟨by decide, by decide, by decide⟩

/-- The event that fills the last slot is compared with what stands before the array; and a first
    event with id 0 is not counted. -/
theorem event_count_outside :
    (∃ s, Run IodmStep {} ((List.replicate iodmEventLimit (linkdownAt 100)).map .event) s ∧
      ¬CountsRight s (fun _ => {}) (linkdownAt 100) 60) ∧
    ¬CountsRight (IodmHistory.exec {} (.event { id := 0, sec := 100 })) (fun _ => {})
      { id := 0, sec := 100 } 60 := by
  constructor
  · obtain ⟨s, hrun, hsince⟩ := run_events (List.replicate iodmEventLimit (linkdownAt 100)) {}
    refine ⟨s, hrun, fun h => ?_⟩
    have hlog := (log_of_run hrun).mono fun _ _ h => h.toStamps
    have hlength : s.since.length = iodmEventLimit := by
      rw [hsince]
      exact List.length_replicate
    have hcur : s.buf.cur = 0 := by rw [hlog.cur_eq, hlength, Nat.mod_self]
    obtain ⟨-, -, hlast⟩ := iodmEventCount_spec (fun _ => {}) iodmLinkdown 60 hlog
      (List.length_pos_iff.mp (hlength ▸ iodmEventLimit_pos))
    -- the ring is full, and the newest stands in its last slot
    have hfirst : (latest iodmEventLimit s.since).reverse.head? =
        some (linkdownAt 100) := by
      have hlimit : iodmEventLimit = 399 + 1 := rfl
      obtain ⟨rest, hrest⟩ := latest_reverse_append
        (List.replicate 399 (linkdownAt 100)) (linkdownAt 100)
      rw [← List.replicate_succ', ← hlimit] at hrest
      rw [hsince]
      exact congrArg List.head? hrest
    have hbefore := h.inside _ (hlast _ hfirst (by decide))
    rw [hcur] at hbefore
    omega
  · intro h
    exact absurd h.cnt (by decide)

end VmkDrivers.Vmklinux
