/-
  VmkDrivers.Wfs.BertRtt

  The round trip times of a bit error rate test.

  `wfs_process_bert` takes a response for the first one if the average is 0.
  The average is 0 as well when the times so far were so small that it was
  rounded down to it, and then the extremes are forgotten.  They are right all
  along a test exactly if no response comes to an average of 0 but the first one
  and one of 0 after nothing but zeros (`rtt_extremes_iff`).
-/

import VmkDrivers.Lib.RunningAverage
import VmkDrivers.Wfs.BertAccount

namespace VmkDrivers.Wfs

open VmkDrivers.Lib

/-! ## The times of an entry -/

structure RttAccount where
  on : Bool
  rxPkts : UInt64
  rttMax : UInt64
  rttMin : UInt64
  rttAvg : UInt64

def WfsBertCfg.rtt (cfg : WfsBertCfg) : RttAccount :=
  { on := cfg.on, rxPkts := cfg.stats.rxPkts, rttMax := cfg.stats.rttMax
    rttMin := cfg.stats.rttMin, rttAvg := cfg.stats.rttAvg }

/-- A response with the round trip time `x` is counted. -/
def RttAccount.arrive (a : RttAccount) (x : UInt64) : RttAccount :=
  if a.rttAvg = 0 then { a with rxPkts := a.rxPkts + 1, rttMax := x, rttMin := x, rttAvg := x }
  else
    { a with
      rxPkts := a.rxPkts + 1
      rttMax := if x > a.rttMax then x else a.rttMax
      rttMin := if x > a.rttMax then a.rttMin else if x < a.rttMin then x else a.rttMin
      rttAvg := (a.rxPkts * a.rttAvg + x) / (a.rxPkts + 1) }

@[simp] theorem countSeqno_rtt (cfg : WfsBertCfg) (n : UInt32) :
    (countSeqno cfg n).rtt = cfg.rtt := by
  unfold countSeqno
  split
  · rfl
  · split <;> rfl

@[simp] theorem countErrors_rtt (cfg : WfsBertCfg) (opt : WfsoptBert) (wrongSize : Bool)
    (csum : UInt16) : (countErrors cfg opt wrongSize csum).rtt = cfg.rtt := by
  unfold countErrors
  split <;> split <;> rfl

@[simp] theorem noteSend_rtt (jiffies : UInt64) (seqno : UInt32) (cfg : WfsBertCfg) :
    (noteSend jiffies seqno cfg).rtt = cfg.rtt := by
  unfold noteSend
  split <;> rfl

@[simp] theorem countSent_rtt (type : UInt8) (len : Nat) (cfg : WfsBertCfg) :
    (countSent type len cfg).rtt = cfg.rtt := by
  unfold countSent
  split <;> rfl

theorem bertResponse_rtt (inp : BertInputs) (pkt : Skb) (opt : WfsoptBert) (wrongSize : Bool)
    (csum : UInt16) {cfg : WfsBertCfg} (hon : cfg.on = true) :
    (bertResponse inp pkt opt wrongSize csum cfg).rtt = cfg.rtt.arrive (inp.now - opt.ts) := by
  have hrunning : ¬(!cfg.on) = true := by rw [hon]; decide
  unfold bertResponse
  rw [if_neg hrunning]
  rw [countErrors_rtt, countSeqno_rtt]
  unfold countRx countRtt RttAccount.arrive
  by_cases hfirst : cfg.stats.rttAvg = 0
  · rw [if_pos hfirst, if_pos (show cfg.rtt.rttAvg = 0 from hfirst)]
    rfl
  · rw [if_neg hfirst, if_neg (show ¬cfg.rtt.rttAvg = 0 from hfirst)]
    dsimp only [WfsBertCfg.rtt]
    by_cases hmax : inp.now - opt.ts > cfg.stats.rttMax
    · simp only [hmax, if_true]
    · by_cases hmin : inp.now - opt.ts < cfg.stats.rttMin
      · simp only [hmax, hmin, if_true, if_false]
      · simp only [hmax, hmin, if_false]

/-! ## A test -/

def BertOp.elapse : BertOp → Option UInt64
  | .receive inp _ pkt o =>
    let opt := bertAt pkt.opts o
    if opt.type = wfsoptBertResponse then some (inp.now - opt.ts) else none
  | .send .. => none

/-- An operation of the station `e`.  Its own frames do not get to the handler. -/
def BertOp.At (e : WfsId) : BertOp → Prop
  | .receive _ core pkt _ => core.wfsId = e ∧ WfsId.ofByte? pkt.src ≠ some e
  | .send core .. => core.wfsId = e

structure RttWatch where
  wfsbert : WfsId → WfsBertCfg
  elapses : List Nat := []

/-- An operation of the station `e`, with fewer than 2^31 responses of less than 2^31
    microseconds. -/
def RttStep (e : WfsId) (w : RttWatch) (op : BertOp) (w' : RttWatch) : Prop :=
  op.At e ∧ BertAccountStep w.wfsbert op w'.wfsbert ∧
    w'.elapses = w.elapses ++ (op.elapse.map UInt64.toNat).toList ∧
    w'.elapses.length < 2 ^ 31 ∧
    ∀ x ∈ op.elapse, x.toNat < 2 ^ 31

theorem RttStep.unique {e : WfsId} {w v v' : RttWatch} {op : BertOp} (h : RttStep e w op v)
    (h' : RttStep e w op v') : v = v' := by
  obtain ⟨-, hstep, helapses, -⟩ := h
  obtain ⟨-, hstep', helapses', -⟩ := h'
  have hentries : v.wfsbert = v'.wfsbert := Except.ok.inj (hstep.symm.trans hstep')
  cases v
  cases v'
  simp_all

def RttExtremes (a : RttAccount) (elapses : List Nat) : Prop :=
  elapses ≠ [] → IsLeast {x | x ∈ elapses} a.rttMin.toNat ∧
    IsGreatest {x | x ∈ elapses} a.rttMax.toNat ∧ a.rttMin ≤ a.rttAvg ∧ a.rttAvg ≤ a.rttMax

/-- A response does not come to an average of 0, unless it is the first one, or one of 0 after
    nothing but zeros. -/
def RttSound (e : WfsId) (w : RttWatch) (op : BertOp) : Prop :=
  ∀ x ∈ op.elapse, (w.wfsbert e).stats.rttAvg = 0 →
    (w.wfsbert e).stats.rxPkts = 0 ∨ x = 0 ∧ (w.wfsbert e).stats.rttMax = 0

theorem rtt_of_step {e : WfsId} {s t : WfsId → WfsBertCfg} {op : BertOp}
    (h : BertAccountStep s op t) (hat : op.At e) (hon : (s e).on = true) :
    (t e).rtt = match op.elapse with
      | none => (s e).rtt
      | some x => (s e).rtt.arrive x := by
  cases op with
  | send core jiffies seqno type len =>
    simp only [BertAccountStep, BertOp.step, Except.ok.injEq] at h
    subst h
    obtain rfl : core.wfsId = e := hat
    rw [Function.update_self, countSent_rtt, noteSend_rtt]
    rfl
  | receive inp core pkt o =>
    obtain ⟨rfl, hother⟩ := hat
    obtain ⟨src, hsrc, wrongSize, csum, -, -, hcase⟩ := receive_cases h
    have hne : core.wfsId ≠ src := fun heq => hother (heq ▸ hsrc)
    have helapse : (BertOp.receive inp core pkt o).elapse =
        if (bertAt pkt.opts o).type = wfsoptBertResponse then
          some (inp.now - (bertAt pkt.opts o).ts) else none := rfl
    rw [helapse]
    rcases hcase with ⟨htype, rfl⟩ | ⟨htype, rfl⟩ | ⟨htype, rfl⟩ | ⟨hres, -, -, rfl⟩
    · rw [if_pos htype, Function.update_self, bertResponse_rtt _ _ _ _ _ hon]
    · rw [if_neg (by rw [htype]; decide), Function.update_of_ne hne]
    · rw [if_neg (by rw [htype]; decide), Function.update_of_ne hne]
    · rw [if_neg hres]

/-! ## The extremes -/

/-- The times of an entry after `elapses`, as long as they are right. -/
structure RttOk (a : RttAccount) (elapses : List Nat) : Prop where
  on : a.on = true
  rxPkts : a.rxPkts.toNat = elapses.length
  small : ∀ x ∈ elapses, x < 2 ^ 31
  first : elapses = [] → a.rttAvg = 0
  extremes : RttExtremes a elapses

variable {a : RttAccount} {x : UInt64}

theorem RttOk.toNat_average {elapses : List Nat} (h : RttOk a elapses) (hne : elapses ≠ [])
    (hlen : elapses.length + 1 < 2 ^ 31) (hx : x.toNat < 2 ^ 31) :
    ((a.rxPkts * a.rttAvg + x) / (a.rxPkts + 1)).toNat =
      averageStep elapses.length a.rttAvg.toNat x.toNat := by
  obtain ⟨-, hgreatest, -, hle⟩ := h.extremes hne
  have hmax := h.small _ hgreatest.1
  have havg := UInt64.le_iff_toNat_le.mp hle
  have hprod : elapses.length * a.rttAvg.toNat ≤ 2 ^ 31 * 2 ^ 31 :=
    Nat.mul_le_mul (by omega) (by omega)
  rw [UInt64.toNat_div, UInt64.toNat_add, UInt64.toNat_mul, UInt64.toNat_add, h.rxPkts,
    UInt64.toNat_one, Nat.mod_eq_of_lt (a := elapses.length * a.rttAvg.toNat) (by omega),
    Nat.mod_eq_of_lt (by omega), Nat.mod_eq_of_lt (by omega), averageStep]

theorem RttOk.toNat_arrive {elapses : List Nat} (h : RttOk a elapses) (hne : elapses ≠ [])
    (hlen : elapses.length + 1 < 2 ^ 31) (havg : a.rttAvg ≠ 0) (hx : x.toNat < 2 ^ 31) :
    (a.arrive x).rttMax.toNat = max a.rttMax.toNat x.toNat ∧
      (a.arrive x).rttMin.toNat = min a.rttMin.toNat x.toNat ∧
      (a.arrive x).rttAvg.toNat = averageStep elapses.length a.rttAvg.toNat x.toNat := by
  obtain ⟨-, -, hlow, hhigh⟩ := h.extremes hne
  have hle := UInt64.le_iff_toNat_le.mp hlow
  have hle' := UInt64.le_iff_toNat_le.mp hhigh
  unfold RttAccount.arrive
  rw [if_neg havg]
  refine ⟨?_, ?_, h.toNat_average hne hlen hx⟩
  · dsimp only
    split
    · next hgt =>
      have := UInt64.lt_iff_toNat_lt.mp hgt
      omega
    · next hgt =>
      have := mt UInt64.lt_iff_toNat_lt.mpr hgt
      omega
  · dsimp only
    split
    · next hgt =>
      have := UInt64.lt_iff_toNat_lt.mp hgt
      omega
    · split
      · next hlt =>
        have := UInt64.lt_iff_toNat_lt.mp hlt
        omega
      · next hlt =>
        have := mt UInt64.lt_iff_toNat_lt.mpr hlt
        omega

section Arrive

variable {a : RttAccount} {elapses : List Nat} (h : RttOk a elapses) {x : UInt64}

include h

theorem RttOk.rxPkts_eq_zero_iff : a.rxPkts = 0 ↔ elapses = [] := by
  rw [← UInt64.toNat_inj, h.rxPkts]
  exact List.length_eq_zero_iff

theorem RttOk.toNat_rxPkts_succ (hlen : elapses.length + 1 < 2 ^ 31) :
    (a.rxPkts + 1).toNat = (elapses ++ [x.toNat]).length := by
  rw [UInt64.toNat_add, h.rxPkts, List.length_append, List.length_singleton]
  exact Nat.mod_eq_of_lt (by
    change elapses.length + 1 < 2 ^ 64
    omega)

theorem RttOk.small_concat (hx : x.toNat < 2 ^ 31) : ∀ y ∈ elapses ++ [x.toNat], y < 2 ^ 31 := by
  intro y hy
  rcases List.mem_append.mp hy with hy | hy
  · exact h.small y hy
  · rwa [List.mem_singleton.mp hy]

theorem RttOk.arrive_average (havg : a.rttAvg ≠ 0) (hx : x.toNat < 2 ^ 31)
    (hlen : elapses.length + 1 < 2 ^ 31) : RttOk (a.arrive x) (elapses ++ [x.toNat]) := by
  have hne : elapses ≠ [] := fun hnil => havg (h.first hnil)
  obtain ⟨hmax, hmin, havg'⟩ := h.toNat_arrive hne hlen havg hx
  obtain ⟨hleast, hgreatest, hlow, hhigh⟩ := h.extremes hne
  have hon : (a.arrive x).on = true ∧ (a.arrive x).rxPkts = a.rxPkts + 1 := by
    unfold RttAccount.arrive
    rw [if_neg havg]
    exact ⟨h.on, rfl⟩
  -- the new average lies between the extremes, for the old one and the time do
  obtain ⟨havglow, havghigh⟩ := averageStep_bounds (n := elapses.length) (x := x.toNat)
    ((min_le_left _ _).trans (UInt64.le_iff_toNat_le.mp hlow))
    ((UInt64.le_iff_toNat_le.mp hhigh).trans (le_max_left _ _)) (min_le_right _ _)
    (le_max_right _ _)
  refine ⟨hon.1, hon.2 ▸ h.toNat_rxPkts_succ hlen, h.small_concat hx, fun hnil => ?_, fun _ => ?_⟩
  · exact absurd hnil (List.append_ne_nil_of_right_ne_nil _ (List.cons_ne_nil _ _))
  · refine ⟨?_, ?_, ?_, ?_⟩
    · rw [hmin]
      exact isLeast_concat hleast _
    · rw [hmax]
      exact isGreatest_concat hgreatest _
    · rw [UInt64.le_iff_toNat_le, hmin, havg']
      exact havglow
    · rw [UInt64.le_iff_toNat_le, hmax, havg']
      exact havghigh

theorem RttOk.rttMin_eq_zero (hzero : a.rttAvg = 0) (hne : elapses ≠ []) : a.rttMin.toNat = 0 := by
  obtain ⟨-, -, hlow, -⟩ := h.extremes hne
  have hle := UInt64.le_iff_toNat_le.mp hlow
  rw [hzero] at hle
  exact Nat.le_zero.mp hle

theorem RttOk.arrive_zero_iff (hzero : a.rttAvg = 0) :
    RttExtremes (a.arrive x) (elapses ++ [x.toNat]) ↔ a.rxPkts = 0 ∨ x = 0 ∧ a.rttMax = 0 := by
  have harrive : a.arrive x =
      { a with rxPkts := a.rxPkts + 1, rttMax := x, rttMin := x, rttAvg := x } := if_pos hzero
  rw [harrive, h.rxPkts_eq_zero_iff]
  by_cases hne : elapses = []
  · subst hne
    refine iff_of_true (fun _ => ?_) (.inl rfl)
    exact ⟨isLeast_singleton_list _, isGreatest_singleton_list _, UInt64.le_refl x,
      UInt64.le_refl x⟩
  · obtain ⟨hleast, hgreatest, -, -⟩ := h.extremes hne
    have hmin := h.rttMin_eq_zero hzero hne
    rw [or_iff_right hne]
    constructor
    · intro hextremes
      -- the least time so far was 0, and the new one has taken its place and the greatest's
      obtain ⟨hleast', hgreatest', -, -⟩ := hextremes
        (List.append_ne_nil_of_right_ne_nil _ (List.cons_ne_nil _ _))
      have hxle := hleast'.2 (List.mem_append_left _ hleast.1)
      have hmaxle := hgreatest'.2 (List.mem_append_left _ hgreatest.1)
      have hzero64 : (0 : UInt64).toNat = 0 := rfl
      dsimp only at hxle hmaxle
      refine ⟨UInt64.toNat_inj.mp ?_, UInt64.toNat_inj.mp ?_⟩
      · omega
      · omega
    · rintro ⟨rfl, hmax⟩ -
      have hleast' := isLeast_concat hleast (0 : UInt64).toNat
      have hgreatest' := isGreatest_concat hgreatest (0 : UInt64).toNat
      rw [hmin] at hleast'
      rw [hmax] at hgreatest'
      exact ⟨hleast', hgreatest', UInt64.le_refl 0, UInt64.le_refl 0⟩

/-- **One more time.** The extremes stay right if and only if the time does not come to an
    average of 0, or is the first one, or one of 0 after nothing but zeros. -/
theorem RttOk.arrive (hx : x.toNat < 2 ^ 31) (hlen : elapses.length + 1 < 2 ^ 31) :
    ((a.rttAvg = 0 → a.rxPkts = 0 ∨ x = 0 ∧ a.rttMax = 0) →
        RttOk (a.arrive x) (elapses ++ [x.toNat])) ∧
      (RttExtremes (a.arrive x) (elapses ++ [x.toNat]) →
        a.rttAvg = 0 → a.rxPkts = 0 ∨ x = 0 ∧ a.rttMax = 0) := by
  by_cases hzero : a.rttAvg = 0
  · have hiff := h.arrive_zero_iff (x := x) hzero
    refine ⟨fun hsound => ?_, fun hextremes _ => hiff.mp hextremes⟩
    have hextremes := hiff.mpr (hsound hzero)
    have hcount := h.toNat_rxPkts_succ (x := x) hlen
    rw [show a.arrive x = _ from if_pos hzero] at hextremes ⊢
    exact ⟨h.on, hcount, h.small_concat hx, fun hnil => absurd hnil (by simp), hextremes⟩
  · exact ⟨fun _ => h.arrive_average hzero hx hlen, fun _ hzero' => absurd hzero' hzero⟩

end Arrive

/-! ## Runs of a test -/

/-- **One step** of a test. -/
theorem RttOk.of_step {e : WfsId} {w w' : RttWatch} {op : BertOp}
    (h : RttOk (w.wfsbert e).rtt w.elapses) (hstep : RttStep e w op w') :
    (RttSound e w op → RttOk (w'.wfsbert e).rtt w'.elapses) ∧
      (RttExtremes (w'.wfsbert e).rtt w'.elapses → RttSound e w op) := by
  obtain ⟨hat, hentries, helapses, hlen, hsmall⟩ := hstep
  have hentry := rtt_of_step hentries hat h.on
  unfold RttSound
  cases helapse : op.elapse with
  | none =>
    rw [helapse, Option.map_none, Option.toList_none, List.append_nil] at helapses
    rw [helapse] at hentry
    rw [hentry, helapses]
    exact ⟨fun _ => h, fun _ x hx => absurd hx (Option.not_mem_none x)⟩
  | some x =>
    rw [helapse, Option.map_some, Option.toList_some] at helapses
    rw [helapse] at hentry
    rw [helapses, List.length_append, List.length_singleton] at hlen
    rw [hentry, helapses]
    obtain ⟨hkeep, hneed⟩ := h.arrive (hsmall x helapse) hlen
    constructor
    · intro hsound
      exact hkeep (hsound x rfl)
    · intro hextremes y hy
      obtain rfl := Option.mem_some_iff.mp hy
      exact hneed hextremes

section Start

variable {π : Type} {f : List UInt8 → UInt16} {key : FibKey} {wfsid : WfsId} {data : List UInt8}
  {kmalloc : Bool} {buf : Option Skb} {rq₀ rq : Requester π}

theorem rttOk_start
    (hstart : ixgbeWfsBertStartRequest f key wfsid data kmalloc buf rq₀ = .ok (rq, 0)) :
    RttOk rq.cfg.rtt [] := by
  obtain ⟨skb, -, -, rfl⟩ := startRequest_spec hstart
  change RttOk (Requester.cfg (Requester.setCfg _ _)).rtt []
  rw [Requester.cfg_setCfg]
  exact ⟨rfl, rfl, fun x hx => absurd hx List.not_mem_nil, fun _ => rfl, fun hne => absurd rfl hne⟩

/-- **The round trip times are the true extremes** all along a test exactly if no response comes
    to an average of 0, but the first one and one of 0 after nothing but zeros. -/
theorem rtt_extremes_iff
    (hstart : ixgbeWfsBertStartRequest f key wfsid data kmalloc buf rq₀ = .ok (rq, 0))
    {e : WfsId} (he : rq.station.iwa.core.wfsId = e) {ops : List BertOp} {w : RttWatch}
    (hrun : Run (RttStep e) { wfsbert := rq.station.wfsbert } ops w) :
    Always (RttStep e) (fun v => RttExtremes (v.wfsbert e).rtt v.elapses)
        { wfsbert := rq.station.wfsbert } ops ↔
      Run (Guarded (RttStep e) (RttSound e)) { wfsbert := rq.station.wfsbert } ops w := by
  subst he
  apply always_iff_guarded (fun _ _ _ _ h h' => h.unique h')
    (I := fun v => RttOk (v.wfsbert rq.station.iwa.core.wfsId).rtt v.elapses)
  · intro v hv
    exact hv.extremes
  · intro v op v' hv hstep
    exact hv.of_step hstep
  · exact hrun
  · exact rttOk_start hstart

end Start

/-! ## Times below a microsecond -/

/-- A response of station 1 with the time stamp 0 that comes at the time `now`. -/
def responseAt (now : UInt64) : BertOp :=
  .receive { now } (testStation 0).iwa.core (numberedFrame wfsoptBertResponse 0) 0

/-- The state of station 0 after the operation of a response at `now`. -/
def rttNext (w : RttWatch) (now : UInt64) : Option RttWatch :=
  ((responseAt now).step w.wfsbert).toOption.map fun wfsbert =>
    { wfsbert, elapses := w.elapses ++ [now.toNat] }

theorem elapse_responseAt (now : UInt64) : (responseAt now).elapse = some now := by
  have hts : (bertAt (numberedFrame wfsoptBertResponse 0).opts 0).ts = 0 := by decide +kernel
  have htype : (bertAt (numberedFrame wfsoptBertResponse 0).opts 0).type = wfsoptBertResponse := by
    decide +kernel
  unfold responseAt BertOp.elapse
  dsimp only
  rw [if_pos htype, hts, UInt64.sub_zero]

theorem rttStep_of_next {w w' : RttWatch} {now : UInt64} (h : rttNext w now = some w')
    (hlen : w'.elapses.length < 2 ^ 31) (hnow : now.toNat < 2 ^ 31) :
    RttStep 0 w (responseAt now) w' := by
  obtain ⟨t, ht, rfl⟩ := Option.map_eq_some_iff.mp h
  have hstep : BertAccountStep w.wfsbert (responseAt now) t := by
    unfold BertAccountStep
    cases hop : (responseAt now).step w.wfsbert with
    | error fault =>
      rw [hop] at ht
      cases ht
    | ok u =>
      rw [hop] at ht
      exact congrArg Except.ok (Option.some.inj ht)
  unfold RttStep
  rw [elapse_responseAt]
  refine ⟨⟨rfl, by decide⟩, hstep, rfl, hlen, ?_⟩
  intro x hx
  rwa [← Option.mem_some_iff.mp hx]

theorem zeroThenFive :
    ∃ rq w, startTest [0] = .ok (rq, 0) ∧
      Run (RttStep 0) { wfsbert := rq.station.wfsbert } [responseAt 0, responseAt 5] w ∧
      rq.station.iwa.core.wfsId = 0 ∧ w.elapses = [0, 5] ∧ (w.wfsbert 0).stats.rttMin = 5 := by
  have heval : (match startTest [0] with
      | .ok (rq, ret) => if ret = 0 then (rttNext { wfsbert := rq.station.wfsbert } 0).bind fun v =>
          (rttNext v 5).map fun w => (v.elapses, w.elapses, (w.wfsbert 0).stats.rttMin)
        else none
      | .error _ => none) = some ([0], [0, 5], 5) := by decide +kernel
  split at heval
  · next rq ret hstart =>
      obtain ⟨rfl, hsome⟩ := Option.ite_none_right_eq_some.mp heval
      obtain ⟨v, hv, hrest⟩ := Option.bind_eq_some_iff.mp hsome
      obtain ⟨w, hw, hvalues⟩ := Option.map_eq_some_iff.mp hrest
      simp only [Prod.mk.injEq] at hvalues
      obtain ⟨hfirst, hboth, hmin⟩ := hvalues
      obtain ⟨skb, -, -, hrq⟩ := startRequest_spec hstart
      have hstep := rttStep_of_next hv (by rw [hfirst]; decide) (by decide)
      have hstep' := rttStep_of_next hw (by rw [hboth]; decide) (by decide)
      exact ⟨rq, w, hstart, .cons hstep (.single hstep'), by rw [hrq]; rfl, hboth, hmin⟩
  · cases heval

theorem rtt_extremes_iff_zeroThenFive :
    ∃ rq w, startTest [0] = .ok (rq, 0) ∧
      Run (RttStep 0) { wfsbert := rq.station.wfsbert } [responseAt 0, responseAt 5] w ∧
      (Always (RttStep 0) (fun v => RttExtremes (v.wfsbert 0).rtt v.elapses)
          { wfsbert := rq.station.wfsbert } [responseAt 0, responseAt 5] ↔
        Run (Guarded (RttStep 0) (RttSound 0)) { wfsbert := rq.station.wfsbert }
          [responseAt 0, responseAt 5] w) := by
  obtain ⟨rq, w, hstart, hrun, he, -, -⟩ := zeroThenFive
  exact ⟨rq, w, hstart, hrun, rtt_extremes_iff hstart he hrun⟩

/-- The least time is forgotten. -/
theorem rtt_min_zeroThenFive :
    ∃ rq w, startTest [0] = .ok (rq, 0) ∧
      Run (RttStep 0) { wfsbert := rq.station.wfsbert } [responseAt 0, responseAt 5] w ∧
      w.elapses = [0, 5] ∧ ¬RttExtremes (w.wfsbert 0).rtt w.elapses := by
  obtain ⟨rq, w, hstart, hrun, -, helapses, hmin⟩ := zeroThenFive
  refine ⟨rq, w, hstart, hrun, helapses, fun hextremes => ?_⟩
  rw [helapses] at hextremes
  have hleast := (hextremes (List.cons_ne_nil _ _)).1.2 List.mem_cons_self
  rw [show (w.wfsbert 0).rtt.rttMin = 5 from hmin] at hleast
  exact absurd hleast (by decide)

end VmkDrivers.Wfs
