/-
  VmkDrivers.Wfs.BertAccount

  What the counters of a bit error rate test say about the loss.

  An entry of `wfsbert[]` counts the numbered frames of one sender: the
  requests of a station, or the responses to the own test.  Whatever else the
  station receives or sends, the entry counts like the receiver of numbered
  messages of `Lib.GapCount` (`Counts.of_step`), so its counters balance and
  tell the true loss (`bert_balance`).
-/

import VmkDrivers.Lib.GapCount
import VmkDrivers.Wfs.BertTest

namespace VmkDrivers.Wfs

open VmkDrivers.Lib

/-! ## The counters of an entry -/

structure SeqAccount where
  on : Bool
  seqno : UInt32
  rxPkts : UInt64
  errDrop : UInt64
  errSeq : UInt64

def WfsBertCfg.account (cfg : WfsBertCfg) : SeqAccount :=
  { on := cfg.on, seqno := cfg.seqno, rxPkts := cfg.stats.rxPkts, errDrop := cfg.stats.errDrop
    errSeq := cfg.stats.errSeq }

/-- A frame with the number `n` is counted. -/
def SeqAccount.arrive (a : SeqAccount) (n : UInt32) : SeqAccount :=
  if n < a.seqno then { a with rxPkts := a.rxPkts + 1, errSeq := a.errSeq + 1 }
  else
    { a with
      seqno := n + 1, rxPkts := a.rxPkts + 1
      errDrop := a.errDrop + (n - a.seqno).toUInt64 }

variable (cfg : WfsBertCfg) (inp : BertInputs)

@[simp] theorem countErrors_account (opt : WfsoptBert) (wrongSize : Bool) (csum : UInt16) :
    (countErrors cfg opt wrongSize csum).account = cfg.account := by
  unfold countErrors
  split <;> split <;> rfl

@[simp] theorem countTx_account (len : UInt8) : (countTx cfg len).account = cfg.account := rfl

@[simp] theorem countSent_account (type : UInt8) (len : Nat) (cfg : WfsBertCfg) :
    (countSent type len cfg).account = cfg.account := by
  unfold countSent
  split <;> rfl

theorem noteSend_account (jiffies : UInt64) {seqno : UInt32} (h : ¬seqno ≤ 5)
    (cfg : WfsBertCfg) : (noteSend jiffies seqno cfg).account = cfg.account := by
  unfold noteSend
  rw [if_neg h]
  rfl

theorem countRtt_account (jfsLast elapse : UInt64) :
    ({ cfg with jfsLast, stats := countRtt cfg.stats elapse } : WfsBertCfg).account =
      cfg.account := by
  unfold countRtt
  split
  · rfl
  · simp only
    split
    · rfl
    · split <;> rfl

theorem countRx_countSeqno_account (n : UInt32) (len : UInt8) :
    (countRx (countSeqno cfg n) len).account = cfg.account.arrive n := by
  unfold countSeqno SeqAccount.arrive
  by_cases hlt : n < cfg.seqno
  · rw [if_pos hlt, if_pos (show n < cfg.account.seqno from hlt)]
    rfl
  · rw [if_neg hlt, if_neg (show ¬n < cfg.account.seqno from hlt)]
    by_cases hgt : n > cfg.seqno
    · rw [if_pos hgt]
      rfl
    · have heq : n = cfg.seqno := UInt32.le_antisymm (UInt32.not_lt.mp hgt) (UInt32.not_lt.mp hlt)
      rw [if_neg hgt, heq]
      simp [countRx, WfsBertCfg.account]

theorem countSeqno_countRx (n : UInt32) (len : UInt8) :
    countSeqno (countRx cfg len) n = countRx (countSeqno cfg n) len := by
  unfold countSeqno countRx
  split
  · rfl
  · split <;> rfl

theorem countErrors_countRx_account (opt : WfsoptBert) (wrongSize : Bool) (csum : UInt16)
    (len : UInt8) :
    (countRx (countErrors cfg opt wrongSize csum) len).account = (countRx cfg len).account := by
  unfold countErrors
  split <;> split <;> rfl

theorem bertRequest_account (pkt : Skb) (opt : WfsoptBert) (wrongSize : Bool) (csum : UInt16)
    (cfg : WfsBertCfg) :
    (bertRequest inp pkt opt wrongSize csum cfg).account = cfg.account.arrive opt.seqno := by
  unfold bertRequest
  simp only
  rw [countTx_account, countErrors_countRx_account, countRx_countSeqno_account]
  rfl

variable {cfg : WfsBertCfg}

theorem bertResponse_account (pkt : Skb) (opt : WfsoptBert) (wrongSize : Bool) (csum : UInt16)
    (hon : cfg.on = true) :
    (bertResponse inp pkt opt wrongSize csum cfg).account = cfg.account.arrive opt.seqno := by
  have hrunning : ¬(!cfg.on) = true := by rw [hon]; decide
  unfold bertResponse
  rw [if_neg hrunning]
  rw [countErrors_account, countSeqno_countRx, countRx_countSeqno_account, countRtt_account]

theorem bertResponse_off (pkt : Skb) (opt : WfsoptBert) (wrongSize : Bool) (csum : UInt16)
    (hoff : cfg.on = false) : bertResponse inp pkt opt wrongSize csum cfg = cfg := by
  unfold bertResponse
  simp only [hoff, Bool.not_false, if_true]

/-! ## What a station does with its entries -/

/-- A step on `wfsbert[]`: a BERT frame is received, or one of the own test is sent. -/
inductive BertOp where
  | receive (inp : BertInputs) (core : RapsCore) (pkt : Skb) (o : Nat)
  | send (core : RapsCore) (jiffies : UInt64) (seqno : UInt32) (type : UInt8) (len : Nat)

namespace BertOp

def step (wfsbert : WfsId → WfsBertCfg) : BertOp → Except Fault (WfsId → WfsBertCfg)
  | .receive inp core pkt o => (wfsProcessBert inp core wfsbert pkt o).map (·.1)
  | .send core jiffies seqno type len =>
    .ok (Function.update wfsbert core.wfsId
      (countSent type len (noteSend jiffies seqno (wfsbert core.wfsId))))

/-- The step resets the entry `e`: a reset of its station is accepted, or the own test sends
    one of its first five frames. -/
def Resets (e : WfsId) : BertOp → Prop
  | .receive inp _ pkt o =>
    let opt := bertAt pkt.opts o
    WfsId.ofByte? pkt.src = some e ∧ opt.type = wfsoptBertReset ∧
      pkt.skbLen - pkt.len.toNat = opt.dataLen.toNat ∧ inp.csum = opt.dataCsum
  | .send core _ seqno _ _ => core.wfsId = e ∧ seqno ≤ 5

/-- The number that arrives at the entry `e`: that of a request of its station, or of a
    response while the test of the entry is `on`. -/
def arrival (e : WfsId) (on : Bool) : BertOp → Option UInt32
  | .receive _ core pkt o =>
    let opt := bertAt pkt.opts o
    if opt.type = wfsoptBertResponse then
      if core.wfsId = e ∧ on then some opt.seqno else none
    else if opt.type = wfsoptBertRequest then
      if WfsId.ofByte? pkt.src = some e then some opt.seqno else none
    else none
  | .send .. => none

/-- The numbers that arrive at the entry `e` with the steps `ops`. -/
def arrivals (e : WfsId) (on : Bool) (ops : List BertOp) : List UInt32 :=
  ops.filterMap (arrival e on)

end BertOp

def BertAccountStep (wfsbert : WfsId → WfsBertCfg) (op : BertOp) (wfsbert' : WfsId → WfsBertCfg) :
    Prop :=
  op.step wfsbert = .ok wfsbert'

open BertOp

theorem receive_cases {inp : BertInputs} {core : RapsCore} {pkt : Skb} {o : Nat}
    {s t : WfsId → WfsBertCfg} (h : BertAccountStep s (.receive inp core pkt o) t) :
    ∃ src, WfsId.ofByte? pkt.src = some src ∧ ∃ (wrongSize : Bool) (csum : UInt16),
      (wrongSize = true ↔ pkt.skbLen - pkt.len.toNat ≠ (bertAt pkt.opts o).dataLen.toNat) ∧
      (wrongSize = false → csum = inp.csum) ∧
      (((bertAt pkt.opts o).type = wfsoptBertResponse ∧ t = Function.update s core.wfsId
            (bertResponse inp pkt (bertAt pkt.opts o) wrongSize csum (s core.wfsId))) ∨
        ((bertAt pkt.opts o).type = wfsoptBertReset ∧
          t = Function.update s src (bertReset inp (bertAt pkt.opts o) wrongSize csum (s src))) ∨
        ((bertAt pkt.opts o).type = wfsoptBertRequest ∧ t = Function.update s src
            (bertRequest inp pkt (bertAt pkt.opts o) wrongSize csum (s src))) ∨
        ((bertAt pkt.opts o).type ≠ wfsoptBertResponse ∧
          (bertAt pkt.opts o).type ≠ wfsoptBertReset ∧
          (bertAt pkt.opts o).type ≠ wfsoptBertRequest ∧ t = s)) := by
  unfold BertAccountStep step wfsProcessBert at h
  cases hsrc : WfsId.ofByte? pkt.src with
  | none =>
    simp only [hsrc] at h
    cases h
  | some src =>
    simp only [hsrc] at h
    let wrongSize : Bool := pkt.skbLen - pkt.len.toNat ≠ (bertAt pkt.opts o).dataLen.toNat
    refine ⟨src, rfl, wrongSize, if wrongSize then 0 else inp.csum, decide_eq_true_iff,
      fun hsize => if_neg (Bool.eq_false_iff.mp hsize), ?_⟩
    split at h
    · next hresponse =>
        injection h with h
        exact .inl ⟨hresponse, h.symm⟩
    · next hresponse =>
        split at h
        · next hreset =>
            injection h with h
            exact .inr (.inl ⟨hreset, h.symm⟩)
        · next hreset =>
            split at h
            · next hrequest =>
                injection h with h
                exact .inr (.inr (.inl ⟨hrequest, h.symm⟩))
            · next hrequest =>
                injection h with h
                exact .inr (.inr (.inr ⟨hresponse, hreset, hrequest, h.symm⟩))

def SeqAccount.arrive? (a : SeqAccount) : Option UInt32 → SeqAccount
  | none => a
  | some n => a.arrive n

variable {e : WfsId} {g : GapCount}

/-- **One step** of a station at an entry that it does not reset. -/
theorem account_of_step {s t : WfsId → WfsBertCfg} {op : BertOp} (h : BertAccountStep s op t)
    (hreset : ¬op.Resets e) : (t e).account = (s e).account.arrive? (op.arrival e (s e).on) := by
  cases op with
  | send core jiffies seqno type len =>
    simp only [BertAccountStep, step, Except.ok.injEq] at h
    subst h
    by_cases he : core.wfsId = e
    · have hlate : ¬seqno ≤ 5 := fun hle => hreset ⟨he, hle⟩
      subst he
      rw [Function.update_self, countSent_account, noteSend_account jiffies hlate]
      rfl
    · rw [Function.update_of_ne (Ne.symm he)]
      rfl
  | receive inp core pkt o =>
    obtain ⟨src, hsrc, wrongSize, csum, hsize, hcsum, hcase⟩ := receive_cases h
    simp only [arrival, hsrc, Option.some.injEq]
    rcases hcase with ⟨htype, rfl⟩ | ⟨htype, rfl⟩ | ⟨htype, rfl⟩ | ⟨hres, -, hreq, rfl⟩
    · rw [if_pos htype]
      by_cases he : core.wfsId = e
      · subst he
        rw [Function.update_self]
        cases hon : (s core.wfsId).on with
        | true =>
          rw [bertResponse_account _ _ _ _ _ hon, if_pos ⟨rfl, rfl⟩]
          rfl
        | false =>
          rw [bertResponse_off _ _ _ _ _ hon, if_neg (by simp)]
          rfl
      · rw [Function.update_of_ne (Ne.symm he), if_neg (fun hand => he hand.1)]
        rfl
    · have hnone : ¬(bertAt pkt.opts o).type = wfsoptBertResponse ∧
          ¬(bertAt pkt.opts o).type = wfsoptBertRequest := by
        rw [htype]
        decide
      rw [if_neg hnone.1, if_neg hnone.2]
      by_cases he : src = e
      · subst he
        -- A reset of the station that is not accepted leaves the entry as it was.
        have hignored : wrongSize = true ∨ csum ≠ (bertAt pkt.opts o).dataCsum := by
          by_contra haccepted
          rw [not_or, Bool.not_eq_true, not_not] at haccepted
          apply hreset
          refine ⟨hsrc, htype, ?_, (hcsum haccepted.1).symm.trans haccepted.2⟩
          by_contra hne
          exact Bool.eq_false_iff.mp haccepted.1 (hsize.mpr hne)
        rw [Function.update_self, bertReset, if_pos hignored]
        rfl
      · rw [Function.update_of_ne (Ne.symm he)]
        rfl
    · have hresponse : ¬(bertAt pkt.opts o).type = wfsoptBertResponse := by
        rw [htype]
        decide
      rw [if_neg hresponse, if_pos htype]
      by_cases he : src = e
      · subst he
        rw [Function.update_self, bertRequest_account, if_pos rfl]
        rfl
      · rw [Function.update_of_ne (Ne.symm he), if_neg he]
        rfl
    · rw [if_neg hres, if_neg hreq]
      rfl

/-! ## The receiver of numbered messages -/

structure Counts (a : SeqAccount) (g : GapCount) : Prop where
  seqno : a.seqno.toNat = g.expected
  rxPkts : a.rxPkts = UInt64.ofNat (g.accepted + g.late)
  errDrop : a.errDrop = UInt64.ofNat g.dropped
  errSeq : a.errSeq = UInt64.ofNat g.late

def seqnoMax : UInt32 := 0xFFFFFFFF

theorem Counts.arrive {a : SeqAccount} (h : Counts a g) {n : UInt32} (hmax : n ≠ seqnoMax) :
    Counts (a.arrive n) (g.step n.toNat) := by
  have hrx := h.rxPkts
  have hseq := h.errSeq
  unfold SeqAccount.arrive GapCount.step
  rw [← h.seqno]
  by_cases hlt : n < a.seqno
  · rw [if_pos hlt, if_pos (UInt32.lt_iff_toNat_lt.mp hlt)]
    refine ⟨rfl, ?_, h.errDrop, ?_⟩
    · simp only [hrx, ← Nat.add_assoc, UInt64.ofNat_add]
      rfl
    · simp only [hseq, UInt64.ofNat_add]
      rfl
  · have hge : a.seqno ≤ n := UInt32.not_lt.mp hlt
    rw [if_neg hlt, if_neg (fun h => hlt (UInt32.lt_iff_toNat_lt.mpr h))]
    have hnext : (n + 1).toNat = n.toNat + 1 := by
      have hbound := n.toNat_lt
      have hne : n.toNat ≠ 4294967295 := fun heq => hmax (UInt32.toNat_inj.mp heq)
      rw [UInt32.toNat_add]
      change (n.toNat + 1) % 2 ^ 32 = _
      omega
    refine ⟨hnext, ?_, ?_, hseq⟩
    · simp only [hrx, Nat.add_right_comm g.accepted 1, UInt64.ofNat_add]
      rfl
    · have hdiff : (n - a.seqno).toUInt64 = UInt64.ofNat (n.toNat - a.seqno.toNat) := by
        rw [← UInt32.toNat_sub_of_le _ _ hge]
        exact (UInt64.ofNat_uInt32ToNat _).symm
      simp only [h.errDrop, hdiff, UInt64.ofNat_add]

/-! ## Runs -/

theorem on_of_step {s t : WfsId → WfsBertCfg} {op : BertOp} (h : BertAccountStep s op t)
    (hreset : ¬op.Resets e) : (t e).on = (s e).on := by
  have heq := congrArg SeqAccount.on (account_of_step h hreset)
  rw [show (t e).on = (t e).account.on from rfl, heq]
  cases op.arrival e (s e).on with
  | none => rfl
  | some n =>
    simp only [SeqAccount.arrive?, SeqAccount.arrive]
    split <;> rfl

/-- **A run** of a station counts the arrivals at the entry `e` like a receiver of numbered
    messages. -/
theorem counts_of_run {s t : WfsId → WfsBertCfg} {ops : List BertOp}
    (hrun : Run BertAccountStep s ops t) (hreset : ∀ op ∈ ops, ¬op.Resets e)
    (hmax : seqnoMax ∉ arrivals e (s e).on ops) (h : Counts (s e).account g) :
    Counts (t e).account
      (g.run ((arrivals e (s e).on ops).map UInt32.toNat)) := by
  induction hrun generalizing g with
  | nil s => exact h
  | @cons s u t op ops hstep hrest ih =>
    have hthis := hreset op List.mem_cons_self
    have hlater : ∀ op ∈ ops, ¬op.Resets e := fun op hop => hreset op (List.mem_cons_of_mem _ hop)
    have hentry := account_of_step hstep hthis
    have hon := on_of_step hstep hthis
    rw [hon] at ih
    unfold arrivals at hmax ⊢
    cases harrival : op.arrival e (s e).on with
    | none =>
      rw [harrival] at hentry
      rw [List.filterMap_cons_none harrival] at hmax ⊢
      exact ih hlater hmax (hentry ▸ h)
    | some n =>
      rw [harrival] at hentry
      rw [List.filterMap_cons_some harrival, List.mem_cons, not_or] at hmax
      rw [List.filterMap_cons_some harrival, List.map_cons, GapCount.run_cons]
      exact ih hlater hmax.2 (hentry ▸ h.arrive (Ne.symm hmax.1))

/-- The entry has been reset, with `e₀` the number expected next. -/
structure WasReset (cfg : WfsBertCfg) (e₀ : UInt32) : Prop where
  seqno : cfg.seqno = e₀
  rxPkts : cfg.stats.rxPkts = 0
  errDrop : cfg.stats.errDrop = 0
  errSeq : cfg.stats.errSeq = 0

/-- **The sequence accounting balances.**  After a reset that set the number expected to `e₀`,
    and as long as the last number of all does not arrive, the number expected is `e₀` plus
    the frames counted in sequence plus the ones counted as dropped.  If nothing below `e₀`
    arrives and nothing twice, dropped minus out of sequence is the number of frames in
    between that have not arrived. -/
theorem bert_balance {e : WfsId} {e₀ : UInt32} {s t : WfsId → WfsBertCfg} {ops : List BertOp}
    (hrun : Run BertAccountStep s ops t) (hstart : WasReset (s e) e₀)
    (hreset : ∀ op ∈ ops, ¬op.Resets e)
    (hmax : seqnoMax ∉ arrivals e (s e).on ops) :
    (t e).seqno.toNat =
        e₀.toNat + ((t e).stats.rxPkts - (t e).stats.errSeq).toNat +
          (t e).stats.errDrop.toNat ∧
      ((∀ n ∈ arrivals e (s e).on ops, e₀ ≤ n) → (arrivals e (s e).on ops).Nodup →
        ((t e).stats.errDrop.toNat : ℤ) - (t e).stats.errSeq.toNat =
          {k ∈ Finset.Ico e₀.toNat (t e).seqno.toNat |
            k ∉ (arrivals e (s e).on ops).map UInt32.toNat}.card) := by
  have hzero : Counts (s e).account { expected := e₀.toNat } :=
    ⟨congrArg UInt32.toNat hstart.seqno, hstart.rxPkts, hstart.errDrop, hstart.errSeq⟩
  have h := counts_of_run hrun hreset hmax hzero
  set ns := arrivals e (s e).on ops with hns
  set g := ({ expected := e₀.toNat } : GapCount).run (ns.map UInt32.toNat) with hg
  have hseqno : (t e).seqno.toNat = g.expected := h.seqno
  have hexpected : g.expected + 0 + 0 = e₀.toNat + g.accepted + g.dropped :=
    GapCount.expected_run { expected := e₀.toNat } _
  have hbound : (t e).seqno.toNat < 2 ^ 32 := (t e).seqno.toNat_lt
  have haccepted : ((t e).stats.rxPkts - (t e).stats.errSeq).toNat = g.accepted := by
    rw [show (t e).stats.rxPkts = _ from h.rxPkts, show (t e).stats.errSeq = _ from h.errSeq,
      UInt64.ofNat_add, UInt64.add_sub_cancel, UInt64.toNat_ofNat']
    exact Nat.mod_eq_of_lt (by omega)
  have hdropped : (t e).stats.errDrop.toNat = g.dropped := by
    rw [show (t e).stats.errDrop = _ from h.errDrop, UInt64.toNat_ofNat']
    exact Nat.mod_eq_of_lt (by omega)
  constructor
  · omega
  · intro hlow hnodup
    have hlow' : ∀ n ∈ ns.map UInt32.toNat, e₀.toNat ≤ n := by
      intro n hn
      obtain ⟨m, hm, rfl⟩ := List.mem_map.mp hn
      exact UInt32.le_iff_toNat_le.mp (hlow m hm)
    have hmissing := GapCount.card_missing hlow'
      (hnodup.map fun _ _ heq => UInt32.toNat_inj.mp heq)
    rw [← hg] at hmissing
    -- A number is late only after it was dropped.
    have hlate : (t e).stats.errSeq.toNat = g.late := by
      rw [show (t e).stats.errSeq = _ from h.errSeq, UInt64.toNat_ofNat']
      exact Nat.mod_eq_of_lt (by omega)
    rw [hseqno, hmissing, hdropped, hlate]

/-! ## A late frame -/

/-- A BERT frame of station 1 with the number `n` and no payload. -/
def numberedFrame (type n : UInt8) : Skb :=
  { usedBuffer 0 with
    src := 2, len := 39, skbLen := 39
    opts := setByte (setByte (fun _ => 0) 2 type) 3 n }

def receiveNumbered (type n : UInt8) : BertOp :=
  .receive {} (testStation 0).iwa.core (numberedFrame type n) 0

def resetEntry : WfsBertCfg := { seqno := 6 }

/-- Seven arrives before six, and nine before eight: one frame is missing. -/
theorem bert_balance_late :
    ∃ t, Run BertAccountStep (fun _ => resetEntry)
        [receiveNumbered 2 7, receiveNumbered 2 6, receiveNumbered 2 9] t ∧
      (t 1).seqno = 10 ∧ (t 1).stats.errDrop = 2 ∧ (t 1).stats.errSeq = 1 ∧
      ((t 1).stats.errDrop.toNat : ℤ) - (t 1).stats.errSeq.toNat =
        {k ∈ Finset.Ico 6 (t 1).seqno.toNat | k ∉ [7, 6, 9]}.card := by
  have heval : (Run.exec (fun s (op : BertOp) => (op.step s).toOption) (fun _ => resetEntry)
      [receiveNumbered 2 7, receiveNumbered 2 6, receiveNumbered 2 9]).map
        (fun t => ((t 1).seqno, (t 1).stats.errDrop, (t 1).stats.errSeq)) = some (10, 2, 1) := by
    decide +kernel
  obtain ⟨t, hexec, ht⟩ := Option.map_eq_some_iff.mp heval
  have hrun := Run.of_exec (T := BertAccountStep) (fun s op t h => by
    unfold BertAccountStep
    cases hop : op.step s with
    | error f =>
      rw [hop] at h
      cases h
    | ok u =>
      rw [hop] at h
      exact congrArg Except.ok (Option.some.inj h)) hexec
  simp only [Prod.mk.injEq] at ht
  have hreset : ∀ op ∈ [receiveNumbered 2 7, receiveNumbered 2 6, receiveNumbered 2 9],
      ¬op.Resets 1 := by
    intro op hop
    simp only [List.mem_cons, List.not_mem_nil, or_false] at hop
    rcases hop with rfl | rfl | rfl <;> exact fun h => absurd h.2.1 (by decide)
  have hstart : WasReset resetEntry 6 := ⟨rfl, rfl, rfl, rfl⟩
  have harrivals : arrivals 1 resetEntry.on
      [receiveNumbered 2 7, receiveNumbered 2 6, receiveNumbered 2 9] = [7, 6, 9] := by
    decide +kernel
  have hbalance := bert_balance hrun hstart hreset (by rw [harrivals]; decide)
  rw [harrivals] at hbalance
  have hleast : ∀ n ∈ ([7, 6, 9] : List UInt32), 6 ≤ n := by
    intro n hn
    simp only [List.mem_cons, List.not_mem_nil, or_false] at hn
    rcases hn with rfl | rfl | rfl <;> decide
  exact ⟨t, hrun, ht.1, ht.2.1, ht.2.2, hbalance.2 hleast (by decide)⟩

end VmkDrivers.Wfs
