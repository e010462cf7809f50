/-
  VmkDrivers.Wfs.BertTest

  A bit error rate test between two stations.

  The requester prepares one frame (`ixgbe_wfs_bert_start_request`) and sends
  numbered copies of it (`ixgbe_wfs_send_bert`): the first five reset the
  entry of the responder, every later one is a request.  The responder turns a
  request into the response, which the requester counts (`wfs_process_bert`).

  On a clean link every frame arrives once and in order, and unmodified but
  for the padding of short Ethernet frames.  That padding changes `skb->len`,
  which `wfs_process_bert` compares with the header and the payload: a frame
  of less than 60 bytes has the wrong size on arrival.  A test on a clean link
  measures no error exactly if its frames need no padding or it ends with the
  resets (`bert_clean_iff`).
-/

import VmkDrivers.Lib.Numbered
import VmkDrivers.Wfs.BertChecksum
import VmkDrivers.Wfs.ControlPacket

namespace VmkDrivers.Wfs

open VmkDrivers.Lib

def bertDataSizeMax : Nat := 9000

def ethZlen : Nat := 60

def Skb.padToMin (skb : Skb) : Skb :=
  if skb.skbLen < ethZlen then
    { skb with
      skbLen := ethZlen
      opts := fun i => if wfspktHdrSize + i < skb.skbLen then skb.opts i else 0 }
  else skb

/-! ## The requester -/

/-- A station with its control of the test: `bert_ctrl`, `bert_seqno` and the prepared frame
    of its own entry. -/
structure Requester (π : Type) where
  station : Station π
  on : Bool := false
  skb : Option Skb := none
  bertSeqno : UInt32 := 0

section Functions

variable {π : Type}

/-- `wfsbert[myID-1]`. -/
def Requester.cfg (rq : Requester π) : WfsBertCfg := rq.station.wfsbert rq.station.iwa.core.wfsId

/-- Write `wfsbert[myID-1]`. -/
def Requester.setCfg (rq : Requester π) (cfg : WfsBertCfg) : Requester π :=
  { rq with station := { rq.station with
      wfsbert := Function.update rq.station.wfsbert rq.station.iwa.core.wfsId cfg } }

/-- `ixgbe_wfs_bert_start_request` for the payload `data` and its return value; `kmalloc` is
    the allocation of the buffer and `buf` the new `sk_buff`. -/
def ixgbeWfsBertStartRequest (ipComputeCsum : List UInt8 → UInt16) (key : FibKey) (wfsid : WfsId)
    (data : List UInt8) (kmalloc : Bool) (buf : Option Skb) (rq : Requester π) :
    Except Fault (Requester π × Int) :=
  -- a test is on already
  if rq.on then .ok (rq, 1)
  else if !kmalloc then .ok (rq, -1)
  else
    let csum := ixgbeWfsGetBertCsum ipComputeCsum data
    let cfg := { rq.cfg with dataLen := UInt16.ofNat data.length, dataCsum := csum }
    match buf with
    | none => .ok ({ rq.setCfg cfg with skb := none }, -1)
    | some buf => do
      let skb ← ixgbeWfsGetBertSkb rq.station.iwa.core rq.station.fib key wfsid data csum buf
      let cfg := { cfg with seqno := 0, jfs := 0, jfsLast := 0, stats := {}, on := true }
      pure ({ rq.setCfg cfg with skb := some skb, bertSeqno := 0, on := true }, 0)

/-- What `ixgbe_wfs_send_bert` takes from the outside: `skb_copy` and the clocks. -/
structure BertSendInputs where
  copy : Bool := true
  jiffies : UInt64 := 0
  /-- Microseconds. -/
  now : UInt64 := 0

/-- "first 5 packets to reset responder data/stats, no response required". -/
def bertSendType (seqno : UInt32) : UInt8 :=
  if seqno ≤ 5 then wfsoptBertReset else wfsoptBertRequest

def noteSend (jiffies : UInt64) (seqno : UInt32) (cfg : WfsBertCfg) : WfsBertCfg :=
  let cfg := if seqno ≤ 5 then { cfg with seqno := seqno + 1, jfs := jiffies } else cfg
  { cfg with jfsLast := jiffies }

/-- Count a frame of `len` bytes that was sent, if it is a request. -/
def countSent (type : UInt8) (len : Nat) (cfg : WfsBertCfg) : WfsBertCfg :=
  if type = wfsoptBertRequest then
    { cfg with stats := { cfg.stats with
        txPkts := cfg.stats.txPkts + 1
        txBytes := cfg.stats.txBytes + UInt64.ofNat len } }
  else cfg

/-- `ixgbe_wfs_send_bert` and the frames it emits; `ring` is whether the transmit ring takes
    the frame. -/
def ixgbeWfsSendBert (inp : BertSendInputs) (ring : Bool) (wfsid : WfsId) (rq : Requester π) :
    Requester π × List (Port × Skb) :=
  match rq.skb with
  | none => (rq, [])
  | some skb =>
    if !inp.copy then (rq, [])
    else
      match (rq.station.iwa.core.peer wfsid).activeChannel with
      -- no active channel to the peer
      | none => (rq, [])
      | some adapter =>
        let seqno := rq.bertSeqno + 1
        let type := bertSendType seqno
        let cfg := noteSend inp.jiffies seqno rq.cfg
        let out := ixgbeXmitWfsFrame rq.station.iwa ring adapter
          (setBertSend skb type seqno inp.now)
        -- only what the ring has taken is counted
        let cfg := if out.isEmpty then cfg else countSent type skb.skbLen cfg
        ({ rq.setCfg cfg with bertSeqno := seqno }, out)

/-! ## A test -/

/-- What the handling of a received frame takes from the outside: the clocks, and the
    uninitialised block of the checksum. -/
structure BertRecvInputs where
  jiffies : UInt64 := 0
  /-- Microseconds. -/
  now : UInt64 := 0
  stack : List UInt8 := []

/-- A BERT frame at a station it is delivered to, and the frames sent in turn.  A received
    frame is linear: one receive buffer holds it. -/
def recvBert [EventStore π] (ipComputeCsum : List UInt8 → UInt16) (inp : BertRecvInputs)
    (adapter : Port) (st : Station π) (pkt : Skb) :
    Except Fault (Station π × List (Port × Skb)) := do
  let csum ← ixgbeWfsGetBertSkbCsum ipComputeCsum inp.stack { linear := pkt, frags := [] }
  let rx : RxInputs := { bert := { jiffies := inp.jiffies, now := inp.now, csum } }
  let (st, pkt) ← ixgbeWfsRecvControl rx adapter st pkt
  pure (st, sendCtrl rx adapter st.iwa pkt)

/-- The two stations, the frames under way between them, and the frames the requester has
    emitted so far. -/
structure BertNet (π : Type) where
  requester : Requester π
  responder : Station π
  requests : List Skb := []
  responses : List Skb := []
  emitted : List Skb := []

/-- The requester sends a frame, the responder takes the next frame of the requester, or the
    requester the next one of the responder. -/
inductive BertInput where
  | send (inp : BertSendInputs)
  | serve (inp : BertRecvInputs)
  | back (inp : BertRecvInputs)

/-- A step of a test of the responder `wfsid` on a clean link between the ports `port` of the
    responder and `port'` of the requester, with fewer than 2^32 packets. -/
inductive BertStep [EventStore π] (ipComputeCsum : List UInt8 → UInt16) (wfsid : WfsId)
    (port port' : Port) : BertNet π → BertInput → BertNet π → Prop
  | send {t : BertNet π} {inp : BertSendInputs} {rq : Requester π} {out : List (Port × Skb)} :
      t.emitted.length + 1 < 2 ^ 32 → ixgbeWfsSendBert inp true wfsid t.requester = (rq, out) →
      BertStep ipComputeCsum wfsid port port' t (.send inp) { t with
        requester := rq, requests := t.requests ++ out.map Prod.snd
        emitted := t.emitted ++ out.map Prod.snd }
  | serve {t : BertNet π} {inp : BertRecvInputs} {pkt : Skb} {rest : List Skb} {st : Station π}
      {out : List (Port × Skb)} :
      t.requests = pkt :: rest →
      recvBert ipComputeCsum inp port t.responder pkt.padToMin = .ok (st, out) →
      BertStep ipComputeCsum wfsid port port' t (.serve inp) { t with
        responder := st, requests := rest, responses := t.responses ++ out.map Prod.snd }
  | back {t : BertNet π} {inp : BertRecvInputs} {pkt : Skb} {rest : List Skb} {st : Station π}
      {out : List (Port × Skb)} :
      t.responses = pkt :: rest →
      recvBert ipComputeCsum inp port' t.requester.station pkt.padToMin = .ok (st, out) →
      BertStep ipComputeCsum wfsid port port' t (.back inp) { t with
        requester := { t.requester with station := st }
        requests := t.requests ++ out.map Prod.snd, responses := rest }

def bertNext [EventStore π] (ipComputeCsum : List UInt8 → UInt16) (wfsid : WfsId)
    (port port' : Port) (t : BertNet π) : BertInput → Option (BertNet π)
  | .send inp =>
    if t.emitted.length + 1 < 2 ^ 32 then
      let (rq, out) := ixgbeWfsSendBert inp true wfsid t.requester
      some { t with
        requester := rq, requests := t.requests ++ out.map Prod.snd
        emitted := t.emitted ++ out.map Prod.snd }
    else none
  | .serve inp =>
    match t.requests with
    | [] => none
    | pkt :: rest =>
      match recvBert ipComputeCsum inp port t.responder pkt.padToMin with
      | .error _ => none
      | .ok (st, out) => some { t with
          responder := st, requests := rest, responses := t.responses ++ out.map Prod.snd }
  | .back inp =>
    match t.responses with
    | [] => none
    | pkt :: rest =>
      match recvBert ipComputeCsum inp port' t.requester.station pkt.padToMin with
      | .error _ => none
      | .ok (st, out) => some { t with
          requester := { t.requester with station := st }
          requests := t.requests ++ out.map Prod.snd, responses := rest }

def WfsBertStats.NoErrors (stats : WfsBertStats) : Prop :=
  stats.errDrop = 0 ∧ stats.errSeq = 0 ∧ stats.errCsum = 0 ∧ stats.errSize = 0

instance (stats : WfsBertStats) : Decidable stats.NoErrors :=
  inferInstanceAs (Decidable (_ ∧ _))

def BertNet.served (t : BertNet π) : WfsBertCfg :=
  t.responder.wfsbert t.requester.station.iwa.core.wfsId

def BertNet.Clean (t : BertNet π) : Prop :=
  t.requester.cfg.stats.NoErrors ∧ t.served.stats.NoErrors

def BertNet.requestsSent (t : BertNet π) : Nat :=
  t.emitted.countP fun pkt => pkt.opts 2 = wfsoptBertRequest

end Functions

/-! ## Numbers read back -/

variable {i j : Nat} (b : Nat → UInt8)

theorem le16_congr {b b' : Nat → UInt8} (h : ∀ j, i ≤ j → j < i + 2 → b j = b' j) :
    le16 b i = le16 b' i := by
  rw [le16, le16, h i (by omega) (by omega), h (i + 1) (by omega) (by omega)]

theorem le32_congr {b b' : Nat → UInt8} (h : ∀ j, i ≤ j → j < i + 4 → b j = b' j) :
    le32 b i = le32 b' i := by
  rw [le32, le32, le16_congr fun j h₁ h₂ => h j h₁ (by omega),
    le16_congr fun j h₁ h₂ => h j (by omega) (by omega)]

theorem putLe16_off (v : UInt16) (h : j < i ∨ i + 2 ≤ j) : putLe16 b i v j = b j := by
  rw [putLe16, setByte_apply, if_neg (by omega), setByte_apply, if_neg (by omega)]

theorem putLe32_off (v : UInt32) (h : j < i ∨ i + 4 ≤ j) : putLe32 b i v j = b j := by
  rw [putLe32, putLe16_off _ _ (by omega), putLe16_off _ _ (by omega)]

theorem putLe64_off (v : UInt64) (h : j < i ∨ i + 8 ≤ j) : putLe64 b i v j = b j := by
  rw [putLe64, putLe32_off _ _ (by omega), putLe32_off _ _ (by omega)]

theorem le16_putLe16 (i : Nat) (v : UInt16) : le16 (putLe16 b i v) i = v := by
  simp only [le16, putLe16, setByte_apply, if_true, if_neg (show i ≠ i + 1 by omega)]
  exact uint16_join v

theorem le32_putLe32 (i : Nat) (v : UInt32) : le32 (putLe32 b i v) i = v := by
  have hlow : le16 (putLe32 b i v) i = v.toUInt16 := by
    rw [← le16_putLe16 b i v.toUInt16]
    exact le16_congr fun j h₁ h₂ => putLe16_off _ _ (.inl h₂)
  rw [le32, hlow, putLe32, le16_putLe16]
  exact uint32_join v

/-! ## Frames of a test -/

/-- The parts of a test frame that do not change on its way: option header, header length,
    `data_len`, size up to the padding, and payload. -/
structure TestFrame (data : List UInt8) (id : WfsId) (pkt : Skb) : Prop where
  opt : pkt.opts 0 = wfsoptBert
  optLen : pkt.opts 1 = 19
  len : pkt.len = 37
  src : pkt.src = id.byte
  dataLen : le16 pkt.opts 15 = UInt16.ofNat data.length
  size : max ethZlen pkt.skbLen = max ethZlen (37 + data.length)
  holds : 37 + data.length ≤ pkt.skbLen
  payload : ∀ i (h : i < data.length), pkt.opts (19 + i) = data[i]

structure NumberedFrame (data : List UInt8) (id : WfsId) (type : UInt8) (k : Nat) (csum : UInt16)
    (pkt : Skb) : Prop extends TestFrame data id pkt where
  type_eq : pkt.opts 2 = type
  seqno : le32 pkt.opts 3 = UInt32.ofNat k
  dataCsum : le16 pkt.opts 17 = csum

section Frames

variable {data : List UInt8} {id : WfsId} {type : UInt8} {k : Nat} {csum : UInt16} {pkt : Skb}

theorem NumberedFrame.congr (h : NumberedFrame data id type k csum pkt) {pkt' : Skb}
    (hlen : pkt'.len = pkt.len) (hsrc : pkt'.src = pkt.src)
    (hsize : max ethZlen pkt'.skbLen = max ethZlen pkt.skbLen) (hholds : pkt.skbLen ≤ pkt'.skbLen)
    (hopts : ∀ i, i < 19 + data.length → pkt'.opts i = pkt.opts i) :
    NumberedFrame data id type k csum pkt' where
  opt := (hopts 0 (by omega)).trans h.opt
  optLen := (hopts 1 (by omega)).trans h.optLen
  len := hlen.trans h.len
  src := hsrc.trans h.src
  dataLen := (le16_congr fun j _ h₂ => hopts j (by omega)).trans h.dataLen
  size := hsize.trans h.size
  holds := h.holds.trans hholds
  payload := fun i hi => (hopts (19 + i) (by omega)).trans (h.payload i hi)
  type_eq := (hopts 2 (by omega)).trans h.type_eq
  seqno := (le32_congr fun j _ h₂ => hopts j (by omega)).trans h.seqno
  dataCsum := (le16_congr fun j _ h₂ => hopts j (by omega)).trans h.dataCsum

theorem skbLen_padToMin (pkt : Skb) : pkt.padToMin.skbLen = max ethZlen pkt.skbLen := by
  unfold Skb.padToMin
  split
  · next hshort => exact (max_eq_left (Nat.le_of_lt hshort)).symm
  · next hlong => exact (max_eq_right (Nat.le_of_not_lt hlong)).symm

theorem NumberedFrame.padToMin (h : NumberedFrame data id type k csum pkt) :
    NumberedFrame data id type k csum pkt.padToMin := by
  have hlen := skbLen_padToMin pkt
  have hfields : pkt.padToMin.len = pkt.len ∧ pkt.padToMin.src = pkt.src := by
    unfold Skb.padToMin
    split <;> exact ⟨rfl, rfl⟩
  refine h.congr hfields.1 hfields.2 (by omega) (by omega) fun i hi => ?_
  unfold Skb.padToMin
  split
  · have hin : wfspktHdrSize + i < pkt.skbLen := by
      have := h.holds
      simp only [wfspktHdrSize]
      omega
    exact if_pos hin
  · rfl

theorem TestFrame.getopt (h : TestFrame data id pkt) (optType : UInt8) :
    wfspktGetopt pkt optType = .ok (if optType = wfsoptBert then some 0 else none) := by
  have hspace : pkt.len.toNat - wfspktHdrSize = 19 := by rw [h.len]; rfl
  rw [wfspktGetopt, hspace]
  by_cases hopt : optType = wfsoptBert
  · rw [getoptLoop, if_neg (by decide), if_pos (by rw [h.opt, hopt]), if_pos hopt]
  · have hne : ¬pkt.opts 0 = optType := by
      rw [h.opt]
      exact fun he => hopt he.symm
    have hstep : ¬pkt.opts (0 + 1) = 0 := by
      rw [Nat.zero_add, h.optLen]
      decide
    rw [getoptLoop, if_neg (by decide), if_neg hne, if_neg hstep, if_neg hopt, Nat.zero_add,
      h.optLen, show (19 : Nat) - (19 : UInt8).toNat = 0 from rfl, getoptLoop, if_pos rfl]

theorem TestFrame.wrongSize_iff (h : TestFrame data id pkt) (hmax : data.length ≤ bertDataSizeMax)
    (hpad : ethZlen ≤ pkt.skbLen) :
    pkt.skbLen - pkt.len.toNat ≠ (bertAt pkt.opts 0).dataLen.toNat ↔ data.length < 23 := by
  have hdata : (bertAt pkt.opts 0).dataLen.toNat = data.length := by
    change (le16 pkt.opts 15).toNat = _
    rw [h.dataLen, UInt16.toNat_ofNat']
    simp only [bertDataSizeMax] at hmax
    omega
  have hlen : pkt.len.toNat = 37 := by rw [h.len]; rfl
  have hsize := h.size
  rw [hdata, hlen]
  simp only [ethZlen] at hsize hpad
  omega

theorem TestFrame.csum_eq (h : TestFrame data id pkt) (hright : pkt.skbLen = 37 + data.length)
    (f : List UInt8 → UInt16) (stack : List UInt8) :
    ixgbeWfsGetBertSkbCsum f stack { linear := pkt, frags := [] } =
      .ok (ixgbeWfsGetBertCsum f data) := by
  have hlen : pkt.len.toNat = 37 := by rw [h.len]; rfl
  have hbert : (FragSkb.mk pkt []).IsBert := by
    refine ⟨?_, 0, h.getopt wfsoptBert, ?_⟩
    · change pkt.len.toNat ≤ pkt.skbLen - 0
      omega
    · change 0 + 19 = pkt.len.toNat - 18
      omega
  have hhead : (FragSkb.mk pkt []).headPayload = data := by
    have hcount : (FragSkb.mk pkt []).headlen - pkt.len.toNat = data.length := by
      change pkt.skbLen - 0 - pkt.len.toNat = _
      omega
    have hoff : pkt.len.toNat - wfspktHdrSize = 19 := by rw [hlen]; rfl
    rw [FragSkb.headPayload, hcount, hoff]
    refine List.ext_getElem (by simp) fun i hi hi' => ?_
    rw [List.getElem_map, List.getElem_range]
    exact h.payload i hi'
  have hsum := (Carried.start (f := f) stack).sumPiece rfl data
  rw [ixgbeWfsGetBertSkbCsum_eq f stack hbert, hhead]
  exact congrArg Except.ok hsum.finalCsum

/-- The checksum a station has of a delivered test frame: it computes none of a frame of the
    wrong size. -/
def measuredCsum (f : List UInt8 → UInt16) (data : List UInt8) : UInt16 :=
  if data.length < 23 then 0 else ixgbeWfsGetBertCsum f data

theorem recvBert_eq {π : Type} [EventStore π] (h : TestFrame data id pkt)
    (hpad : ethZlen ≤ pkt.skbLen)
    (f : List UInt8 → UInt16) (inp : BertRecvInputs) (adapter : Port) (st : Station π) :
    ∃ b : BertInputs, (¬data.length < 23 → b.csum = ixgbeWfsGetBertCsum f data) ∧
      recvBert f inp adapter st pkt =
        (wfsProcessBert b st.iwa.core st.wfsbert pkt 0).map fun (wfsbert, pkt') =>
          ({ st with wfsbert }, sendCtrl { bert := b } adapter st.iwa pkt') := by
  obtain ⟨c, hc⟩ : ∃ c, ixgbeWfsGetBertSkbCsum f inp.stack ⟨pkt, []⟩ = .ok c := by
    simp only [ixgbeWfsGetBertSkbCsum, h.getopt, if_true, bind, Except.bind, pure, Except.pure]
    exact ⟨_, rfl⟩
  have hright (hlong : ¬data.length < 23) : c = ixgbeWfsGetBertCsum f data := by
    have hsize := h.size
    simp only [ethZlen] at hsize hpad
    exact Except.ok.inj (hc.symm.trans (h.csum_eq (by omega) f inp.stack))
  refine ⟨{ jiffies := inp.jiffies, now := inp.now, csum := c }, hright, ?_⟩
  have hannounce := h.getopt wfsoptAnnounce
  have hraps := h.getopt wfsoptRaps
  have hbert := h.getopt wfsoptBert
  rw [if_neg (by decide)] at hannounce hraps
  rw [if_pos rfl] at hbert
  simp only [recvBert, hc, ixgbeWfsRecvControl, hannounce, hraps, hbert, bind, Except.bind,
    pure, Except.pure]
  cases wfsProcessBert { jiffies := inp.jiffies, now := inp.now, csum := c } st.iwa.core
    st.wfsbert pkt 0 <;> rfl

theorem wfsProcessBert_testFrame (h : NumberedFrame data id type k csum pkt)
    (hmax : data.length ≤ bertDataSizeMax) (hpad : ethZlen ≤ pkt.skbLen)
    {f : List UInt8 → UInt16} {b : BertInputs}
    (hb : ¬data.length < 23 → b.csum = ixgbeWfsGetBertCsum f data) (core : RapsCore)
    (wfsbert : WfsId → WfsBertCfg) :
    wfsProcessBert b core wfsbert pkt 0 =
      if type = wfsoptBertResponse then
        .ok (Function.update wfsbert core.wfsId (bertResponse b pkt (bertAt pkt.opts 0)
          (data.length < 23) (measuredCsum f data) (wfsbert core.wfsId)),
          { pkt with type := wfspktTypeCtrlNone })
      else if type = wfsoptBertReset then
        .ok (Function.update wfsbert id (bertReset b (bertAt pkt.opts 0) (data.length < 23)
          (measuredCsum f data) (wfsbert id)), { pkt with type := wfspktTypeCtrlNone })
      else if type = wfsoptBertRequest then
        .ok (Function.update wfsbert id (bertRequest b pkt (bertAt pkt.opts 0)
          (data.length < 23) (measuredCsum f data) (wfsbert id)),
          bertReply core id pkt 0 (measuredCsum f data))
      else .ok (wfsbert, pkt) := by
  have hwrong := h.wrongSize_iff hmax hpad
  have htype : (bertAt pkt.opts 0).type = type := h.type_eq
  -- the checksum is taken only of data that is long enough for it
  have hcsum : (if data.length < 23 then 0 else b.csum) = measuredCsum f data := by
    unfold measuredCsum
    split
    · rfl
    · next hlong => exact hb hlong
  unfold wfsProcessBert
  rw [h.src, WfsId.ofByte?_byte]
  simp only [decide_eq_true_eq, hwrong, htype, hcsum]

theorem NumberedFrame.reply (h : NumberedFrame data id type k csum pkt) (core : RapsCore)
    (src : WfsId) (c : UInt16) :
    NumberedFrame data core.wfsId wfsoptBertResponse k c (bertReply core src pkt 0 c) where
  opt := h.opt
  optLen := h.optLen
  len := h.len
  src := rfl
  dataLen := h.dataLen
  size := h.size
  holds := h.holds
  payload := by
    intro i hi
    rw [← h.payload i hi]
    simp only [bertReply, setByte_apply]
    rw [if_neg (by omega), if_neg (by omega), if_neg (by omega)]
  type_eq := rfl
  seqno := h.seqno
  dataCsum := le16_putLe16 (setByte pkt.opts 2 wfsoptBertResponse) 17 c

theorem setBertSend_opts (pkt : Skb) (type : UInt8) (seqno : UInt32) (ts : UInt64) (i : Nat) :
    (setBertSend pkt type seqno ts).opts i =
      setByte (putLe64 (putLe32 pkt.opts 3 seqno) 7 ts) 2 type i := rfl

theorem TestFrame.send (h : TestFrame data id pkt) (hcsum : le16 pkt.opts 17 = csum)
    (type : UInt8) (k : Nat) (ts : UInt64) :
    NumberedFrame data id type k csum (setBertSend pkt type (UInt32.ofNat k) ts) := by
  have hopts (i : Nat) (hi : i < 2 ∨ 15 ≤ i) :
      (setBertSend pkt type (UInt32.ofNat k) ts).opts i = pkt.opts i := by
    rw [setBertSend_opts, setByte_apply, if_neg (by omega), putLe64_off _ _ (by omega),
      putLe32_off _ _ (by omega)]
  have hseqno : le32 (setBertSend pkt type (UInt32.ofNat k) ts).opts 3 = UInt32.ofNat k := by
    refine (le32_congr fun j h₁ h₂ => ?_).trans (le32_putLe32 pkt.opts 3 (UInt32.ofNat k))
    rw [setBertSend_opts, setByte_apply, if_neg (by omega), putLe64_off _ _ (by omega)]
  exact
    { opt := (hopts 0 (by omega)).trans h.opt
      optLen := (hopts 1 (by omega)).trans h.optLen
      len := h.len
      src := h.src
      dataLen := (le16_congr fun j h₁ _ => hopts j (by omega)).trans h.dataLen
      size := h.size
      holds := h.holds
      payload := fun i hi => (hopts (19 + i) (by omega)).trans (h.payload i hi)
      type_eq := rfl
      seqno := hseqno
      dataCsum := (le16_congr fun j h₁ _ => hopts j (by omega)).trans hcsum }

theorem getWfsBertPkt_header {core : RapsCore} {fib : Fib} {key : FibKey} {wfsid : WfsId}
    {buf p : Skb} (h : getWfsBertPkt core fib key wfsid buf = .ok p) :
    p.len = 37 ∧ p.src = core.wfsId.byte ∧ p.skbLen = 37 ∧ p.opts 0 = wfsoptBert ∧
      p.opts 1 = 19 := by
  simp only [getWfsBertPkt, wfspktSetBert, bind, Except.bind, pure, Except.pure] at h
  cases hinit : wfspktInit core fib key buf wfspktTypeCtrlBert 0 (core.peer wfsid).mac with
  | error e => simp only [hinit] at h; cases h
  | ok q =>
    obtain ⟨-, hsrc, hlen, -⟩ := wfspktInit_header hinit
    simp only [hinit] at h
    rw [appendOpt_eq hlen _ (by decide)] at h
    cases h
    exact ⟨rfl, hsrc, rfl, rfl, rfl⟩

theorem ixgbeWfsGetBertSkb_frame {core : RapsCore} {fib : Fib} {key : FibKey} {wfsid : WfsId}
    {buf : Skb} (h : ixgbeWfsGetBertSkb core fib key wfsid data csum buf = .ok pkt) :
    TestFrame data core.wfsId pkt ∧ le16 pkt.opts 17 = csum := by
  simp only [ixgbeWfsGetBertSkb, bind, Except.bind, pure, Except.pure] at h
  cases hget : getWfsBertPkt core fib key wfsid buf with
  | error e => simp only [hget] at h; cases h
  | ok p =>
    obtain ⟨hlen, hsrc, hsize, hopt, hoptLen⟩ := getWfsBertPkt_header hget
    have hoff : p.len.toNat - wfspktHdrSize = 19 := by rw [hlen]; rfl
    simp only [hget, hoff, Except.ok.injEq] at h
    -- the options fill the first 19 bytes and the test data the rest
    have hhead (i : Nat) (hi : i < 19) :
        pkt.opts i = putLe16 (putLe16 p.opts 15 (UInt16.ofNat data.length)) 17 csum i := by
      rw [← h]
      exact if_neg (by omega)
    have hdata (i : Nat) (hi : i < data.length) : pkt.opts (19 + i) = data[i] := by
      rw [← h]
      simp only [Nat.le_add_right, if_true, Nat.add_sub_cancel_left, List.getElem?_eq_getElem hi,
        Option.getD_some]
    have hskbLen : pkt.skbLen = 37 + data.length := by
      rw [← h, ← hsize]
    refine ⟨⟨?_, ?_, ?_, ?_, ?_, by rw [hskbLen], hskbLen.ge, hdata⟩, ?_⟩
    · rw [hhead 0 (by omega), putLe16_off _ _ (by omega), putLe16_off _ _ (by omega), hopt]
    · rw [hhead 1 (by omega), putLe16_off _ _ (by omega), putLe16_off _ _ (by omega), hoptLen]
    · rw [← h]; exact hlen
    · rw [← h]; exact hsrc
    · refine (le16_congr fun j _ h₂ => ?_).trans (le16_putLe16 p.opts 15 _)
      rw [hhead j (by omega), putLe16_off _ _ (by omega)]
    · have hput := le16_putLe16 (putLe16 p.opts 15 (UInt16.ofNat data.length)) 17 csum
      exact (le16_congr fun j _ h₂ => hhead j (by omega)).trans hput

end Frames

/-! ## The two entries -/

section Entries

variable {f : List UInt8 → UInt16} {data : List UInt8} {p r n : Nat} {cfg : WfsBertCfg}
  {opt : WfsoptBert}

/-- The entry of the responder after `p` frames.  Short frames do not reset it, and every
    short request has the wrong size. -/
structure ServedInv (f : List UInt8 → UInt16) (data : List UInt8) (p : Nat) (cfg : WfsBertCfg) :
    Prop where
  long : ¬data.length < 23 → cfg.stats.NoErrors ∧
    (1 ≤ p → cfg.seqno = UInt32.ofNat (p + 1) ∧ cfg.dataCsum = ixgbeWfsGetBertCsum f data)
  short : data.length < 23 → cfg.stats.errSize = UInt64.ofNat (p - 5) ∧
    (p ≤ 5 → cfg.stats.NoErrors)

/-- The own entry of the requester after `n` frames sent and `r` responses. -/
structure CountedInv (f : List UInt8 → UInt16) (data : List UInt8) (n r : Nat)
    (cfg : WfsBertCfg) : Prop where
  on : cfg.on = true
  csum : cfg.dataCsum = ixgbeWfsGetBertCsum f data
  rxPkts : cfg.stats.rxPkts = UInt64.ofNat r
  clean : ¬data.length < 23 ∨ r = 0 → cfg.stats.NoErrors
  seqno : 5 ≤ n → cfg.seqno = UInt32.ofNat (r + 6)

theorem countSeqno_expected (cfg : WfsBertCfg) {seqno : UInt32} (h : cfg.seqno = seqno) :
    countSeqno cfg seqno = { cfg with seqno := seqno + 1 } := by
  subst h
  unfold countSeqno
  rw [if_neg (UInt32.lt_irrefl _), if_neg (UInt32.lt_irrefl _)]

theorem countSeqno_errSize (cfg : WfsBertCfg) (seqno : UInt32) :
    (countSeqno cfg seqno).stats.errSize = cfg.stats.errSize := by
  unfold countSeqno
  split
  · rfl
  · split <;> rfl

theorem countErrors_none (cfg : WfsBertCfg) {csum : UInt16} (hcsum : csum = cfg.dataCsum)
    (hopt : opt.dataCsum = cfg.dataCsum) : countErrors cfg opt false csum = cfg := by
  unfold countErrors
  simp only [Bool.false_eq_true, if_false, hcsum, hopt, ne_eq, not_true, or_self]

theorem countErrors_errSize (cfg : WfsBertCfg) (opt : WfsoptBert) (csum : UInt16) :
    (countErrors cfg opt true csum).stats.errSize = cfg.stats.errSize + 1 := by
  unfold countErrors
  simp only [if_true]
  split <;> rfl

theorem countErrors_rest (cfg : WfsBertCfg) (opt : WfsoptBert) (wrongSize : Bool) (csum : UInt16) :
    (countErrors cfg opt wrongSize csum).on = cfg.on ∧
    (countErrors cfg opt wrongSize csum).dataCsum = cfg.dataCsum ∧
    (countErrors cfg opt wrongSize csum).seqno = cfg.seqno ∧
    (countErrors cfg opt wrongSize csum).stats.rxPkts = cfg.stats.rxPkts := by
  unfold countErrors
  split <;> split <;> exact ⟨rfl, rfl, rfl, rfl⟩

theorem countRtt_counters (stats : WfsBertStats) (elapse : UInt64) :
    (countRtt stats elapse).rxPkts = stats.rxPkts ∧
    ((countRtt stats elapse).NoErrors ↔ stats.NoErrors) := by
  unfold countRtt
  split
  · exact ⟨rfl, Iff.rfl⟩
  · split
    · exact ⟨rfl, Iff.rfl⟩
    · split <;> exact ⟨rfl, Iff.rfl⟩

theorem measuredCsum_long (hlong : ¬data.length < 23) :
    measuredCsum f data = ixgbeWfsGetBertCsum f data := if_neg hlong

theorem ServedInv.reset (h : ServedInv f data p cfg) (hp : p + 1 ≤ 5)
    (hseqno : opt.seqno = UInt32.ofNat (p + 1))
    (hcsum : opt.dataCsum = ixgbeWfsGetBertCsum f data) (b : BertInputs) :
    ServedInv f data (p + 1)
      (bertReset b opt (data.length < 23) (measuredCsum f data) cfg) := by
  by_cases hshort : data.length < 23
  · have hignored : bertReset b opt (data.length < 23) (measuredCsum f data) cfg = cfg :=
      if_pos (.inl (decide_eq_true hshort))
    obtain ⟨hsize, hclean⟩ := h.short hshort
    rw [hignored]
    refine ⟨fun hlong => absurd hshort hlong, fun _ => ⟨?_, fun _ => hclean (by omega)⟩⟩
    rw [hsize, show p - 5 = p + 1 - 5 by omega]
  · have hright : measuredCsum f data = opt.dataCsum := (measuredCsum_long hshort).trans hcsum.symm
    have htaken : ¬(decide (data.length < 23) = true ∨ measuredCsum f data ≠ opt.dataCsum) := by
      simp [hshort, hright]
    refine ⟨fun _ => ?_, fun hs => absurd hs hshort⟩
    rw [bertReset, if_neg htaken]
    refine ⟨⟨rfl, rfl, rfl, rfl⟩, fun _ => ⟨?_, hcsum⟩⟩
    rw [hseqno, UInt32.ofNat_add (p + 1) 1]
    rfl

theorem ServedInv.request (h : ServedInv f data p cfg) (hp : 5 ≤ p)
    (hseqno : opt.seqno = UInt32.ofNat (p + 1))
    (hcsum : opt.dataCsum = ixgbeWfsGetBertCsum f data) (b : BertInputs) (pkt : Skb) :
    ServedInv f data (p + 1)
      (bertRequest b pkt opt (data.length < 23) (measuredCsum f data) cfg) := by
  by_cases hshort : data.length < 23
  · refine ⟨fun hlong => absurd hshort hlong, fun _ => ⟨?_, fun hle => absurd hle (by omega)⟩⟩
    -- each request behind the five resets counts one error of size
    have hcount : (bertRequest b pkt opt (data.length < 23) (measuredCsum f data)
        cfg).stats.errSize = cfg.stats.errSize + 1 := by
      rw [decide_eq_true hshort]
      exact (countErrors_errSize _ _ _).trans
        (congrArg (· + 1) (countSeqno_errSize { cfg with jfsLast := b.jiffies } _))
    rw [hcount, (h.short hshort).1, show p + 1 - 5 = p - 5 + 1 by omega, UInt64.ofNat_add]
    rfl
  · refine ⟨fun _ => ?_, fun hs => absurd hs hshort⟩
    obtain ⟨hclean, hreset⟩ := h.long hshort
    obtain ⟨hexpect, hdata⟩ := hreset (by omega)
    -- the request is the one that was expected, and nothing counts an error
    have hseq := countSeqno_expected { cfg with jfsLast := b.jiffies }
      (hexpect.trans hseqno.symm)
    have hnone : bertRequest b pkt opt (data.length < 23) (measuredCsum f data) cfg =
        countTx (countRx { cfg with jfsLast := b.jiffies, seqno := opt.seqno + 1 } pkt.len)
          pkt.len := by
      rw [decide_eq_false hshort]
      unfold bertRequest
      simp only [hseq]
      rw [countErrors_none { cfg with jfsLast := b.jiffies, seqno := opt.seqno + 1 }
        ((measuredCsum_long hshort).trans hdata.symm) (hcsum.trans hdata.symm)]
    rw [hnone]
    refine ⟨hclean, fun _ => ⟨?_, hdata⟩⟩
    rw [hseqno, UInt32.ofNat_add (p + 1) 1]
    rfl

theorem CountedInv.response (h : CountedInv f data n r cfg) (hn : r + 6 ≤ n)
    (hseqno : opt.seqno = UInt32.ofNat (r + 6)) (hcsum : opt.dataCsum = measuredCsum f data)
    (b : BertInputs) (pkt : Skb) :
    CountedInv f data n (r + 1)
      (bertResponse b pkt opt (data.length < 23) (measuredCsum f data) cfg) := by
  obtain ⟨base, hbase⟩ : ∃ base, base = countRx { cfg with
      jfsLast := b.jiffies, stats := countRtt cfg.stats (b.now - opt.ts) } pkt.len := ⟨_, rfl⟩
  obtain ⟨hrtt, herrors⟩ := countRtt_counters cfg.stats (b.now - opt.ts)
  -- the responses begin with the sixth frame, since the resets have none
  have hexpect : base.seqno = opt.seqno := by
    rw [hseqno, ← h.seqno (by omega), hbase]
    rfl
  have heq : bertResponse b pkt opt (data.length < 23) (measuredCsum f data) cfg =
      countErrors { base with seqno := opt.seqno + 1 } opt (data.length < 23)
        (measuredCsum f data) := by
    rw [← countSeqno_expected base hexpect, hbase]
    unfold bertResponse
    rw [h.on]
    rfl
  have hrx : base.stats.rxPkts = UInt64.ofNat (r + 1) := by
    rw [UInt64.ofNat_add, ← h.rxPkts, ← hrtt, hbase]
    rfl
  have hcfg : base.on = true ∧ base.dataCsum = ixgbeWfsGetBertCsum f data := by
    rw [hbase]
    exact ⟨h.on, h.csum⟩
  obtain ⟨hon, hdata, hseq, hrest⟩ := countErrors_rest { base with seqno := opt.seqno + 1 } opt
    (data.length < 23) (measuredCsum f data)
  rw [heq]
  refine ⟨hon.trans hcfg.1, hdata.trans hcfg.2, hrest.trans hrx, fun hclean => ?_, fun _ => ?_⟩
  -- after a response only long data are still without an error
  · have hlong := hclean.resolve_right (Nat.succ_ne_zero r)
    have hright := (measuredCsum_long hlong).trans hcfg.2.symm
    rw [decide_eq_false hlong, countErrors_none { base with seqno := opt.seqno + 1 } hright
      (hcsum.trans hright), hbase]
    exact herrors.mpr (h.clean (.inl hlong))
  · rw [hseq]
    rw [hseqno, show r + 1 + 6 = r + 6 + 1 by omega, UInt32.ofNat_add (r + 6) 1]
    rfl

theorem ofNat_le_five {k : Nat} (hk : k < 2 ^ 32) : UInt32.ofNat k ≤ 5 ↔ k ≤ 5 := by
  rw [UInt32.le_iff_toNat_le, UInt32.toNat_ofNat', Nat.mod_eq_of_lt hk]
  rfl

theorem countSent_rest (type : UInt8) (len : Nat) (cfg : WfsBertCfg) :
    (countSent type len cfg).on = cfg.on ∧ (countSent type len cfg).dataCsum = cfg.dataCsum ∧
    (countSent type len cfg).seqno = cfg.seqno ∧
    (countSent type len cfg).stats.rxPkts = cfg.stats.rxPkts ∧
    ((countSent type len cfg).stats.NoErrors ↔ cfg.stats.NoErrors) := by
  unfold countSent
  split <;> exact ⟨rfl, rfl, rfl, rfl, Iff.rfl⟩

theorem CountedInv.send (h : CountedInv f data n r cfg) (hr : n < 5 → r = 0)
    (hbound : n + 1 < 2 ^ 32) (jiffies : UInt64) (type : UInt8) (len : Nat) :
    CountedInv f data (n + 1) r
      (countSent type len (noteSend jiffies (UInt32.ofNat (n + 1)) cfg)) := by
  obtain ⟨hon, hdata, hseqno, hrx, herrors⟩ := countSent_rest type len
    (noteSend jiffies (UInt32.ofNat (n + 1)) cfg)
  have hfirst := ofNat_le_five hbound
  unfold noteSend at hon hdata hseqno hrx herrors ⊢
  by_cases hreset : n + 1 ≤ 5
  · rw [if_pos (hfirst.mpr hreset)] at hon hdata hseqno hrx herrors ⊢
    refine ⟨hon.trans h.on, hdata.trans h.csum, hrx.trans h.rxPkts,
      fun hclean => herrors.mpr (h.clean hclean), fun hn => hseqno.trans ?_⟩
    rw [hr (by omega), show n + 1 = 5 by omega]
    rfl
  · rw [if_neg (mt hfirst.mp hreset)] at hon hdata hseqno hrx herrors ⊢
    exact ⟨hon.trans h.on, hdata.trans h.csum, hrx.trans h.rxPkts,
      fun hclean => herrors.mpr (h.clean hclean), fun _ => hseqno.trans (h.seqno (by omega))⟩

end Entries

/-! ## Invariant of a test -/

/-- The type of the frame number `k`. -/
def testType (k : Nat) : UInt8 := if k ≤ 5 then wfsoptBertReset else wfsoptBertRequest

section Test

variable {π : Type} {f : List UInt8 → UInt16} {data : List UInt8} {wfsid : WfsId}
  {port port' : Port} {iwaA iwaB : Iwa π} {pkt : Skb} {rq : Requester π} {t : BertNet π}
  {out : List (Port × Skb)} {inp : BertRecvInputs} {st : Station π} {l : BertInput}

/-- The ports a test of `wfsid` between two adapters uses are up. -/
structure LinkUp (wfsid : WfsId) (port : Port) (iwaA iwaB : Iwa π) : Prop where
  requester : ∀ a, (iwaA.core.peer wfsid).activeChannel = some a → iwaA.link a = true
  carrier : iwaA.carrier = true
  responder : iwaB.link port = true
  carrier' : iwaB.carrier = true

theorem ixgbeXmitWfsFrame_up {iwa : Iwa π} {adapter : Port} (hlink : iwa.link adapter = true)
    (hcarrier : iwa.carrier = true) (hsize : 17 ≤ pkt.skbLen) :
    ixgbeXmitWfsFrame iwa true adapter pkt = [(adapter, pkt)] := by
  unfold ixgbeXmitWfsFrame
  simp only [hlink, hcarrier, if_neg (show ¬pkt.skbLen < 17 by omega), Bool.not_true,
    Bool.or_false, Bool.false_eq_true, if_false, if_true]

/-- **`ixgbe_wfs_send_bert`** does nothing, or emits the next frame of the test. -/
theorem ixgbeWfsSendBert_spec {skb : Skb} {csum : UInt16} {n : Nat} (hskb : rq.skb = some skb)
    (hframe : TestFrame data rq.station.iwa.core.wfsId skb) (hcsum : le16 skb.opts 17 = csum)
    (hseqno : rq.bertSeqno = UInt32.ofNat n) (hbound : n + 1 < 2 ^ 32)
    (hup : LinkUp wfsid port rq.station.iwa iwaB) (inp : BertSendInputs) :
    ixgbeWfsSendBert inp true wfsid rq = (rq, []) ∨
      ∃ adapter pkt, ixgbeWfsSendBert inp true wfsid rq =
          ({ rq.setCfg (countSent (testType (n + 1)) skb.skbLen
              (noteSend inp.jiffies (UInt32.ofNat (n + 1)) rq.cfg)) with
            bertSeqno := UInt32.ofNat (n + 1) }, [(adapter, pkt)]) ∧
        NumberedFrame data rq.station.iwa.core.wfsId (testType (n + 1)) (n + 1) csum pkt := by
  have hnext : rq.bertSeqno + 1 = UInt32.ofNat (n + 1) := by
    rw [hseqno, UInt32.ofNat_add n 1]
    rfl
  have htype : bertSendType (UInt32.ofNat (n + 1)) = testType (n + 1) := by
    unfold bertSendType testType
    simp only [ofNat_le_five hbound]
  -- without memory or without a channel nothing is sent, and the sequence number stays
  cases hcopy : inp.copy with
  | false =>
    left
    simp only [ixgbeWfsSendBert, hskb, hcopy, Bool.not_false, if_true]
  | true =>
    cases hchan : (rq.station.iwa.core.peer wfsid).activeChannel with
    | none =>
      left
      simp only [ixgbeWfsSendBert, hskb, hcopy, hchan, Bool.not_true, Bool.false_eq_true, if_false]
    | some adapter =>
      right
      have hpkt := hframe.send hcsum (testType (n + 1)) (n + 1) inp.now
      have hsize : 17 ≤ (setBertSend skb (testType (n + 1)) (UInt32.ofNat (n + 1))
          inp.now).skbLen := by
        have := hpkt.holds
        omega
      have hxmit := ixgbeXmitWfsFrame_up (hup.requester adapter hchan) hup.carrier hsize
      refine ⟨adapter, _, ?_, hpkt⟩
      simp only [ixgbeWfsSendBert, hskb, hcopy, hchan, Bool.not_true, Bool.false_eq_true,
        if_false, hnext, htype, hxmit, List.isEmpty_cons]

/-- What holds of a test when the responder has taken `p` frames and the requester `r`
    responses. -/
structure TestInv (f : List UInt8 → UInt16) (data : List UInt8) (iwaA iwaB : Iwa π)
    (t : BertNet π) (p r : Nat) : Prop where
  requester : t.requester.station.iwa = iwaA
  responder : t.responder.iwa = iwaB
  prepared : ∃ skb, t.requester.skb = some skb ∧ TestFrame data iwaA.core.wfsId skb ∧
    le16 skb.opts 17 = ixgbeWfsGetBertCsum f data
  seqno : t.requester.bertSeqno = UInt32.ofNat t.emitted.length
  bound : t.emitted.length < 2 ^ 32
  requests : Numbered (fun k => NumberedFrame data iwaA.core.wfsId (testType k) k
    (ixgbeWfsGetBertCsum f data)) (p + 1) t.requests
  sent : p + t.requests.length = t.emitted.length
  responses : Numbered (fun k => NumberedFrame data iwaB.core.wfsId wfsoptBertResponse k
    (measuredCsum f data)) (r + 6) t.responses
  answered : r + 5 + t.responses.length = max 5 p
  requestsSent : t.requestsSent = t.emitted.length - 5
  counted : CountedInv f data t.emitted.length r t.requester.cfg
  served : ServedInv f data p t.served

theorem Requester.cfg_setCfg (rq : Requester π) (cfg : WfsBertCfg) : (rq.setCfg cfg).cfg = cfg := by
  simp only [Requester.cfg, Requester.setCfg, Function.update_self]

theorem TestInv.send {p r : Nat} (h : TestInv f data iwaA iwaB t p r)
    (hup : LinkUp wfsid port iwaA iwaB) (hbound : t.emitted.length + 1 < 2 ^ 32)
    {inp : BertSendInputs} (hsend : ixgbeWfsSendBert inp true wfsid t.requester = (rq, out)) :
    TestInv f data iwaA iwaB { t with
      requester := rq, requests := t.requests ++ out.map Prod.snd
      emitted := t.emitted ++ out.map Prod.snd } p r := by
  obtain ⟨skb, hskb, hframe, hcsum⟩ := h.prepared
  rw [← h.requester] at hframe hup
  rcases ixgbeWfsSendBert_spec hskb hframe hcsum h.seqno hbound hup inp with heq | ⟨a, pkt, heq, hpkt⟩
  · obtain ⟨rfl, rfl⟩ := Prod.mk.inj (hsend.symm.trans heq)
    simpa only [List.map_nil, List.append_nil] using h
  · obtain ⟨rfl, rfl⟩ := Prod.mk.inj (hsend.symm.trans heq)
    have hsent := h.sent
    have hanswered := h.answered
    have hlast : p + 1 + t.requests.length = t.emitted.length + 1 := by omega
    -- the first five frames are resets, all others requests
    have hcount : [pkt].countP (fun pkt => pkt.opts 2 = wfsoptBertRequest) =
        t.emitted.length + 1 - 5 - (t.emitted.length - 5) := by
      rw [List.countP_singleton, hpkt.type_eq, testType]
      by_cases hreset : t.emitted.length + 1 ≤ 5
      · rw [if_pos hreset, if_neg (by decide)]
        omega
      · rw [if_neg hreset, if_pos (by decide)]
        omega
    exact
      { h with
        seqno := by simp only [List.map_cons, List.map_nil, List.length_append, List.length_cons,
          List.length_nil, Nat.zero_add]
        bound := by
          simpa only [List.map_cons, List.map_nil, List.length_append, List.length_cons,
            List.length_nil] using hbound
        requests := h.requests.snoc (hlast ▸ h.requester ▸ hpkt)
        sent := by
          simp only [List.map_cons, List.map_nil, List.length_append, List.length_cons,
            List.length_nil]
          omega
        answered := hanswered
        requestsSent := by
          have hbefore := h.requestsSent
          unfold BertNet.requestsSent at hbefore ⊢
          simp only [List.map_cons, List.map_nil, List.countP_append, List.length_append,
            List.length_cons, List.length_nil, hcount]
          omega
        counted := by
          rw [List.length_append]
          change CountedInv f data (t.emitted.length + 1) r (Requester.cfg (Requester.setCfg _ _))
          rw [Requester.cfg_setCfg]
          exact h.counted.send (by omega) hbound _ _ _ }

theorem sendCtrl_none (rx : RxInputs) (adapter : Port) (iwa : Iwa π)
    (h : pkt.type = wfspktTypeCtrlNone) : sendCtrl rx adapter iwa pkt = [] := if_pos h

theorem sendCtrl_reply {iwa : Iwa π} {adapter : Port} (hlink : iwa.link adapter = true)
    (hcarrier : iwa.carrier = true) (b : BertInputs) (htype : pkt.type = wfspktTypeCtrlBert)
    (hsize : 17 ≤ pkt.skbLen) : sendCtrl { bert := b } adapter iwa pkt = [(adapter, pkt)] := by
  unfold sendCtrl
  rw [htype, if_neg (by decide), if_neg (fun h => absurd h.1 (by decide)), if_pos ⟨rfl, hlink⟩]
  exact ixgbeXmitWfsFrame_up hlink hcarrier hsize

variable [EventStore π]

theorem TestInv.serve {p r : Nat} (h : TestInv f data iwaA iwaB t p r)
    (hmax : data.length ≤ bertDataSizeMax) (hup : LinkUp wfsid port iwaA iwaB) {rest : List Skb}
    (hreq : t.requests = pkt :: rest)
    (hrecv : recvBert f inp port t.responder pkt.padToMin = .ok (st, out)) :
    TestInv f data iwaA iwaB { t with
      responder := st, requests := rest, responses := t.responses ++ out.map Prod.snd } (p + 1)
      r := by
  have hnum := h.requests
  rw [hreq, numbered_cons] at hnum
  obtain ⟨hfirst, hrest⟩ := hnum
  have hsent := h.sent
  rw [hreq, List.length_cons] at hsent
  have hpkt := hfirst.padToMin
  have hpad : ethZlen ≤ pkt.padToMin.skbLen := by
    rw [skbLen_padToMin]
    exact le_max_left _ _
  obtain ⟨b, hb, heq⟩ := recvBert_eq hpkt.toTestFrame hpad f inp port t.responder
  rw [heq, wfsProcessBert_testFrame hpkt hmax hpad hb] at hrecv
  have hentry : t.responder.wfsbert iwaA.core.wfsId = t.served := by
    rw [BertNet.served, h.requester]
  have hserved {cfg : WfsBertCfg} (hcfg : ServedInv f data (p + 1) cfg) {t' : BertNet π}
      (hid : t'.requester.station.iwa = iwaA)
      (hupd : t'.responder.wfsbert = Function.update t.responder.wfsbert iwaA.core.wfsId cfg) :
      ServedInv f data (p + 1) t'.served := by
    rw [BertNet.served, hid, hupd, Function.update_self]
    exact hcfg
  have hseqno : (bertAt pkt.padToMin.opts 0).seqno = UInt32.ofNat (p + 1) := hpkt.seqno
  have hcsum : (bertAt pkt.padToMin.opts 0).dataCsum = ixgbeWfsGetBertCsum f data := hpkt.dataCsum
  have hanswered := h.answered
  -- a reset is not answered, a request is
  by_cases hreset : p + 1 ≤ 5
  · have htype : testType (p + 1) = wfsoptBertReset := if_pos hreset
    rw [htype, if_neg (by decide), if_pos rfl] at hrecv
    cases hrecv
    rw [sendCtrl_none _ _ _ rfl, List.map_nil, List.append_nil]
    exact
      { h with
        requests := hrest
        sent := by change p + 1 + rest.length = t.emitted.length; omega
        answered := by change r + 5 + t.responses.length = max 5 (p + 1); omega
        served := hserved ((hentry ▸ h.served).reset hreset hseqno hcsum b) h.requester rfl }
  · have htype : testType (p + 1) = wfsoptBertRequest := if_neg hreset
    rw [htype, if_neg (by decide), if_neg (by decide), if_pos rfl] at hrecv
    cases hrecv
    have hreply := hpkt.reply t.responder.iwa.core iwaA.core.wfsId (measuredCsum f data)
    have hsize : 17 ≤ (bertReply t.responder.iwa.core iwaA.core.wfsId pkt.padToMin 0
        (measuredCsum f data)).skbLen := (by decide : 17 ≤ ethZlen).trans hpad
    rw [sendCtrl_reply (h.responder ▸ hup.responder) (h.responder ▸ hup.carrier') b rfl hsize]
    have hlast : r + 6 + t.responses.length = p + 1 := by omega
    exact
      { h with
        requests := hrest
        sent := by change p + 1 + rest.length = t.emitted.length; omega
        responses := h.responses.snoc (hlast ▸ h.responder ▸ hreply)
        answered := by
          simp only [List.map_cons, List.map_nil, List.length_append, List.length_cons,
            List.length_nil]
          omega
        served := hserved ((hentry ▸ h.served).request (by omega) hseqno hcsum b _)
          h.requester rfl }

theorem TestInv.back {p r : Nat} (h : TestInv f data iwaA iwaB t p r)
    (hmax : data.length ≤ bertDataSizeMax) {rest : List Skb} (hresp : t.responses = pkt :: rest)
    (hrecv : recvBert f inp port' t.requester.station pkt.padToMin = .ok (st, out)) :
    TestInv f data iwaA iwaB { t with
      requester := { t.requester with station := st }
      requests := t.requests ++ out.map Prod.snd, responses := rest } p (r + 1) := by
  have hnum := h.responses
  rw [hresp, numbered_cons] at hnum
  obtain ⟨hfirst, hrest⟩ := hnum
  have hanswered := h.answered
  rw [hresp, List.length_cons] at hanswered
  have hsent := h.sent
  have hpkt := hfirst.padToMin
  have hpad : ethZlen ≤ pkt.padToMin.skbLen := by
    rw [skbLen_padToMin]
    exact le_max_left _ _
  obtain ⟨b, hb, heq⟩ := recvBert_eq hpkt.toTestFrame hpad f inp port' t.requester.station
  -- a response is counted and goes no further
  rw [heq, wfsProcessBert_testFrame hpkt hmax hpad hb, if_pos rfl] at hrecv
  cases hrecv
  rw [sendCtrl_none _ _ _ rfl, List.map_nil, List.append_nil]
  have hseqno : (bertAt pkt.padToMin.opts 0).seqno = UInt32.ofNat (r + 6) := hpkt.seqno
  have hcsum : (bertAt pkt.padToMin.opts 0).dataCsum = measuredCsum f data := hpkt.dataCsum
  have hcounted := h.counted.response (by omega) hseqno hcsum b pkt.padToMin
  exact
    { h with
      sent := hsent
      responses := by
        rw [show r + 1 + 6 = r + 6 + 1 by omega]
        exact hrest
      answered := by change r + 1 + 5 + rest.length = max 5 p; omega
      counted := by
        unfold Requester.cfg at hcounted ⊢
        simp only [Function.update_self]
        exact hcounted }

theorem TestInv.of_step {t' : BertNet π} {p r : Nat} (h : TestInv f data iwaA iwaB t p r)
    (hmax : data.length ≤ bertDataSizeMax) (hup : LinkUp wfsid port iwaA iwaB)
    (hstep : BertStep f wfsid port port' t l t') : ∃ p' r', TestInv f data iwaA iwaB t' p' r' := by
  cases hstep with
  | send hbound hsend => exact ⟨p, r, h.send hup hbound hsend⟩
  | serve hreq hrecv => exact ⟨p + 1, r, h.serve hmax hup hreq hrecv⟩
  | back hresp hrecv => exact ⟨p, r + 1, h.back hmax hresp hrecv⟩

theorem BertStep.unique {t₁ t₂ : BertNet π} (h₁ : BertStep f wfsid port port' t l t₁)
    (h₂ : BertStep f wfsid port port' t l t₂) : t₁ = t₂ := by
  cases h₁ with
  | send _ h =>
    cases h₂ with
    | send _ h' =>
      obtain ⟨rfl, rfl⟩ := Prod.mk.inj (h.symm.trans h')
      rfl
  | serve hq h =>
    cases h₂ with
    | serve hq' h' =>
      obtain ⟨rfl, rfl⟩ := List.cons.inj (hq.symm.trans hq')
      obtain ⟨rfl, rfl⟩ := Prod.mk.inj (Except.ok.inj (h.symm.trans h'))
      rfl
  | back hq h =>
    cases h₂ with
    | back hq' h' =>
      obtain ⟨rfl, rfl⟩ := List.cons.inj (hq.symm.trans hq')
      obtain ⟨rfl, rfl⟩ := Prod.mk.inj (Except.ok.inj (h.symm.trans h'))
      rfl

theorem bertNext_eq_some_iff (t : BertNet π) (l : BertInput) (t' : BertNet π) :
    bertNext f wfsid port port' t l = some t' ↔ BertStep f wfsid port port' t l t' := by
  constructor
  · intro h
    cases l with
    | send inp =>
      simp only [bertNext] at h
      split at h
      · next hbound =>
          cases h
          exact .send hbound rfl
      · cases h
    | serve inp =>
      simp only [bertNext] at h
      split at h
      · cases h
      · next hq =>
          split at h
          · cases h
          · next hrecv =>
              cases h
              exact .serve hq hrecv
    | back inp =>
      simp only [bertNext] at h
      split at h
      · cases h
      · next hq =>
          split at h
          · cases h
          · next hrecv =>
              cases h
              exact .back hq hrecv
  · intro h
    cases h with
    | send hbound hsend => simp only [bertNext, if_pos hbound, hsend]
    | serve hq hrecv => simp only [bertNext, hq, hrecv]
    | back hq hrecv => simp only [bertNext, hq, hrecv]

theorem emitted_le_of_run {t' : BertNet π} {ls : List BertInput}
    (h : Run (BertStep f wfsid port port') t ls t') : t.emitted.length ≤ t'.emitted.length := by
  refine h.invariant (I := fun u => t.emitted.length ≤ u.emitted.length) ?_ le_rfl
  rintro u l u' hle hstep
  cases hstep with
  | send _ _ =>
    rw [List.length_append]
    exact Nat.le_add_right_of_le hle
  | serve _ _ => exact hle
  | back _ _ => exact hle

end Test

/-! ## A test on a clean link -/

section Run

variable {π : Type} {f : List UInt8 → UInt16} {data : List UInt8} {wfsid : WfsId} {key : FibKey}
  {kmalloc : Bool} {buf : Option Skb} {rq₀ rq : Requester π}

theorem startRequest_spec
    (hstart : ixgbeWfsBertStartRequest f key wfsid data kmalloc buf rq₀ = .ok (rq, 0)) :
    ∃ skb, TestFrame data rq₀.station.iwa.core.wfsId skb ∧
      le16 skb.opts 17 = ixgbeWfsGetBertCsum f data ∧
      rq = { rq₀.setCfg { rq₀.cfg with
          on := true, jfs := 0, jfsLast := 0, seqno := 0, dataLen := UInt16.ofNat data.length
          dataCsum := ixgbeWfsGetBertCsum f data, stats := {} } with
        skb := some skb, bertSeqno := 0, on := true } := by
  unfold ixgbeWfsBertStartRequest at hstart
  split at hstart
  · cases hstart
  split at hstart
  · cases hstart
  cases buf with
  | none => cases hstart
  | some buf =>
    simp only [bind, Except.bind, pure, Except.pure] at hstart
    split at hstart
    · cases hstart
    · next skb hget =>
        obtain ⟨hframe, hcsum⟩ := ixgbeWfsGetBertSkb_frame hget
        cases hstart
        exact ⟨skb, hframe, hcsum, rfl⟩

theorem testInv_start
    (hstart : ixgbeWfsBertStartRequest f key wfsid data kmalloc buf rq₀ = .ok (rq, 0))
    {st : Station π} (hclean : (st.wfsbert rq.station.iwa.core.wfsId).stats.NoErrors) :
    TestInv f data rq.station.iwa st.iwa { requester := rq, responder := st } 0 0 := by
  obtain ⟨skb, hframe, hcsum, rfl⟩ := startRequest_spec hstart
  exact
    { requester := rfl
      responder := rfl
      prepared := ⟨skb, rfl, hframe, hcsum⟩
      seqno := rfl
      bound := Nat.two_pow_pos 32
      requests := numbered_nil 1
      sent := rfl
      responses := numbered_nil 6
      answered := rfl
      requestsSent := rfl
      counted := by
        change CountedInv f data 0 0 (Requester.cfg (Requester.setCfg _ _))
        rw [Requester.cfg_setCfg]
        exact ⟨rfl, rfl, rfl, fun _ => ⟨rfl, rfl, rfl, rfl⟩, fun h => absurd h (by decide)⟩
      served := ⟨fun _ => ⟨hclean, fun h => absurd h (by decide)⟩,
        fun _ => ⟨hclean.2.2.2, fun _ => hclean⟩⟩ }

variable [EventStore π] {port port' : Port} {st : Station π} {t : BertNet π} {ls : List BertInput}

theorem testInv_of_run
    (hstart : ixgbeWfsBertStartRequest f key wfsid data kmalloc buf rq₀ = .ok (rq, 0))
    (hmax : data.length ≤ bertDataSizeMax) (hup : LinkUp wfsid port rq.station.iwa st.iwa)
    (hclean : (st.wfsbert rq.station.iwa.core.wfsId).stats.NoErrors)
    (hrun : Run (BertStep f wfsid port port') { requester := rq, responder := st } ls t) :
    ∃ p r, TestInv f data rq.station.iwa st.iwa t p r := by
  refine hrun.invariant (I := fun u => ∃ p r, TestInv f data rq.station.iwa st.iwa u p r) ?_
    ⟨0, 0, testInv_start hstart hclean⟩
  rintro u l u' ⟨p, r, h⟩ hstep
  exact h.of_step hmax hup hstep

/-- **A clean link measures as clean** exactly if no frame is padded, that is the payload has
    at least 23 bytes, or the test ends with the resets: neither station counts an error on
    the way, and at the end, with nothing under way, the requester has counted as many
    responses as it sent requests. -/
theorem bert_clean_iff
    (hstart : ixgbeWfsBertStartRequest f key wfsid data kmalloc buf rq₀ = .ok (rq, 0))
    (hmax : data.length ≤ bertDataSizeMax) (hup : LinkUp wfsid port rq.station.iwa st.iwa)
    (hclean : (st.wfsbert rq.station.iwa.core.wfsId).stats.NoErrors)
    (hrun : Run (BertStep f wfsid port port') { requester := rq, responder := st } ls t)
    (hrequests : t.requests = []) (hresponses : t.responses = []) :
    (Always (BertStep f wfsid port port') BertNet.Clean { requester := rq, responder := st } ls ∧
      t.requester.cfg.stats.rxPkts.toNat = t.requestsSent) ↔
      23 ≤ data.length ∨ t.emitted.length ≤ 5 := by
  obtain ⟨p, r, h⟩ := testInv_of_run hstart hmax hup hclean hrun
  have hsent := h.sent
  have hanswered := h.answered
  have hbound := h.bound
  rw [hrequests, List.length_nil] at hsent
  rw [hresponses, List.length_nil] at hanswered
  constructor
  · rintro ⟨hall, -⟩
    by_contra hbad
    -- The responder has counted the size of every request.
    have hsize := (h.served.short (by omega)).1
    have hzero := (hall ls t List.prefix_rfl hrun).2.2.2.2
    have hcount : (UInt64.ofNat (p - 5)).toNat = p - 5 := by
      rw [UInt64.toNat_ofNat']
      exact Nat.mod_eq_of_lt (by omega)
    rw [← hsize, hzero] at hcount
    have hnone : (0 : UInt64).toNat = 0 := rfl
    omega
  · intro hok
    refine ⟨fun pre u hpre hrun' => ?_, ?_⟩
    · obtain ⟨p', r', h'⟩ := testInv_of_run hstart hmax hup hclean hrun'
      -- The run goes on from `u`, so `u` has sent no more than `t`.
      obtain ⟨rest, rfl⟩ := hpre
      obtain ⟨v, hv, hrest⟩ := hrun.split
      obtain rfl := Run.unique (fun _ _ _ _ h₁ h₂ => h₁.unique h₂) hrun' hv
      have hle := emitted_le_of_run hrest
      have hsent' := h'.sent
      have hanswered' := h'.answered
      by_cases hlong : 23 ≤ data.length
      · exact ⟨h'.counted.clean (.inl (by omega)), (h'.served.long (by omega)).1⟩
      · have hfew := hok.resolve_left hlong
        exact ⟨h'.counted.clean (.inr (by omega)), (h'.served.short (by omega)).2 (by omega)⟩
    · rw [h.counted.rxPkts, h.requestsSent, UInt64.toNat_ofNat']
      omega

end Run

/-! ## One byte of payload -/

def testStation (id : WfsId) : Station EvBufPool where
  iwa :=
    let iwa := Iwa.probed id (Vector.replicate 6 2) (fun _ => 0)
      (EvBufPool.ixgbeWfsFsmInit fun _ => true).1
    { iwa with
      state := .opened, link := fun _ => true, linkUp := true, carrier := true
      core := { iwa.core with peer := fun id =>
        { iwa.core.peer id with fsmState := .idle, channelPri := some .primary } } }
  fib := {}

/-- The test of station 1 by station 0 with the payload `data`; the checksum is the one of a
    block of zeros. -/
def startTest (data : List UInt8) : Except Fault (Requester EvBufPool × Int) :=
  ixgbeWfsBertStartRequest (fun _ => 0xFFFF) ⟨0, Vector.replicate 6 0⟩ 1 data true
    (some (usedBuffer 0)) { station := testStation 0 }

def sixFrames : List BertInput :=
  (List.replicate 6 [.send {}, .serve {}]).flatten ++ [.back {}]

theorem sixFrames_oneByte :
    ∃ rq t, startTest [0] = .ok (rq, 0) ∧
      Run (BertStep (fun _ => 0xFFFF) 1 .primary .primary)
        { requester := rq, responder := testStation 1 } sixFrames t ∧
      t.requests = [] ∧ t.responses = [] ∧ t.emitted.length = 6 ∧ t.served.stats.errSize = 1 := by
  have heval : (match startTest [0] with
      | .ok (rq, ret) => if ret = 0 then (Run.exec (bertNext (fun _ => 0xFFFF) 1 .primary .primary)
            { requester := rq, responder := testStation 1 } sixFrames).map fun t =>
          (t.requests.isEmpty, t.responses.isEmpty, t.emitted.length, t.served.stats.errSize)
        else none
      | .error _ => none) = some (true, true, 6, 1) := by decide +kernel
  split at heval
  · next rq ret hstart =>
      obtain ⟨rfl, hsome⟩ := Option.ite_none_right_eq_some.mp heval
      obtain ⟨t, hexec, ht⟩ := Option.map_eq_some_iff.mp hsome
      have hrun := (Run.exec_eq_some_iff bertNext_eq_some_iff).mp hexec
      simp only [Prod.mk.injEq, List.isEmpty_iff] at ht
      exact ⟨rq, t, hstart, hrun, ht⟩
  · cases heval

theorem bert_clean_iff_oneByte :
    ∃ rq t, startTest [0] = .ok (rq, 0) ∧
      Run (BertStep (fun _ => 0xFFFF) 1 .primary .primary)
        { requester := rq, responder := testStation 1 } sixFrames t ∧
      ((Always (BertStep (fun _ => 0xFFFF) 1 .primary .primary) BertNet.Clean
          { requester := rq, responder := testStation 1 } sixFrames ∧
        t.requester.cfg.stats.rxPkts.toNat = t.requestsSent) ↔
        23 ≤ [(0 : UInt8)].length ∨ t.emitted.length ≤ 5) := by
  obtain ⟨rq, t, hstart, hrun, hrequests, hresponses, -, -⟩ := sixFrames_oneByte
  obtain ⟨skb, -, -, hrq⟩ := startRequest_spec hstart
  have hup : LinkUp 1 .primary rq.station.iwa (testStation 1).iwa := by
    rw [hrq]
    exact ⟨fun _ _ => rfl, rfl, rfl, rfl⟩
  exact ⟨rq, t, hstart, hrun,
    bert_clean_iff hstart (by decide) hup ⟨rfl, rfl, rfl, rfl⟩ hrun hrequests hresponses⟩

/-- One byte of payload and six packets: the responder counts a wrong size on a clean link. -/
theorem bert_clean_oneByte :
    ∃ rq t, startTest [0] = .ok (rq, 0) ∧
      Run (BertStep (fun _ => 0xFFFF) 1 .primary .primary)
        { requester := rq, responder := testStation 1 } sixFrames t ∧
      t.requests = [] ∧ t.responses = [] ∧ ¬t.Clean := by
  obtain ⟨rq, t, hstart, hrun, hrequests, hresponses, -, hsize⟩ := sixFrames_oneByte
  refine ⟨rq, t, hstart, hrun, hrequests, hresponses, fun hclean => ?_⟩
  rw [hclean.2.2.2.2] at hsize
  exact absurd hsize (by decide)

end VmkDrivers.Wfs
