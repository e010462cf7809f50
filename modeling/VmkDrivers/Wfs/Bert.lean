/-
  VmkDrivers.Wfs.Bert

  The receiver of the bit error rate test (`wfs_process_bert`).

  A station keeps an entry of `wfsbert[]` for every station: its own one
  counts the responses to its test, the others the requests received.
  Clock readings and the checksum of the payload are arguments.
-/

import VmkDrivers.Wfs.Packet

namespace VmkDrivers.Wfs

def wfsoptBertReset : UInt8 := 1
def wfsoptBertRequest : UInt8 := 2
def wfsoptBertResponse : UInt8 := 3

structure WfsBertStats where
  txBytes : UInt64 := 0
  txPkts : UInt64 := 0
  rxBytes : UInt64 := 0
  rxPkts : UInt64 := 0
  errDrop : UInt64 := 0
  errSeq : UInt64 := 0
  errCsum : UInt64 := 0
  errSize : UInt64 := 0
  rttMax : UInt64 := 0
  rttMin : UInt64 := 0
  rttAvg : UInt64 := 0
deriving DecidableEq, Repr

structure WfsBertCfg where
  on : Bool := false
  jfs : UInt64 := 0
  jfsLast : UInt64 := 0
  seqno : UInt32 := 0
  dataLen : UInt16 := 0
  dataCsum : UInt16 := 0
  stats : WfsBertStats := {}
deriving DecidableEq, Repr

structure WfsoptBert where
  type : UInt8
  seqno : UInt32
  ts : UInt64
  dataLen : UInt16
  dataCsum : UInt16
deriving DecidableEq, Repr

/-- `opt->val.bert`. -/
def bertAt (opts : Nat → UInt8) (o : Nat) : WfsoptBert :=
  { type := opts (o + 2)
    seqno := le32 opts (o + 3)
    ts := le64 opts (o + 7)
    dataLen := le16 opts (o + 15)
    dataCsum := le16 opts (o + 17) }

/-- What the test reads from the clocks, and the checksum of the payload
    (`ixgbe_wfs_get_bert_skb_csum`). -/
structure BertInputs where
  jiffies : UInt64 := 0
  /-- Microseconds. -/
  now : UInt64 := 0
  csum : UInt16 := 0
deriving DecidableEq, Repr

/-- The round trip times with one more of `elapse`. -/
def countRtt (stats : WfsBertStats) (elapse : UInt64) : WfsBertStats :=
  if stats.rttAvg = 0 then
    { stats with rttMax := elapse, rttMin := elapse, rttAvg := elapse }
  else
    let stats' :=
      if elapse > stats.rttMax then { stats with rttMax := elapse }
      else if elapse < stats.rttMin then { stats with rttMin := elapse }
      else stats
    { stats' with rttAvg := (stats.rxPkts * stats.rttAvg + elapse) / (stats.rxPkts + 1) }

def countSeqno (cfg : WfsBertCfg) (seqno : UInt32) : WfsBertCfg :=
  if seqno < cfg.seqno then
    { cfg with stats := { cfg.stats with errSeq := cfg.stats.errSeq + 1 } }
  else if seqno > cfg.seqno then
    { cfg with
      stats := { cfg.stats with
        errDrop := cfg.stats.errDrop + (seqno - cfg.seqno).toUInt64 }
      seqno := seqno + 1 }
  else { cfg with seqno := seqno + 1 }

def countErrors (cfg : WfsBertCfg) (opt : WfsoptBert) (wrongSize : Bool) (csum : UInt16) :
    WfsBertCfg :=
  let stats := cfg.stats
  let stats := if wrongSize then { stats with errSize := stats.errSize + 1 } else stats
  let stats :=
    if csum ≠ cfg.dataCsum ∨ opt.dataCsum ≠ cfg.dataCsum then
      { stats with errCsum := stats.errCsum + 1 }
    else stats
  { cfg with stats }

def countRx (cfg : WfsBertCfg) (len : UInt8) : WfsBertCfg :=
  { cfg with stats := { cfg.stats with
      rxPkts := cfg.stats.rxPkts + 1
      rxBytes := cfg.stats.rxBytes + (len.toUInt64 + cfg.dataLen.toUInt64) } }

def countTx (cfg : WfsBertCfg) (len : UInt8) : WfsBertCfg :=
  { cfg with stats := { cfg.stats with
      txPkts := cfg.stats.txPkts + 1
      txBytes := cfg.stats.txBytes + (len.toUInt64 + cfg.dataLen.toUInt64) } }

/-- "sender process a response", on the own entry. -/
def bertResponse (inp : BertInputs) (pkt : Skb) (opt : WfsoptBert) (wrongSize : Bool)
    (csum : UInt16) (cfg : WfsBertCfg) : WfsBertCfg :=
  if !cfg.on then cfg
  else
    let cfg := { cfg with
      jfsLast := inp.jiffies, stats := countRtt cfg.stats (inp.now - opt.ts) }
    countErrors (countSeqno (countRx cfg pkt.len) opt.seqno) opt wrongSize csum

/-- "a reset", on the entry of the sender. -/
def bertReset (inp : BertInputs) (opt : WfsoptBert) (wrongSize : Bool) (csum : UInt16)
    (cfg : WfsBertCfg) : WfsBertCfg :=
  if wrongSize ∨ csum ≠ opt.dataCsum then cfg
  else { cfg with
    dataCsum := opt.dataCsum, dataLen := opt.dataLen, jfs := inp.jiffies, jfsLast := inp.jiffies
    seqno := opt.seqno + 1, stats := {} }

/-- "a request", on the entry of the sender. -/
def bertRequest (inp : BertInputs) (pkt : Skb) (opt : WfsoptBert) (wrongSize : Bool)
    (csum : UInt16) (cfg : WfsBertCfg) : WfsBertCfg :=
  let cfg := countSeqno { cfg with jfsLast := inp.jiffies } opt.seqno
  countTx (countRx (countErrors cfg opt wrongSize csum) pkt.len) pkt.len

/-- "now response back": the frame goes back to its sender. -/
def bertReply (core : RapsCore) (src : WfsId) (pkt : Skb) (o : Nat) (csum : UInt16) : Skb :=
  { pkt with
    type := wfspktTypeCtrlBert
    opts := setByte (setByte (setByte pkt.opts (o + 2) wfsoptBertResponse)
      (o + 17) csum.toUInt8) (o + 18) (csum >>> 8).toUInt8
    hDest := (core.peer src).mac
    hSource := core.macAddr
    dest := pkt.src
    src := core.wfsId.byte }

/-- `wfs_process_bert` for the option at offset `o`: the entries and the frame afterwards. -/
def wfsProcessBert (inp : BertInputs) (core : RapsCore) (wfsbert : WfsId → WfsBertCfg)
    (pkt : Skb) (o : Nat) : Except Fault ((WfsId → WfsBertCfg) × Skb) :=
  match WfsId.ofByte? pkt.src with
  | none => .error .tableIndex
  | some src =>
    let opt := bertAt pkt.opts o
    -- what is behind the header is not as long as the option says
    let wrongSize : Bool := pkt.skbLen - pkt.len.toNat ≠ opt.dataLen.toNat
    let csum := if wrongSize then 0 else inp.csum
    let pktNone := { pkt with type := wfspktTypeCtrlNone }
    if opt.type = wfsoptBertResponse then
      .ok (Function.update wfsbert core.wfsId
        (bertResponse inp pkt opt wrongSize csum (wfsbert core.wfsId)), pktNone)
    else if opt.type = wfsoptBertReset then
      .ok (Function.update wfsbert src (bertReset inp opt wrongSize csum (wfsbert src)), pktNone)
    else if opt.type = wfsoptBertRequest then
      .ok (Function.update wfsbert src (bertRequest inp pkt opt wrongSize csum (wfsbert src)),
        bertReply core src pkt o csum)
    -- other types are not handled
    else .ok (wfsbert, pkt)

/-- **`wfs_process_bert`** runs through for the frames of stations, and for no other. -/
theorem wfsProcessBert_ok (inp : BertInputs) (core : RapsCore) (wfsbert : WfsId → WfsBertCfg)
    {pkt : Skb} (o : Nat) {src : WfsId} (h : WfsId.ofByte? pkt.src = some src) :
    ∃ r, wfsProcessBert inp core wfsbert pkt o = .ok r := by
  unfold wfsProcessBert
  rw [h]
  simp only
  split
  · exact ⟨_, rfl⟩
  · split
    · exact ⟨_, rfl⟩
    · split <;> exact ⟨_, rfl⟩

theorem wfsProcessBert_error (inp : BertInputs) (core : RapsCore)
    (wfsbert : WfsId → WfsBertCfg) {pkt : Skb} (o : Nat) (h : WfsId.ofByte? pkt.src = none) :
    wfsProcessBert inp core wfsbert pkt o = .error .tableIndex := by
  unfold wfsProcessBert
  rw [h]

end VmkDrivers.Wfs
