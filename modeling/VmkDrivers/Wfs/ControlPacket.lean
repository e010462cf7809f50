/-
  VmkDrivers.Wfs.ControlPacket

  The control frames a station originates (`getWfsAncePkt`, `getWfsRapsPkt`,
  `getWfsBertPkt` of `ixgbe_wfs.c`) and the fields their senders fill in.

  A new `sk_buff` holds whatever its memory held before.  Each builder zeroes
  fewer bytes than the option it appends has, so the bytes behind them are
  those of the buffer until somebody writes them.  The announce and the BERT
  frame get every byte written; of the RAPS frame the status byte, with its
  `flush` and `dnf` bits, stays as the memory had it.
-/

import VmkDrivers.Wfs.PeerState
import VmkDrivers.Wfs.Receive

namespace VmkDrivers.Wfs

def wfspktTypeCtrlAnnounce : UInt8 := 0xC1

/-! ## Options of the control frames -/

/-- Four bytes in network order from offset `i` on. -/
def putBe32 (b : Nat → UInt8) (i : Nat) (v : UInt32) : Nat → UInt8 :=
  setByte (setByte (setByte (setByte b i (v >>> 24).toUInt8)
    (i + 1) (v >>> 16).toUInt8) (i + 2) (v >>> 8).toUInt8) (i + 3) v.toUInt8

/-- Two bytes in host order from offset `i` on. -/
def putLe16 (b : Nat → UInt8) (i : Nat) (v : UInt16) : Nat → UInt8 :=
  setByte (setByte b i v.toUInt8) (i + 1) (v >>> 8).toUInt8

/-- Four bytes in host order from offset `i` on. -/
def putLe32 (b : Nat → UInt8) (i : Nat) (v : UInt32) : Nat → UInt8 :=
  putLe16 (putLe16 b i v.toUInt16) (i + 2) (v >>> 16).toUInt16

/-- Eight bytes in host order from offset `i` on. -/
def putLe64 (b : Nat → UInt8) (i : Nat) (v : UInt64) : Nat → UInt8 :=
  putLe32 (putLe32 b i v.toUInt32) (i + 4) (v >>> 32).toUInt32

/-- A MAC address from offset `i` on. -/
def putMac (b : Nat → UInt8) (i : Nat) (mac : Mac) : Nat → UInt8 :=
  fun j => if h : i ≤ j ∧ j < i + 6 then mac.get ⟨j - i, by omega⟩ else b j

/-- `wfspkt_set_announce`: of the 13 bytes of the option 11 are zeroed. -/
def wfspktSetAnnounce (core : RapsCore) (pkt : Skb) : Except Fault Skb :=
  appendOpt pkt wfsoptAnnounce 13 11 fun opts o =>
    putBe32 (putMac opts (o + 2) core.macAddr) (o + 8) core.ip

/-- The bit fields `port_pri`, `port_sec` and `port` of the announce option at offset `o`,
    assigned one after the other. -/
def setAnnounceChannel (pkt : Skb) (o : Nat) (pri sec port : UInt8) : Skb :=
  let b := pkt.opts (o + 12)
  let b : UInt8 := (b &&& 0xFE) ||| pri
  let b : UInt8 := (b &&& 0xFD) ||| (sec <<< (1 : UInt8))
  let b : UInt8 := (b &&& 0x03) ||| (port <<< (2 : UInt8))
  { pkt with opts := setByte pkt.opts (o + 12) b }

def wfspktSetAnnouncePrimary (pkt : Skb) (o : Nat) (port : UInt8) : Skb :=
  setAnnounceChannel pkt o 1 0 port

def wfspktSetAnnounceSecondary (pkt : Skb) (o : Nat) (port : UInt8) : Skb :=
  setAnnounceChannel pkt o 0 1 port

/-- `wfspkt_set_bert`: of the 19 bytes of the option 17 are zeroed. -/
def wfspktSetBert (pkt : Skb) : Except Fault Skb :=
  appendOpt pkt wfsoptBert 19 17 fun opts _ => opts

/-! ## Frames -/

/-- `skb_put` of the header. -/
def Skb.putHeader (pkt : Skb) : Skb := { pkt with skbLen := pkt.len.toNat }

/-- `getWfsAncePkt` in the new buffer `buf`. -/
def getWfsAncePkt (core : RapsCore) (fib : Fib) (key : FibKey) (buf : Skb) :
    Except Fault Skb := do
  let pkt ← wfspktInit core fib key buf wfspktTypeCtrlAnnounce 0 Mac.broadcast
  let pkt ← wfspktSetAnnounce core pkt
  pure pkt.putHeader

/-- `getWfsRapsPkt` in the new buffer `buf`. -/
def getWfsRapsPkt (core : RapsCore) (fib : Fib) (key : FibKey) (buf : Skb) :
    Except Fault Skb := do
  let pkt ← wfspktInit core fib key buf wfspktTypeCtrlRaps 0 Mac.broadcast
  let pkt ← wfspktSetRaps pkt
  pure pkt.putHeader

/-- `getWfsBertPkt` in the new buffer `buf`. -/
def getWfsBertPkt (core : RapsCore) (fib : Fib) (key : FibKey) (wfsid : WfsId) (buf : Skb) :
    Except Fault Skb := do
  let pkt ← wfspktInit core fib key buf wfspktTypeCtrlBert 0 (core.peer wfsid).mac
  let pkt ← wfspktSetBert pkt
  pure pkt.putHeader

/-- `ixgbe_wfs_get_bert_skb`: the frame with its payload and what the option says of it. -/
def ixgbeWfsGetBertSkb (core : RapsCore) (fib : Fib) (key : FibKey) (wfsid : WfsId)
    (data : List UInt8) (csum : UInt16) (buf : Skb) : Except Fault Skb := do
  let pkt ← getWfsBertPkt core fib key wfsid buf
  let opts := putLe16 pkt.opts 15 (UInt16.ofNat data.length)
  let opts := putLe16 opts 17 csum
  let o := pkt.len.toNat - wfspktHdrSize
  pure { pkt with
    opts := fun i => if o ≤ i then data[i - o]?.getD (opts i) else opts i
    skbLen := pkt.skbLen + data.length }

/-- What `ixgbe_wfs_send_bert` writes for each frame. -/
def setBertSend (pkt : Skb) (type : UInt8) (seqno : UInt32) (ts : UInt64) : Skb :=
  { pkt with opts := setByte (putLe64 (putLe32 pkt.opts 3 seqno) 7 ts) 2 type }

/-- The request of a RAPS frame, `wfspkt_set_raps_nr` or `wfspkt_set_raps_sf`. -/
inductive RapsRequest where
  | nr
  | sf
deriving DecidableEq, Repr

def RapsRequest.byte : RapsRequest → UInt8
  | .nr => wfsoptRapsReqNR
  | .sf => wfsoptRapsReqSF

inductive ControlKind where
  | announce (adapter : Port) (port : UInt8)
  | raps (request : RapsRequest)
  | bert (wfsid : WfsId) (data : List UInt8) (csum : UInt16) (type : UInt8) (seqno : UInt32)
      (ts : UInt64)

/-- The frame `ixgbe_wfs_send_announce`, `ixgbe_wfs_send_raps` or `ixgbe_wfs_send_bert`
    builds in the new buffer `buf`. -/
def controlFrame (core : RapsCore) (fib : Fib) (key : FibKey) (buf : Skb) :
    ControlKind → Except Fault Skb
  | .announce .primary port =>
    return wfspktSetAnnouncePrimary (← getWfsAncePkt core fib key buf) 0 port
  | .announce .secondary port =>
    return wfspktSetAnnounceSecondary (← getWfsAncePkt core fib key buf) 0 port
  | .raps request => return setRapsRequest (← getWfsRapsPkt core fib key buf) 0 request.byte
  | .bert wfsid data csum type seqno ts =>
    return setBertSend (← ixgbeWfsGetBertSkb core fib key wfsid data csum buf) type seqno ts

/-- The status byte of a RAPS frame, `opt->val.raps.status`, in the buffer the frame is built
    in: offset 21 of the frame. -/
def Skb.rapsStatus (buf : Skb) : UInt8 := buf.opts 3

def ControlKind.isRaps : ControlKind → Prop
  | .raps _ => True
  | _ => False

/-- The two outcomes are the same fault, or frames with the same header and options. -/
def SameControlBytes : Except Fault Skb → Except Fault Skb → Prop
  | .ok p, .ok q => p.len = q.len ∧ ∀ i < p.len.toNat, p.bytes i = q.bytes i
  | .error e, .error e' => e = e'
  | _, _ => False

/-- The receiver reads the frame as a RAPS message without flag for the request. -/
def DecodesAs (request : RapsRequest) : Except Fault Skb → Prop
  | .ok p => ∃ o, wfspktGetopt p wfsoptRaps = .ok (some o) ∧
      rapsAt p.opts o = { request := request.byte, flush := false, dnf := false }
  | .error _ => False

/-- What the sender builds does not depend on which of the two buffers it gets, and if it is
    a RAPS frame it decodes as what was requested. -/
def ControlBytesDetermined (core : RapsCore) (fib : Fib) (key : FibKey) (kind : ControlKind)
    (buf buf' : Skb) : Prop :=
  SameControlBytes (controlFrame core fib key buf kind) (controlFrame core fib key buf' kind) ∧
    ∀ request, kind = .raps request →
      DecodesAs request (controlFrame core fib key buf kind) ∧
      DecodesAs request (controlFrame core fib key buf' kind)

/-! ## What a builder leaves of its buffer -/

/-- The header of `p` in front of what `buf` holds. -/
def Skb.over (p buf : Skb) : Skb :=
  { p with opts := buf.opts, skbLen := buf.skbLen, vlanTci := buf.vlanTci }

theorem Skb.bytes_over (p buf : Skb) {i : Nat} (h : i < 18) : (p.over buf).bytes i = p.bytes i := by
  simp only [bytes, Skb.over]
  split_ifs <;> first | omega | rfl

/-- The frames have one header, of length `n`, and their options agree on `S`. -/
structure AlikeOn (n : UInt8) (S : Set Nat) (p q : Skb) : Prop where
  header : q.over p = p
  len : p.len = n
  opts : Set.EqOn p.opts q.opts S

inductive Alike (n : UInt8) (S : Set Nat) : Except Fault Skb → Except Fault Skb → Prop
  | error (e : Fault) : Alike n S (.error e) (.error e)
  | ok {p q : Skb} : AlikeOn n S p q → Alike n S (.ok p) (.ok q)

variable {n : UInt8} {S : Set Nat}

theorem Alike.bind {m : UInt8} {S' : Set Nat} {x y : Except Fault Skb}
    {f g : Skb → Except Fault Skb} (h : Alike n S x y)
    (hfg : ∀ p q, AlikeOn n S p q → Alike m S' (f p) (g q)) : Alike m S' (x >>= f) (y >>= g) := by
  cases h with
  | error e => exact .error e
  | ok hpq => exact hfg _ _ hpq

theorem AlikeOn.len' {p q : Skb} (h : AlikeOn n S p q) : q.len = n := by
  have hp := congrArg Skb.len h.header
  exact hp.trans h.len

theorem AlikeOn.setOpts {S' : Set Nat} {p q : Skb} (h : AlikeOn n S p q) {f g : Nat → UInt8}
    (k l : Nat) (hfg : Set.EqOn f g S') :
    AlikeOn n S' { p with opts := f, skbLen := k } { q with opts := g, skbLen := l } := by
  refine ⟨?_, h.len, hfg⟩
  have hp := h.header
  obtain ⟨⟩ := p
  simp only [Skb.over, Skb.mk.injEq] at hp ⊢
  tauto

theorem AlikeOn.bytes {p q : Skb} (h : AlikeOn n { i | 18 + i < n.toNat } p q) {i : Nat}
    (hi : i < n.toNat) : p.bytes i = q.bytes i := by
  by_cases hopt : i < 18
  · rw [← h.header, Skb.bytes_over q p hopt]
  · have hmem : i - 18 ∈ { j | 18 + j < n.toNat } := by
      change 18 + (i - 18) < n.toNat
      omega
    rw [p.bytes_opts (by omega), q.bytes_opts (by omega), h.opts hmem]

/-! ### Bytes that are written -/

theorem eqOn_setByte {b b' : Nat → UInt8} (h : Set.EqOn b b' S) (i : Nat) (v : UInt8) :
    Set.EqOn (setByte b i v) (setByte b' i v) (insert i S) := by
  intro j hj
  rw [setByte_apply, setByte_apply]
  split
  · rfl
  · next hne => exact h (hj.resolve_left hne)

theorem eqOn_putLe16 {b b' : Nat → UInt8} (h : Set.EqOn b b' S) (i : Nat) (v : UInt16) :
    Set.EqOn (putLe16 b i v) (putLe16 b' i v) (insert (i + 1) (insert i S)) :=
  eqOn_setByte (eqOn_setByte h _ _) _ _

theorem eqOn_putLe32 {b b' : Nat → UInt8} (h : Set.EqOn b b' S) (i : Nat) (v : UInt32) :
    Set.EqOn (putLe32 b i v) (putLe32 b' i v) (S ∪ { j | i ≤ j ∧ j < i + 4 }) := by
  refine (eqOn_putLe16 (eqOn_putLe16 h _ _) _ _).mono ?_
  rintro j (hj | ⟨h1, h2⟩)
  · exact .inr (.inr (.inr (.inr hj)))
  · simp only [Set.mem_insert_iff]
    omega

theorem eqOn_putLe64 {b b' : Nat → UInt8} (h : Set.EqOn b b' S) (i : Nat) (v : UInt64) :
    Set.EqOn (putLe64 b i v) (putLe64 b' i v) (S ∪ { j | i ≤ j ∧ j < i + 8 }) := by
  refine (eqOn_putLe32 (eqOn_putLe32 h _ _) _ _).mono ?_
  rintro j (hj | ⟨h1, h2⟩)
  · exact .inl (.inl hj)
  · by_cases hlow : j < i + 4
    · exact .inl (.inr ⟨h1, hlow⟩)
    · exact .inr ⟨by omega, by omega⟩

theorem eqOn_putBe32 {b b' : Nat → UInt8} (h : Set.EqOn b b' S) (i : Nat) (v : UInt32) :
    Set.EqOn (putBe32 b i v) (putBe32 b' i v) (S ∪ { j | i ≤ j ∧ j < i + 4 }) := by
  refine (eqOn_setByte (eqOn_setByte (eqOn_setByte (eqOn_setByte h _ _) _ _) _ _) _ _).mono ?_
  rintro j (hj | ⟨h1, h2⟩)
  · exact .inr (.inr (.inr (.inr hj)))
  · simp only [Set.mem_insert_iff]
    omega

theorem eqOn_putMac {b b' : Nat → UInt8} (h : Set.EqOn b b' S) (i : Nat) (mac : Mac) :
    Set.EqOn (putMac b i mac) (putMac b' i mac) (S ∪ { j | i ≤ j ∧ j < i + 6 }) := by
  intro j hj
  simp only [putMac]
  split
  · rfl
  · next hout => exact h (hj.resolve_right hout)

theorem uint8_or_and (a b c : UInt8) : (a ||| b) &&& c = (a &&& c) ||| (b &&& c) :=
  UInt8.toBitVec_inj.mp BitVec.and_or_distrib_right

theorem channelByte_eq (b pri sec : UInt8) :
    ((((b &&& 0xFE) ||| pri) &&& 0xFD) ||| (sec <<< (1 : UInt8))) &&& 0x03 =
      ((pri &&& 0xFD) ||| (sec <<< (1 : UInt8))) &&& 0x03 := by
  have hb : b &&& 0xFE &&& 0xFD &&& 0x03 = 0 := by
    rw [UInt8.and_assoc, UInt8.and_assoc]
    exact UInt8.and_zero
  rw [uint8_or_and (b &&& 0xFE), uint8_or_and, uint8_or_and, hb, UInt8.zero_or, ← uint8_or_and]

theorem AlikeOn.setAnnounceChannel {p q : Skb} (h : AlikeOn n S p q) (o : Nat)
    (pri sec port : UInt8) :
    AlikeOn n (insert (o + 12) S) (setAnnounceChannel p o pri sec port)
      (setAnnounceChannel q o pri sec port) := by
  refine h.setOpts p.skbLen q.skbLen ?_
  rw [channelByte_eq (p.opts (o + 12)), channelByte_eq (q.opts (o + 12))]
  exact eqOn_setByte h.opts _ _

/-! ### The builders -/

variable (core : RapsCore) (fib : Fib) (key : FibKey) (request : RapsRequest)

theorem wfspktInit_alike (type : UInt8) (vid : UInt16) (mac : Mac) (buf buf' : Skb) :
    Alike 18 {0} (wfspktInit core fib key buf type vid mac)
      (wfspktInit core fib key buf' type vid mac) := by
  have hopts : Set.EqOn (setByte buf.opts 0 wfsoptEnd) (setByte buf'.opts 0 wfsoptEnd) {0} := by
    rintro j rfl
    rw [setByte_apply, setByte_apply, if_pos rfl, if_pos rfl]
  unfold wfspktInit
  dsimp only
  generalize (if mac.isGroup then type ||| wfspktTypeBroadcastMask else type) = type
  generalize (if type &&& wfspktTypeBroadcastMask ≠ 0 then wfsidAll
    else fib.ixgbeWfsFibLookup key vid mac) = dest
  by_cases hall : dest = wfsidAll
  · simp only [hall, if_true]
    exact .ok ⟨rfl, rfl, hopts⟩
  · simp only [hall, if_false]
    cases WfsId.ofByte? dest with
    | none => exact .error .tableIndex
    | some id => exact .ok ⟨rfl, rfl, hopts⟩

theorem AlikeOn.appendOpt {S' : Set Nat} {p q : Skb} (h : AlikeOn 18 S p q) (optType : UInt8)
    {optLen : UInt8} (hopt : optLen ≤ 46) (clear : Nat)
    {fill : (Nat → UInt8) → Nat → Nat → UInt8}
    (hfill : ∀ b b', Set.EqOn b b' { i | i < clear ∨ i < 2 } → Set.EqOn (fill b 0) (fill b' 0) S') :
    Alike (18 + optLen) S' (appendOpt p optType optLen clear fill)
      (appendOpt q optType optLen clear fill) := by
  rw [appendOpt_eq h.len optType hopt, appendOpt_eq h.len' optType hopt]
  have hzero : Set.EqOn (fun i => if i < clear then 0 else p.opts i)
      (fun i => if i < clear then 0 else q.opts i) { i | i < clear } := by
    intro i hi
    simp only [if_pos (show i < clear from hi)]
  have hhead := hfill _ _ ((eqOn_setByte (eqOn_setByte hzero 0 optType) 1 optLen).mono (by
    rintro i (hi | hi)
    · exact .inr (.inr hi)
    · simp only [Set.mem_insert_iff]
      omega))
  refine .ok ⟨?_, rfl, ?_⟩
  · have hp := h.header
    obtain ⟨⟩ := p
    simp only [Skb.over, Skb.mk.injEq] at hp ⊢
    tauto
  · exact (eqOn_setByte hhead _ _).mono (Set.subset_insert _ _)

theorem getWfsAncePkt_alike (buf buf' : Skb) :
    Alike 31 { i | i < 12 } (getWfsAncePkt core fib key buf) (getWfsAncePkt core fib key buf') := by
  refine (wfspktInit_alike core fib key _ _ _ buf buf').bind fun p q hpq => ?_
  refine (hpq.appendOpt _ (by decide) 11 fun b b' hb => ?_).bind
    fun p q hpq => .ok (hpq.setOpts _ _ hpq.opts)
  refine (eqOn_putBe32 (eqOn_putMac hb 2 core.macAddr) 8 core.ip).mono ?_
  intro i hi
  change i < 12 at hi
  change ((i < 11 ∨ i < 2) ∨ 2 ≤ i ∧ i < 2 + 6) ∨ 8 ≤ i ∧ i < 8 + 4
  omega

theorem getWfsRapsPkt_alike (buf buf' : Skb) :
    Alike 22 { i | i < 2 } (getWfsRapsPkt core fib key buf) (getWfsRapsPkt core fib key buf') := by
  refine (wfspktInit_alike core fib key _ _ _ buf buf').bind fun p q hpq => ?_
  refine (hpq.appendOpt _ (by decide) 2 fun b b' hb => ?_).bind
    fun p q hpq => .ok (hpq.setOpts _ _ hpq.opts)
  exact hb.mono fun i hi => .inl hi

theorem getWfsBertPkt_alike (wfsid : WfsId) (buf buf' : Skb) :
    Alike 37 { i | i < 17 } (getWfsBertPkt core fib key wfsid buf)
      (getWfsBertPkt core fib key wfsid buf') := by
  refine (wfspktInit_alike core fib key _ _ _ buf buf').bind fun p q hpq => ?_
  refine (hpq.appendOpt _ (by decide) 17 fun b b' hb => ?_).bind
    fun p q hpq => .ok (hpq.setOpts _ _ hpq.opts)
  exact hb.mono fun i hi => .inl hi

theorem ixgbeWfsGetBertSkb_alike (wfsid : WfsId) (data : List UInt8) (csum : UInt16)
    (buf buf' : Skb) :
    Alike 37 { i | i < 19 } (ixgbeWfsGetBertSkb core fib key wfsid data csum buf)
      (ixgbeWfsGetBertSkb core fib key wfsid data csum buf') := by
  refine (getWfsBertPkt_alike core fib key wfsid buf buf').bind fun p q hpq => ?_
  refine .ok (hpq.setOpts _ _ ?_)
  -- the option is complete with the two fields the memset does not reach, the payload follows
  have hoption := eqOn_putLe16 (eqOn_putLe16 hpq.opts 15 (UInt16.ofNat data.length)) 17 csum
  intro i hi
  change i < 19 at hi
  have hp : ¬p.len.toNat - wfspktHdrSize ≤ i := by
    rw [hpq.len]
    exact Nat.not_le.mpr hi
  have hq : ¬q.len.toNat - wfspktHdrSize ≤ i := by
    rw [hpq.len']
    exact Nat.not_le.mpr hi
  simp only [hp, hq, if_false]
  refine hoption ?_
  change i = 17 + 1 ∨ i = 17 ∨ i = 15 + 1 ∨ i = 15 ∨ i < 17
  omega

theorem controlFrame_alike {kind : ControlKind} (hkind : ¬kind.isRaps) (buf buf' : Skb) :
    ∃ n, Alike n { i | 18 + i < n.toNat } (controlFrame core fib key buf kind)
      (controlFrame core fib key buf' kind) := by
  have hchannel : ∀ pri sec port : UInt8, Alike 31 { i | 18 + i < 31 }
      (return setAnnounceChannel (← getWfsAncePkt core fib key buf) 0 pri sec port)
      (return setAnnounceChannel (← getWfsAncePkt core fib key buf') 0 pri sec port) := by
    intro pri sec port
    refine (getWfsAncePkt_alike core fib key buf buf').bind fun p q hpq => ?_
    obtain ⟨hheader, hlen, hopts⟩ := hpq.setAnnounceChannel 0 pri sec port
    refine .ok ⟨hheader, hlen, hopts.mono fun i hi => ?_⟩
    change 18 + i < 31 at hi
    change i = 0 + 12 ∨ i < 12
    omega
  cases kind with
  | announce adapter port => cases adapter <;> exact ⟨31, hchannel _ _ _⟩
  | raps request => exact absurd trivial hkind
  | bert wfsid data csum type seqno ts =>
    refine ⟨37, (ixgbeWfsGetBertSkb_alike core fib key wfsid data csum buf buf').bind
      fun p q hpq => .ok (hpq.setOpts _ _ ?_)⟩
    refine (eqOn_setByte (eqOn_putLe64 (eqOn_putLe32 hpq.opts 3 seqno) 7 ts) 2 type).mono ?_
    intro i hi
    change 18 + i < 37 at hi
    exact .inr (.inl (.inl (show i < 19 by omega)))

theorem SameControlBytes.of_alike {x y : Except Fault Skb}
    (h : Alike n { i | 18 + i < n.toNat } x y) : SameControlBytes x y := by
  cases h with
  | error e => rfl
  | ok hpq => exact ⟨hpq.len.trans hpq.len'.symm, fun i hi => hpq.bytes (hpq.len ▸ hi)⟩

theorem wfspktInit_header {core : RapsCore} {fib : Fib} {key : FibKey} {buf pkt : Skb}
    {type : UInt8} {vid : UInt16} {mac : Mac}
    (h : wfspktInit core fib key buf type vid mac = .ok pkt) :
    pkt.hProto = wfspktEthertype ∧ pkt.src = core.wfsId.byte ∧ pkt.len = 18 ∧
      pkt.type = if mac.isGroup then type ||| wfspktTypeBroadcastMask else type := by
  simp only [wfspktInit] at h
  generalize (if mac.isGroup then type ||| wfspktTypeBroadcastMask else type) = type' at h ⊢
  generalize (if type' &&& wfspktTypeBroadcastMask ≠ 0 then wfsidAll
    else fib.ixgbeWfsFibLookup key vid mac) = dest at h
  split at h
  · cases h
    exact ⟨rfl, rfl, rfl, rfl⟩
  · split at h
    · cases h
      exact ⟨rfl, rfl, rfl, rfl⟩
    · cases h

theorem wfspktInit_broadcast (buf : Skb) (type : UInt8) (vid : UInt16) :
    wfspktInit core fib key buf type vid Mac.broadcast = .ok { buf with
      hDest := Mac.broadcast, hSource := core.macAddr, hProto := wfspktEthertype
      type := type ||| wfspktTypeBroadcastMask, dest := wfsidAll, src := core.wfsId.byte
      len := 18, opts := setByte buf.opts 0 wfsoptEnd } := by
  have hgroup : Mac.broadcast.isGroup := by decide
  have hmask : (type ||| wfspktTypeBroadcastMask) &&& wfspktTypeBroadcastMask ≠ 0 := by
    rw [uint8_or_and, UInt8.and_self]
    exact fun h => absurd (UInt8.or_eq_zero_iff.mp h).2 (by decide)
  unfold wfspktInit
  simp only [if_pos hgroup, if_pos hmask, if_true]
  rfl

theorem rapsFrame_eq (buf : Skb) :
    ∃ p, controlFrame core fib key buf (.raps request) = .ok p ∧ p.len = 22 ∧
      p.opts 0 = wfsoptRaps ∧ p.opts 2 = request.byte ∧ p.opts 3 = buf.rapsStatus := by
  simp only [controlFrame, getWfsRapsPkt, wfspktInit_broadcast, wfspktSetRaps, bind, Except.bind]
  rw [appendOpt_eq rfl _ (by decide)]
  exact ⟨_, rfl, rfl, rfl, rfl, rfl⟩

theorem rapsFrame_same_iff (buf buf' : Skb) :
    SameControlBytes (controlFrame core fib key buf (.raps request))
      (controlFrame core fib key buf' (.raps request)) ↔ buf.rapsStatus = buf'.rapsStatus := by
  have hrest : Alike 22 { i | i < 3 } (controlFrame core fib key buf (.raps request))
      (controlFrame core fib key buf' (.raps request)) := by
    refine (getWfsRapsPkt_alike core fib key buf buf').bind fun p q hpq =>
      .ok (hpq.setOpts _ _ ((eqOn_setByte hpq.opts 2 request.byte).mono ?_))
    intro i hi
    change i < 3 at hi
    change i = 2 ∨ i < 2
    omega
  obtain ⟨p, hp, hlen, -, -, hstatus⟩ := rapsFrame_eq core fib key request buf
  obtain ⟨q, hq, -, -, -, hstatus'⟩ := rapsFrame_eq core fib key request buf'
  rw [hp, hq] at hrest ⊢
  rw [← hstatus, ← hstatus']
  constructor
  · rintro ⟨-, hbytes⟩
    have h := hbytes 21 (by rw [hlen]; decide)
    rwa [p.bytes_opts (by decide), q.bytes_opts (by decide)] at h
  · intro heq
    cases hrest with
    | ok hpq =>
      refine .of_alike (.ok ⟨hpq.header, hpq.len, fun i hi => ?_⟩)
      change 18 + i < 22 at hi
      by_cases hlow : i < 3
      · exact hpq.opts hlow
      · obtain rfl : i = 3 := by omega
        exact heq

theorem rapsFrame_decodes_iff (buf : Skb) :
    DecodesAs request (controlFrame core fib key buf (.raps request)) ↔
      buf.rapsStatus &&& 3 = 0 := by
  obtain ⟨p, hp, hlen, htype, hrequest, hstatus⟩ := rapsFrame_eq core fib key request buf
  have hopt : wfspktGetopt p wfsoptRaps = .ok (some 0) := by
    simp only [wfspktGetopt, hlen]
    rw [show (22 : UInt8).toNat - wfspktHdrSize = 3 + 1 from rfl, getoptLoop, if_neg (by decide),
      if_pos htype]
  have hbits : buf.rapsStatus &&& 3 = 0 ↔ buf.rapsStatus &&& 1 = 0 ∧ buf.rapsStatus &&& 2 = 0 := by
    rw [← UInt8.or_eq_zero_iff, UInt8.and_comm _ 1, UInt8.and_comm _ 2, ← uint8_or_and,
      UInt8.and_comm]
    rfl
  rw [hp, hbits]
  simp only [DecodesAs, hopt, Except.ok.injEq, Option.some.injEq, exists_eq_left', rapsAt,
    hrequest, hstatus, WfsoptRaps.mk.injEq, true_and, decide_eq_false_iff_not, not_not]

theorem sendRapsOn_eq {π : Type} (iwa : Iwa π) (request : RapsRequest) (buf : Skb) (ring : Bool)
    {adapter : Port} (hlink : iwa.link adapter = true) :
    sendRapsOn iwa fib key (fun _ => request.byte) (some buf) ring adapter =
      (controlFrame iwa.core fib key buf (.raps request)).map
        (ixgbeXmitWfsFrame iwa ring adapter) := by
  simp only [sendRapsOn, hlink, Bool.not_true, Bool.false_eq_true, if_false, controlFrame,
    getWfsRapsPkt]
  cases wfspktInit iwa.core fib key buf wfspktTypeCtrlRaps 0 Mac.broadcast with
  | error e => rfl
  | ok pkt =>
    simp only [bind, Except.bind]
    cases wfspktSetRaps pkt <;> rfl

/-- **Control frames.** The frame is the same from any two buffers, and a RAPS frame decodes
    as what was requested, unless the frame is a RAPS frame and the buffers differ in its
    status byte or hold one with a flag. -/
theorem controlFrame_determined_iff (kind : ControlKind) (buf buf' : Skb) :
    ControlBytesDetermined core fib key kind buf buf' ↔
      (kind.isRaps → buf.rapsStatus = buf'.rapsStatus ∧ buf.rapsStatus &&& 3 = 0) := by
  unfold ControlBytesDetermined
  by_cases hkind : kind.isRaps
  · match kind, hkind with
    | .raps request, _ =>
      simp only [rapsFrame_same_iff, ControlKind.raps.injEq, forall_eq', rapsFrame_decodes_iff,
        ControlKind.isRaps, forall_const]
      constructor
      · exact fun h => ⟨h.1, h.2.1⟩
      · exact fun h => ⟨h.1, h.2, h.1 ▸ h.2⟩
  · obtain ⟨n, halike⟩ := controlFrame_alike core fib key hkind buf buf'
    refine iff_of_true ⟨.of_alike halike, ?_⟩ fun h => absurd h hkind
    rintro request rfl
    exact absurd trivial hkind

/-- Memory of a freed frame in which every byte is `b`. -/
def usedBuffer (b : UInt8) : Skb :=
  { hDest := Mac.broadcast, hSource := Mac.broadcast, hProto := 0, type := b, dest := b, src := b
    len := b, opts := fun _ => b, skbLen := 0, vlanTci := 0 }

/-- The RAPS message of station 1 says flush and do not forward if the buffer had all bits
    set, and is not the one built in zeroed memory. -/
theorem controlFrame_stale_status :
    ¬ControlBytesDetermined stationOne.core {} ⟨0, Mac.broadcast⟩ (.raps .sf) (usedBuffer 0xFF)
      (usedBuffer 0) := by
  rintro ⟨hsame, -⟩
  have hstatus := (rapsFrame_same_iff _ _ _ .sf (usedBuffer 0xFF) (usedBuffer 0)).mp hsame
  exact absurd hstatus (by decide)

end VmkDrivers.Wfs
