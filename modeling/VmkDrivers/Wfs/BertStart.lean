/-
  VmkDrivers.Wfs.BertStart

  The requests of the user for a bit error rate test (`WFSCTL_SET_BERT_CFG`,
  `WFSCTL_GET_BERT_STATS`).

  The driver takes size, responder and bandwidth as the user gives them.  It
  rounds the size up in 32 bits, fills the end of a buffer of that size, keeps
  the size in 16 bits and divides by it, and uses the responder as an index.
  `ioctl_survives_iff` says which requests it survives.

  A start that fails for want of the frame has written the size and the checksum
  of the new payload into the entry, and lost the buffer
  (`refused_unchanged_iff`).
-/

import VmkDrivers.Wfs.BertAddress
import VmkDrivers.Wfs.FibNames

namespace VmkDrivers.Wfs

open VmkDrivers.Lib Requester

/-! ## Requests -/

structure WfsctlBertCfg where
  onoff : UInt8
  wfsid : UInt8
  pktPatternFlag : UInt8 := 0
  pktPattern : UInt8 := 0
  pktSize : UInt32
  bandwidth : UInt32
deriving DecidableEq, Repr

/-- `wfsctl_bert_stats`, with the counters as the entry has them. -/
structure WfsctlBertStats where
  wfsid : UInt8
  interval : UInt32
  stats : WfsBertStats
deriving DecidableEq, Repr

inductive BertFault where
  | driver (fault : Fault)
  | divByZero
  /-- Bytes outside of the allocated buffer are written. -/
  | outOfBuffer
deriving DecidableEq, Repr

/-- What `ixgbe_wfs_bert_start_request` takes from the outside: the outcomes of the two
    allocations, `none` that there is no `sk_buff`, the random bytes, and the local key of the
    forwarding table's lookup. -/
structure StartInputs where
  kmalloc : Bool := true
  buf : Option Skb
  random : Nat → UInt8 := fun _ => 0
  key : FibKey

/-- A requester with the rest of `bert_ctrl`, and the sizes of the buffers from `kmalloc` that
    were not given back. -/
structure BertDriver (π : Type) where
  requester : Requester π
  responder : UInt8 := 0
  burst : UInt64 := 0
  buffers : List Int := []

/-- `ALIGN(pkt_size, 8)`, kept in an `int`. -/
def alignedSize (pktSize : UInt32) : Int := ((pktSize + 7) &&& ~~~7).toInt32.toInt

/-- The bytes of a buffer of `kmalloc`, whose argument is a `size_t`. -/
def bufferLen (size : Int) : Int := size % 2 ^ 64

/-- `memset` or `get_random_bytes` of `n` bytes from the offset `o` on, in a buffer of `len`
    bytes. -/
def fillBuffer (len o : Int) (n : Nat) : Except BertFault Unit :=
  if n = 0 ∨ 0 ≤ o ∧ o + n ≤ len then .ok () else .error .outOfBuffer

def WfsctlBertCfg.payload (cfg : WfsctlBertCfg) (random : Nat → UInt8) : List UInt8 :=
  if cfg.pktPatternFlag = 0 then List.replicate cfg.pktSize.toNat cfg.pktPattern
  else (List.range cfg.pktSize.toNat).map random

/-- `MAX(bandwidth/pkt_size, 1)`. -/
def testBurst (cfg : WfsctlBertCfg) : Except BertFault UInt64 :=
  if cfg.pktSize = 0 then .error .divByZero
  else .ok (if cfg.bandwidth / cfg.pktSize > 1 then (cfg.bandwidth / cfg.pktSize).toUInt64 else 1)

section Functions

variable {π : Type}

def bertSkbFor (requester : Requester π) (key : FibKey) (wfsid : UInt8) (data : List UInt8)
    (csum : UInt16) (buf : Skb) : Except BertFault Skb :=
  match WfsId.ofByte? wfsid with
  | none => .error (.driver .tableIndex)
  | some wfsid =>
    (ixgbeWfsGetBertSkb requester.station.iwa.core requester.station.fib key wfsid data csum
      buf).mapError .driver

namespace BertDriver

/-- `kmalloc` of `size` bytes that does not fail.  For no bytes it is `ZERO_SIZE_PTR`. -/
def kmalloc (d : BertDriver π) (size : Int) : BertDriver π :=
  if size = 0 then d else { d with buffers := size :: d.buffers }

/-- `kfree` of the buffer allocated last. -/
def kfree (d : BertDriver π) (size : Int) : BertDriver π :=
  if size = 0 then d else { d with buffers := d.buffers.tail }

/-- `ixgbe_wfs_bert_start_request` and its return value. -/
def ixgbeWfsBertStartRequest (ipComputeCsum : List UInt8 → UInt16) (inp : StartInputs)
    (cfg : WfsctlBertCfg) (d : BertDriver π) : Except BertFault (BertDriver π × Int) :=
  if d.requester.on then .ok (d, 1)
  else
    let size := alignedSize cfg.pktSize
    if size ≠ 0 ∧ inp.kmalloc = false then .ok (d, -1)
    else do
      let d := d.kmalloc size
      fillBuffer (bufferLen size) (size - cfg.pktSize.toNat) cfg.pktSize.toNat
      let dataLen := cfg.pktSize.toUInt16
      let data := (cfg.payload inp.random).take dataLen.toNat
      let dataCsum := ixgbeWfsGetBertCsum ipComputeCsum data
      let own := { d.requester.cfg with dataLen, dataCsum }
      match inp.buf with
      -- without an `sk_buff` the buffer is not freed
      | none => pure ({ d with requester := { d.requester.setCfg own with skb := none } }, -1)
      | some buf => do
        let skb ← bertSkbFor d.requester inp.key cfg.wfsid data dataCsum buf
        let own := { own with seqno := 0, jfs := 0, jfsLast := 0, stats := {}, on := true }
        let d := d.kfree size
        let burst ← testBurst cfg
        pure ({ d with
          requester := { d.requester.setCfg own with skb := some skb, bertSeqno := 0, on := true }
          responder := cfg.wfsid, burst }, 0)

def ixgbeWfsBertStopRequest (d : BertDriver π) : BertDriver π :=
  let own := { d.requester.cfg with on := false, dataLen := 0, dataCsum := 0 }
  { d with requester := { d.requester.setCfg own with on := false, skb := none } }

/-- `get_bert_stats`; `jiffiesToMsecs` is `jiffies_to_msecs`. -/
def getBertStats (jiffiesToMsecs : UInt64 → UInt32) (wfsid : UInt8) (d : BertDriver π) :
    Except BertFault WfsctlBertStats :=
  let wfsid := if wfsid = 0 then d.requester.station.iwa.core.wfsId.byte else wfsid
  match WfsId.ofByte? wfsid with
  | none => .error (.driver .tableIndex)
  | some id =>
    let cfg := d.requester.station.wfsbert id
    .ok { wfsid, interval := jiffiesToMsecs (cfg.jfsLast - cfg.jfs) / 1000, stats := cfg.stats }

end BertDriver

/-- The two requests of `ixgbe_wfs_ioctl` with what the user passes. -/
inductive BertIoctl where
  | setBertCfg (inp : StartInputs) (cfg : WfsctlBertCfg)
  | getBertStats (jiffiesToMsecs : UInt64 → UInt32) (wfsid : UInt8)

/-- `ixgbe_wfs_ioctl`: the driver afterwards and what is copied to the user. -/
def ixgbeWfsIoctl (ipComputeCsum : List UInt8 → UInt16) (io : BertIoctl) (d : BertDriver π) :
    Except BertFault (BertDriver π × Option WfsctlBertStats) :=
  match io with
  | .setBertCfg inp cfg =>
    if cfg.onoff ≠ 0 then do
      let (d, _) ← d.ixgbeWfsBertStartRequest ipComputeCsum inp cfg
      pure (d, none)
    else .ok (d.ixgbeWfsBertStopRequest, none)
  | .getBertStats jiffiesToMsecs wfsid => do
    let stats ← d.getBertStats jiffiesToMsecs wfsid
    pure (d, some stats)

end Functions

/-! ## Sizes -/

theorem and_add_and_not (x m : UInt32) : (x &&& m) + (x &&& ~~~m) = x := by
  apply UInt32.toBitVec_inj.mp
  simp only [UInt32.toBitVec_add, UInt32.toBitVec_and, UInt32.toBitVec_not]
  rw [BitVec.add_eq_or_of_and_eq_zero]
  · rw [← BitVec.and_or_distrib_left, BitVec.or_not_self, BitVec.and_allOnes]
  · ext i hi
    simp only [BitVec.getElem_and, BitVec.getElem_not, BitVec.getElem_zero]
    cases m.toBitVec[i] <;> simp

theorem toNat_and_not_seven (x : UInt32) : (x &&& ~~~7).toNat = x.toNat / 8 * 8 := by
  have hmod : (x &&& 7).toNat = x.toNat % 8 := by
    rw [UInt32.toNat_and]
    exact Nat.and_two_pow_sub_one_eq_mod x.toNat 3
  have hsum := congrArg UInt32.toNat (and_add_and_not x 7)
  rw [UInt32.toNat_add, hmod] at hsum
  have hle : (x &&& ~~~7).toNat ≤ x.toNat := by
    rw [UInt32.toNat_and]
    exact Nat.and_le_left
  have hx := x.toNat_lt
  omega

theorem toInt_toInt32 (x : UInt32) :
    x.toInt32.toInt = if x.toNat < 2 ^ 31 then (x.toNat : Int) else x.toNat - 2 ^ 32 := by
  change x.toBitVec.toInt = _
  rw [BitVec.toInt]
  change (if 2 * x.toNat < 2 ^ 32 then (x.toNat : Int) else x.toNat - 2 ^ 32) = _
  split_ifs <;> omega

variable (n : UInt32)

theorem alignedSize_eq : alignedSize n =
    if n.toNat ≤ 2 ^ 31 - 8 then ((n.toNat + 7) / 8 * 8 : Int)
    else if n.toNat ≤ 2 ^ 32 - 8 then (n.toNat + 7) / 8 * 8 - 2 ^ 32 else 0 := by
  have hn := n.toNat_lt
  unfold alignedSize
  rw [toInt_toInt32, toNat_and_not_seven, UInt32.toNat_add, show (7 : UInt32).toNat = 7 from rfl]
  split_ifs <;> omega

theorem fillBuffer_aligned :
    fillBuffer (bufferLen (alignedSize n)) (alignedSize n - n.toNat) n.toNat =
      if n.toNat ≤ 2 ^ 31 - 8 then .ok () else .error .outOfBuffer := by
  have hn := n.toNat_lt
  unfold fillBuffer bufferLen
  rw [alignedSize_eq]
  by_cases hlow : n.toNat ≤ 2 ^ 31 - 8
  · rw [if_pos hlow, if_pos hlow, if_pos (by omega)]
  · rw [if_neg hlow, if_neg hlow]
    -- the buffer is too small, or there is none
    have hout : ¬(0 ≤ (if n.toNat ≤ 2 ^ 32 - 8 then ((n.toNat : Int) + 7) / 8 * 8 - 2 ^ 32 else 0) -
        (n.toNat : Int)) := by
      split_ifs <;> omega
    rw [if_neg (by omega)]

theorem toNat_size16 : n.toUInt16.toNat = n.toNat ↔ n.toNat < 2 ^ 16 := by
  rw [UInt32.toNat_toUInt16]
  omega

theorem testBurst_pos {cfg : WfsctlBertCfg} (h : cfg.pktSize ≠ 0) :
    ∃ burst, testBurst cfg = .ok burst ∧ 1 ≤ burst := by
  unfold testBurst
  rw [if_neg h]
  refine ⟨_, rfl, ?_⟩
  split
  · next hgt =>
    rw [UInt64.le_iff_toNat_le, UInt32.toNat_toUInt64]
    have hlt := UInt32.lt_iff_toNat_lt.mp hgt
    exact Nat.le_of_lt hlt
  · exact UInt64.le_refl 1

/-! ## The frame -/

section Frame

variable {π : Type} {requester : Requester π}

theorem wfspktInit_bert_ok {core : RapsCore} {fib : Fib} {key : FibKey} {w : WfsId}
    (hok : Fib.FibOk fib) (hstations : ∀ b, fib.content key = some b → ∃ id, WfsId.byte id = b)
    (buf : Skb) :
    ∃ p, wfspktInit core fib key buf wfspktTypeCtrlBert 0 (core.peer w).mac = .ok p := by
  unfold wfspktInit
  dsimp only
  rw [wfspktInit_bert_dest hok, ← bertDest]
  by_cases hall : bertDest core fib key w = wfsidAll
  · rw [if_pos hall]
    exact ⟨_, rfl⟩
  · rw [if_neg hall]
    obtain ⟨id, hid⟩ : ∃ id, WfsId.byte id = bertDest core fib key w := by
      unfold bertDest Fib.result at hall ⊢
      by_cases hgroup : (core.peer w).mac.isGroup
      · exact absurd (if_pos hgroup) hall
      · rw [if_neg hgroup] at hall ⊢
        cases hcontent : fib.content key with
        | none =>
          rw [hcontent] at hall
          exact absurd rfl hall
        | some b => exact hstations b hcontent
    rw [← hid, WfsId.ofByte?_byte]
    exact ⟨_, rfl⟩

theorem bertSkbFor_cases (rb : Balancer Nat) {kmalloc : Nat → Bool} {fibOps : List FibOp}
    (hinit : (Fib.ixgbeWfsFibInit kmalloc).2 = true)
    (hfib : Run (FibStep rb) (Fib.ixgbeWfsFibInit kmalloc).1 fibOps requester.station.fib)
    (key : FibKey) (wfsid : UInt8) (data : List UInt8) (csum : UInt16) (buf : Skb) :
    (Fib.ValidWfsid wfsid ∧ ∃ skb, bertSkbFor requester key wfsid data csum buf = .ok skb) ∨
      (¬Fib.ValidWfsid wfsid ∧
        bertSkbFor requester key wfsid data csum buf = .error (.driver .tableIndex)) := by
  by_cases hvalid : Fib.ValidWfsid wfsid
  · obtain ⟨w, rfl⟩ := validWfsid_iff.mp hvalid
    obtain ⟨p, hp⟩ := wfspktInit_bert_ok (w := w)
      (Fib.fibOk_of_run rb hinit hfib) (fun b hb => station_of_run hinit hfib hb) buf
    obtain ⟨skb, hskb, -⟩ := getBertSkb_of_init hp
    refine .inl ⟨hvalid, skb, ?_⟩
    unfold bertSkbFor
    rw [WfsId.ofByte?_byte]
    dsimp only
    rw [hskb]
    rfl
  · refine .inr ⟨hvalid, ?_⟩
    have hnone : WfsId.ofByte? wfsid = none := by
      rw [Option.eq_none_iff_forall_ne_some]
      intro id hid
      exact hvalid (validWfsid_iff.mpr ⟨id, WfsId.ofByte?_eq_some_iff.mp hid⟩)
    unfold bertSkbFor
    rw [hnone]

end Frame

/-! ## The start of a test -/

theorem Requester.setCfg_cfg {π : Type} (rq : Requester π) : rq.setCfg rq.cfg = rq := by
  unfold setCfg Requester.cfg
  rw [Function.update_eq_self]

namespace BertDriver

section Start

variable {π : Type} {f : List UInt8 → UInt16} {inp : StartInputs} {cfg : WfsctlBertCfg}
  {d : BertDriver π}

def NoBuffer (inp : StartInputs) (cfg : WfsctlBertCfg) : Prop :=
  alignedSize cfg.pktSize ≠ 0 ∧ inp.kmalloc = false

instance (inp : StartInputs) (cfg : WfsctlBertCfg) : Decidable (NoBuffer inp cfg) :=
  inferInstanceAs (Decidable (_ ∧ _))

theorem start_on (hon : d.requester.on = true) :
    d.ixgbeWfsBertStartRequest f inp cfg = .ok (d, 1) :=
  if_pos hon

theorem start_noBuffer (hoff : ¬d.requester.on = true) (hno : NoBuffer inp cfg) :
    d.ixgbeWfsBertStartRequest f inp cfg = .ok (d, -1) := by
  unfold ixgbeWfsBertStartRequest
  rw [if_neg hoff]
  exact if_pos hno

theorem start_overrun (hoff : ¬d.requester.on = true) (hbuffer : ¬NoBuffer inp cfg)
    (hbig : ¬cfg.pktSize.toNat ≤ 2 ^ 31 - 8) :
    d.ixgbeWfsBertStartRequest f inp cfg = .error .outOfBuffer := by
  have hmalloc : ¬(alignedSize cfg.pktSize ≠ 0 ∧ inp.kmalloc = false) := hbuffer
  unfold ixgbeWfsBertStartRequest
  rw [if_neg hoff, if_neg hmalloc, fillBuffer_aligned, if_neg hbig]
  rfl

def startData (inp : StartInputs) (cfg : WfsctlBertCfg) : List UInt8 :=
  (cfg.payload inp.random).take cfg.pktSize.toUInt16.toNat

def startOwn (f : List UInt8 → UInt16) (inp : StartInputs) (cfg : WfsctlBertCfg)
    (d : BertDriver π) : WfsBertCfg :=
  { d.requester.cfg with
    dataLen := cfg.pktSize.toUInt16, dataCsum := ixgbeWfsGetBertCsum f (startData inp cfg) }

theorem startOwn_empty (hzero : cfg.pktSize = 0) (hlen : d.requester.cfg.dataLen = 0)
    (hcsum : d.requester.cfg.dataCsum = 0) : startOwn f inp cfg d = d.requester.cfg := by
  unfold startOwn startData
  rw [hzero]
  change { d.requester.cfg with dataLen := 0, dataCsum := 0 } = _
  generalize d.requester.cfg = own at hlen hcsum ⊢
  cases own
  simp_all only

theorem kmalloc_requester (d : BertDriver π) (size : Int) :
    (d.kmalloc size).requester = d.requester := by
  unfold kmalloc
  split <;> rfl

theorem kfree_kmalloc (d : BertDriver π) (size : Int) : (d.kmalloc size).kfree size = d := by
  unfold kfree kmalloc
  split <;> rfl

theorem start_noFrame (hoff : ¬d.requester.on = true) (hbuffer : ¬NoBuffer inp cfg)
    (hfits : cfg.pktSize.toNat ≤ 2 ^ 31 - 8) (hbuf : inp.buf = none) :
    d.ixgbeWfsBertStartRequest f inp cfg = .ok ({ d.kmalloc (alignedSize cfg.pktSize) with
      requester := { d.requester.setCfg (startOwn f inp cfg d) with skb := none } }, -1) := by
  have hmalloc : ¬(alignedSize cfg.pktSize ≠ 0 ∧ inp.kmalloc = false) := hbuffer
  unfold ixgbeWfsBertStartRequest
  rw [if_neg hoff, if_neg hmalloc, fillBuffer_aligned, if_pos hfits, ok_bind, hbuf]
  simp only [kmalloc_requester]
  rfl

theorem start_frame (hoff : ¬d.requester.on = true) (hbuffer : ¬NoBuffer inp cfg)
    (hfits : cfg.pktSize.toNat ≤ 2 ^ 31 - 8) {buf : Skb} (hbuf : inp.buf = some buf) :
    d.ixgbeWfsBertStartRequest f inp cfg =
      (bertSkbFor d.requester inp.key cfg.wfsid (startData inp cfg)
        (ixgbeWfsGetBertCsum f (startData inp cfg)) buf).bind fun skb =>
          (testBurst cfg).map fun burst =>
            ({ d with
              requester := { d.requester.setCfg { startOwn f inp cfg d with
                seqno := 0, jfs := 0, jfsLast := 0, stats := {}, on := true } with
                  skb := some skb, bertSeqno := 0, on := true }
              responder := cfg.wfsid, burst }, 0) := by
  have hmalloc : ¬(alignedSize cfg.pktSize ≠ 0 ∧ inp.kmalloc = false) := hbuffer
  unfold ixgbeWfsBertStartRequest
  rw [if_neg hoff, if_neg hmalloc, fillBuffer_aligned, if_pos hfits, ok_bind, hbuf, kfree_kmalloc]
  simp only [kmalloc_requester]
  congr 1

/-- What the caller may expect of a start: it returns, and a test that it starts has the size
    it was given and sends something. -/
def StartSurvives (f : List UInt8 → UInt16) (inp : StartInputs) (cfg : WfsctlBertCfg)
    (d : BertDriver π) : Prop :=
  ∃ d' rc, d.ixgbeWfsBertStartRequest f inp cfg = .ok (d', rc) ∧
    (d.requester.on = false → d'.requester.on = true →
      d'.requester.cfg.dataLen.toNat = cfg.pktSize.toNat ∧ 1 ≤ d'.burst)

/-- The start is refused in time, or its size and its responder are in the ranges that the tool
    of the user checks, the size with what 16 bits hold. -/
def StartSafe (inp : StartInputs) (cfg : WfsctlBertCfg) (d : BertDriver π) : Prop :=
  d.requester.on = true ∨ NoBuffer inp cfg ∨
    cfg.pktSize.toNat ≤ 2 ^ 31 - 8 ∧
      (inp.buf = none ∨
        0 < cfg.pktSize.toNat ∧ cfg.pktSize.toNat < 2 ^ 16 ∧ Fib.ValidWfsid cfg.wfsid)

/-- **The start of a test** returns, with the size and the quota right, exactly if it is
    safe. -/
theorem startSurvives_iff (rb : Balancer Nat) {kmalloc : Nat → Bool} {fibOps : List FibOp}
    (hinit : (Fib.ixgbeWfsFibInit kmalloc).2 = true)
    (hfib : Run (FibStep rb) (Fib.ixgbeWfsFibInit kmalloc).1 fibOps d.requester.station.fib) :
    StartSurvives f inp cfg d ↔ StartSafe inp cfg d := by
  by_cases hon : d.requester.on = true
  · refine iff_of_true ⟨d, 1, start_on hon, fun hoff => ?_⟩ (.inl hon)
    rw [hon] at hoff
    cases hoff
  by_cases hbuffer : NoBuffer inp cfg
  · exact iff_of_true ⟨d, -1, start_noBuffer hon hbuffer, fun _ hon' => absurd hon' hon⟩
      (.inr (.inl hbuffer))
  unfold StartSurvives StartSafe
  rw [or_iff_right hon, or_iff_right hbuffer]
  by_cases hfits : cfg.pktSize.toNat ≤ 2 ^ 31 - 8
  · rw [and_iff_right hfits]
    cases hbuf : inp.buf with
    | none =>
      refine iff_of_true ⟨_, _, start_noFrame hon hbuffer hfits hbuf, fun _ hon' => ?_⟩ (.inl rfl)
      exact absurd hon' hon
    | some buf =>
      rw [or_iff_right (Option.some_ne_none buf), start_frame hon hbuffer hfits hbuf]
      rcases bertSkbFor_cases rb hinit hfib inp.key cfg.wfsid (startData inp cfg)
        (ixgbeWfsGetBertCsum f (startData inp cfg)) buf with ⟨hvalid, skb, hskb⟩ | ⟨hvalid, hskb⟩
      · rw [hskb]
        by_cases hzero : cfg.pktSize = 0
        · -- the quota is a quotient by the size
          refine iff_of_false ?_ fun h => ?_
          · rintro ⟨d', rc, h, -⟩
            rw [testBurst, if_pos hzero] at h
            cases h
          · rw [hzero] at h
            exact absurd h.1 (by decide)
        · obtain ⟨burst, hburst, hpos⟩ := testBurst_pos hzero
          rw [hburst]
          have hne : 0 < cfg.pktSize.toNat := by
            rw [Nat.pos_iff_ne_zero]
            exact fun h => hzero (UInt32.toNat_inj.mp h)
          -- what is left is whether the size fits its field of 16 bits
          constructor
          · rintro ⟨d', rc, h, hstarted⟩
            obtain ⟨rfl, -⟩ := Prod.mk.inj (Except.ok.inj h)
            obtain ⟨hsize, -⟩ := hstarted (Bool.eq_false_iff.mpr hon) rfl
            change (Requester.cfg (setCfg _ _)).dataLen.toNat = _ at hsize
            rw [cfg_setCfg] at hsize
            exact ⟨hne, (toNat_size16 _).mp hsize, hvalid⟩
          · rintro ⟨-, hsmall, -⟩
            refine ⟨_, _, rfl, fun _ _ => ⟨?_, hpos⟩⟩
            change (Requester.cfg (setCfg _ _)).dataLen.toNat = _
            rw [cfg_setCfg]
            exact (toNat_size16 _).mpr hsmall
      · -- the responder is an index outside the table
        rw [hskb]
        refine iff_of_false ?_ fun h => hvalid h.2.2
        rintro ⟨d', rc, h, -⟩
        cases h
  · -- the rounded size wraps around, and the buffer is written beyond its end
    refine iff_of_false ?_ fun h => hfits h.1
    rw [start_overrun hon hbuffer hfits]
    rintro ⟨d', rc, h, -⟩
    cases h

end Start

end BertDriver

/-! ## The requests of the user -/

open BertDriver

section Requests

variable {π : Type} {f : List UInt8 → UInt16} {d : BertDriver π}

/-- A request is survived: it returns, and a test that it starts has the size it was given and
    sends something. -/
def BertIoctl.Survived (f : List UInt8 → UInt16) (io : BertIoctl) (d : BertDriver π) : Prop :=
  ∃ r, ixgbeWfsIoctl f io d = .ok r ∧
    ∀ inp cfg, io = .setBertCfg inp cfg → d.requester.on = false → r.1.requester.on = true →
      r.1.requester.cfg.dataLen.toNat = cfg.pktSize.toNat ∧ 1 ≤ r.1.burst

/-- The test is stopped or its start is safe, or the statistics asked for are those of a
    station. -/
def BertIoctl.Safe (d : BertDriver π) : BertIoctl → Prop
  | .setBertCfg inp cfg => cfg.onoff = 0 ∨ BertDriver.StartSafe inp cfg d
  | .getBertStats _ wfsid => wfsid ≤ wfsidMax

theorem getBertStats_ok_iff (jiffiesToMsecs : UInt64 → UInt32) (wfsid : UInt8) :
    (∃ stats, d.getBertStats jiffiesToMsecs wfsid = .ok stats) ↔ wfsid ≤ wfsidMax := by
  unfold BertDriver.getBertStats
  by_cases hown : wfsid = 0
  · subst hown
    dsimp only
    rw [if_pos rfl, WfsId.ofByte?_byte]
    exact iff_of_true ⟨_, rfl⟩ (by decide)
  · dsimp only
    rw [if_neg hown]
    have hmin : wfsidMin ≤ wfsid := by
      rw [UInt8.le_iff_toNat_le]
      have hpos : wfsid.toNat ≠ 0 := fun h => hown (UInt8.toNat_inj.mp h)
      exact Nat.pos_of_ne_zero hpos
    by_cases hmax : wfsid ≤ wfsidMax
    · have hid : WfsId.ofByte? wfsid = some ⟨wfsid.toNat - 1, _⟩ := dif_pos ⟨hmin, hmax⟩
      rw [hid]
      exact iff_of_true ⟨_, rfl⟩ hmax
    · have hid : WfsId.ofByte? wfsid = none := dif_neg fun h => hmax h.2
      rw [hid]
      refine iff_of_false ?_ hmax
      rintro ⟨stats, h⟩
      cases h

/-- **A request is survived** exactly if it is safe. -/
theorem ioctl_survives_iff (rb : Balancer Nat) {kmalloc : Nat → Bool} {fibOps : List FibOp}
    (hinit : (Fib.ixgbeWfsFibInit kmalloc).2 = true)
    (hfib : Run (FibStep rb) (Fib.ixgbeWfsFibInit kmalloc).1 fibOps d.requester.station.fib)
    (io : BertIoctl) : io.Survived f d ↔ io.Safe d := by
  cases io with
  | getBertStats jiffiesToMsecs wfsid =>
    change _ ↔ wfsid ≤ wfsidMax
    rw [← getBertStats_ok_iff (d := d) jiffiesToMsecs wfsid]
    constructor
    · rintro ⟨r, hr, -⟩
      obtain ⟨stats, hstats, -⟩ := bind_eq_ok.mp hr
      exact ⟨stats, hstats⟩
    · rintro ⟨stats, hstats⟩
      refine ⟨(d, some stats), ?_, fun _ _ h => nomatch h⟩
      exact bind_eq_ok.mpr ⟨stats, hstats, rfl⟩
  | setBertCfg inp cfg =>
    change _ ↔ cfg.onoff = 0 ∨ BertDriver.StartSafe inp cfg d
    by_cases hoff : cfg.onoff = 0
    · refine iff_of_true ⟨_, if_neg (not_not.mpr hoff), fun _ _ _ _ hon => ?_⟩ (.inl hoff)
      cases hon
    · rw [or_iff_right hoff, ← startSurvives_iff (f := f) rb hinit hfib]
      have hstart : ixgbeWfsIoctl f (.setBertCfg inp cfg) d = _ := if_pos hoff
      constructor
      · rintro ⟨r, hr, hstarted⟩
        rw [hstart] at hr
        obtain ⟨⟨d', rc⟩, hd', hr⟩ := bind_eq_ok.mp hr
        cases hr
        exact ⟨d', rc, hd', hstarted inp cfg rfl⟩
      · rintro ⟨d', rc, hd', hstarted⟩
        refine ⟨(d', none), hstart.trans (bind_eq_ok.mpr ⟨(d', rc), hd', rfl⟩), ?_⟩
        rintro inp' cfg' heq
        cases heq
        exact hstarted

def testDriver : BertDriver EvBufPool :=
  { requester := { station := { testStation 0 with
      fib := (Fib.ixgbeWfsFibInit fun _ => true).1 } } }

/-- The start of a test of station 2 with `pktSize` bytes, all of them 0. -/
def startOf (buf : Option Skb) (pktSize : UInt32) : BertIoctl :=
  .setBertCfg { buf, key := ⟨0, Vector.replicate 6 0⟩ }
    { onoff := 1, wfsid := 2, pktSize, bandwidth := 0 }

theorem ioctl_survives_emptyPayload :
    (startOf (some (usedBuffer 0)) 0).Survived (fun _ => 0) testDriver ↔
      (startOf (some (usedBuffer 0)) 0).Safe testDriver :=
  ioctl_survives_iff .plain (by decide +kernel) (.nil _) _

/-- The driver divides by a size of 0, writes before the buffer if the size wraps around, and
    reads behind the entries. -/
theorem ioctl_not_survived :
    ¬(startOf (some (usedBuffer 0)) 0).Survived (fun _ => 0) testDriver ∧
      ¬(startOf (some (usedBuffer 0)) 0xFFFFFFFF).Survived (fun _ => 0) testDriver ∧
      ¬(BertIoctl.getBertStats (fun _ => 0) 9).Survived (fun _ => 0) testDriver := by
  have hzero : (match ixgbeWfsIoctl (fun _ => 0) (startOf (some (usedBuffer 0)) 0) testDriver with
      | .ok _ => none
      | .error e => some e) = some .divByZero := by decide +kernel
  have hwrap : (match ixgbeWfsIoctl (fun _ => 0) (startOf (some (usedBuffer 0)) 0xFFFFFFFF)
      testDriver with
      | .ok _ => none
      | .error e => some e) = some .outOfBuffer := by decide +kernel
  have hindex : (match ixgbeWfsIoctl (fun _ => 0) (.getBertStats (fun _ => 0) 9) testDriver with
      | .ok _ => none
      | .error e => some e) = some (.driver .tableIndex) := by decide +kernel
  refine ⟨?_, ?_, ?_⟩
  · rintro ⟨r, hr, -⟩
    rw [hr] at hzero
    cases hzero
  · rintro ⟨r, hr, -⟩
    rw [hr] at hwrap
    cases hwrap
  · rintro ⟨r, hr, -⟩
    rw [hr] at hindex
    cases hindex

/-- **A refused start changes nothing** exactly if a test is running or there is no buffer, or
    there is no frame for an empty payload and the entry has an empty payload already. -/
theorem refused_unchanged_iff {inp : StartInputs} {cfg : WfsctlBertCfg} {d' : BertDriver π}
    {rc : Int} (h : d.ixgbeWfsBertStartRequest f inp cfg = .ok (d', rc)) (hrc : rc ≠ 0) :
    d' = d ↔ d.requester.on = true ∨ BertDriver.NoBuffer inp cfg ∨
      cfg.pktSize = 0 ∧ d.requester.cfg.dataLen = 0 ∧ d.requester.cfg.dataCsum = 0 ∧
        d.requester.skb = none := by
  by_cases hon : d.requester.on = true
  · rw [start_on hon] at h
    obtain ⟨rfl, -⟩ := Prod.mk.inj (Except.ok.inj h)
    exact iff_of_true rfl (.inl hon)
  by_cases hbuffer : BertDriver.NoBuffer inp cfg
  · rw [start_noBuffer hon hbuffer] at h
    obtain ⟨rfl, -⟩ := Prod.mk.inj (Except.ok.inj h)
    exact iff_of_true rfl (.inr (.inl hbuffer))
  rw [or_iff_right hon, or_iff_right hbuffer]
  by_cases hfits : cfg.pktSize.toNat ≤ 2 ^ 31 - 8
  · cases hbuf : inp.buf with
    | some buf =>
      rw [start_frame hon hbuffer hfits hbuf] at h
      obtain ⟨skb, -, h⟩ := bind_eq_ok.mp h
      cases hburst : testBurst cfg with
      | error e =>
        rw [hburst] at h
        cases h
      | ok burst =>
        rw [hburst] at h
        exact absurd (Prod.mk.inj (Except.ok.inj h)).2.symm hrc
    | none =>
      rw [start_noFrame hon hbuffer hfits hbuf] at h
      obtain ⟨rfl, -⟩ := Prod.mk.inj (Except.ok.inj h)
      constructor
      · intro hsame
        -- a buffer would be lost
        have hzero : cfg.pktSize = 0 := by
          have hbuffers := congrArg buffers hsame
          unfold BertDriver.kmalloc at hbuffers
          by_contra hne
          have hsize : alignedSize cfg.pktSize ≠ 0 := by
            have hpos : cfg.pktSize.toNat ≠ 0 := fun h => hne (UInt32.toNat_inj.mp h)
            rw [alignedSize_eq, if_pos hfits]
            omega
          rw [if_neg hsize] at hbuffers
          exact List.cons_ne_self _ _ hbuffers
        have hcfg := congrArg (fun d => d.requester.cfg) hsame
        change Requester.cfg (setCfg _ _) = _ at hcfg
        rw [cfg_setCfg] at hcfg
        have hlen := congrArg WfsBertCfg.dataLen hcfg
        have hcsum := congrArg WfsBertCfg.dataCsum hcfg
        have hskb := congrArg (fun d => d.requester.skb) hsame
        refine ⟨hzero, ?_, ?_, hskb.symm⟩
        · rw [← hlen, startOwn, hzero]
          rfl
        · rw [← hcsum, startOwn, startData, hzero]
          rfl
      · rintro ⟨hzero, hlen, hcsum, hskb⟩
        rw [startOwn_empty hzero hlen hcsum, hzero]
        change { d with requester := { d.requester.setCfg d.requester.cfg with skb := none } } = d
        rw [setCfg_cfg, ← hskb]
  · rw [start_overrun hon hbuffer hfits] at h
    cases h

theorem refused_noFrame :
    ∃ d', testDriver.ixgbeWfsBertStartRequest (fun _ => 0)
        { buf := none, key := ⟨0, Vector.replicate 6 0⟩ }
        { onoff := 1, wfsid := 2, pktSize := 1, bandwidth := 0 } = .ok (d', -1) ∧
      d'.buffers = [8] ∧ d'.requester.cfg.dataLen = 1 := by
  refine ⟨_, start_noFrame (by decide) (by decide) (by decide) rfl, rfl, ?_⟩
  change (Requester.cfg (setCfg _ _)).dataLen = 1
  rw [cfg_setCfg]
  rfl

theorem refused_unchanged_noFrame :
    ∃ d', testDriver.ixgbeWfsBertStartRequest (fun _ => 0)
        { buf := none, key := ⟨0, Vector.replicate 6 0⟩ }
        { onoff := 1, wfsid := 2, pktSize := 1, bandwidth := 0 } = .ok (d', -1) ∧
      (d' = testDriver ↔ testDriver.requester.on = true ∨
        BertDriver.NoBuffer { buf := none, key := ⟨0, Vector.replicate 6 0⟩ }
          { onoff := 1, wfsid := 2, pktSize := 1, bandwidth := 0 } ∨
        (1 : UInt32) = 0 ∧ testDriver.requester.cfg.dataLen = 0 ∧
          testDriver.requester.cfg.dataCsum = 0 ∧ testDriver.requester.skb = none) := by
  obtain ⟨d', hstart, -, -⟩ := refused_noFrame
  exact ⟨d', hstart, refused_unchanged_iff hstart (by decide)⟩

/-- The buffer is lost, and the entry has the size of the test that was refused. -/
theorem refused_changed_noFrame :
    ∃ d', testDriver.ixgbeWfsBertStartRequest (fun _ => 0)
        { buf := none, key := ⟨0, Vector.replicate 6 0⟩ }
        { onoff := 1, wfsid := 2, pktSize := 1, bandwidth := 0 } = .ok (d', -1) ∧
      d'.buffers ≠ testDriver.buffers ∧
      d'.requester.cfg.dataLen ≠ testDriver.requester.cfg.dataLen := by
  obtain ⟨d', hstart, hbuffers, hlen⟩ := refused_noFrame
  refine ⟨d', hstart, ?_, ?_⟩
  · rw [hbuffers]
    exact List.cons_ne_nil _ _
  · rw [hlen]
    decide

end Requests

end VmkDrivers.Wfs
