/-
  VmkDrivers.Wfs.MtuRoom

  The room for the ring header in an accepted MTU (`ixgbe_change_mtu`,
  `ixgbe_set_rx_buffer_len`).

  The largest frame is computed in an `int`, with 64 bytes for the header.  The
  header of a data frame has 24 (`encap_skbLen`), so there is room for it and
  for a VLAN tag wherever the sum does not wrap around.  A number so large that
  it does passes the test (`mtu_room_iff`).

  Signed arithmetic wraps around (`-fwrapv`).
-/

import VmkDrivers.Lib.BitField
import VmkDrivers.Wfs.ControlPacket
import VmkDrivers.Wfs.TxQueues

namespace VmkDrivers.Wfs

open VmkDrivers.Lib

/-! ## Frame sizes -/

def ethHlen : Int32 := 14
def ethFcsLen : Int32 := 4
def vlanHlen : Int32 := 4
def ethFrameLen : Int32 := 1514
/-- `WFSPKT_MAX_SIZE`, the room for the header. -/
def wfspktMaxRoom : Int32 := 64
def ixgbeFcoeJumboFrameSize : Int32 := 3072
def maximumEthernetVlanSize : Int32 := 1522

def ixgbeMhaddMfsMask : BitVec 32 := 0xFFFF0000#32
def ixgbeMhaddMfsShift : Nat := 16
def ixgbeHlreg0Jumboen : BitVec 32 := 0x00000004#32
def ixgbeFlag2RscEnabled : BitVec 32 := 0x00000002#32
def ixgbeFlag2CnaEnabled : BitVec 32 := 0x00000004#32

/-- `ALIGN(x, 1024)`. -/
def align1024 (x : Int32) : Int32 := (x + 1023) &&& ~~~1023

/-- A receive ring: whether `__IXGBE_RX_FCOE` is set, and `rx_buf_len`. -/
structure RxBufRing where
  fcoe : Bool := false
  rxBufLen : UInt16 := 0
deriving DecidableEq, Repr

/-- `struct ixgbe_adapter`, as far as the size of received frames goes, with the registers
    `IXGBE_MHADD` and `IXGBE_HLREG0`. -/
structure RxLenAdapter where
  fcoeEnabled : Bool := false
  flags2 : BitVec 32 := 0
  mhadd : BitVec 32 := 0
  hlreg0 : BitVec 32 := 0
  numRxQueues : Nat := 0
  rxRing : Nat → RxBufRing := fun _ => {}

open RxLenAdapter

namespace RxLenAdapter

/-- `if (max_frame < size) max_frame = size`. -/
def atLeast (size maxFrame : Int32) : Int32 := if maxFrame < size then size else maxFrame

def maxFrame (mtu : Int32) (a : RxLenAdapter) : Int32 :=
  let maxFrame := mtu + ethHlen + ethFcsLen + wfspktMaxRoom
  -- baby jumbo for FCoE
  let maxFrame := if a.fcoeEnabled then atLeast ixgbeFcoeJumboFrameSize maxFrame else maxFrame
  -- at least the size of a standard frame
  atLeast (ethFrameLen + ethFcsLen) maxFrame

/-- `IXGBE_MHADD` with the largest frame. -/
def setMhadd (maxFrame : Int32) (mhadd : BitVec 32) : BitVec 32 :=
  if maxFrame.toBitVec ≠ mhadd >>> ixgbeMhaddMfsShift then
    setField ixgbeMhaddMfsMask (maxFrame.toBitVec <<< ixgbeMhaddMfsShift) mhadd
  else mhadd

def rxBufLen (maxFrame : Int32) (a : RxLenAdapter) : Int32 :=
  -- `!adapter->flags2 & IXGBE_FLAG2_CNA_ENABLED`, where `!` binds tighter
  let notFlags2 : BitVec 32 := if a.flags2 = 0 then 1 else 0
  let maxFrame := if notFlags2 &&& ixgbeFlag2CnaEnabled ≠ 0 then maxFrame + vlanHlen else maxFrame
  if a.flags2 &&& ixgbeFlag2RscEnabled = 0 ∧ maxFrame ≤ maximumEthernetVlanSize then
    maximumEthernetVlanSize
  else align1024 maxFrame

def ringBufLen (bufLen : Int32) (ring : RxBufRing) : UInt16 :=
  if ring.fcoe && bufLen < ixgbeFcoeJumboFrameSize then
    ixgbeFcoeJumboFrameSize.toUInt32.toUInt16
  else bufLen.toUInt32.toUInt16

/-- `ixgbe_set_rx_buffer_len`, for a net device with the MTU `mtu`. -/
def ixgbeSetRxBufferLen (mtu : Int32) (a : RxLenAdapter) : RxLenAdapter :=
  let bufLen := a.rxBufLen (a.maxFrame mtu)
  { a with
    mhadd := setMhadd (a.maxFrame mtu) a.mhadd
    hlreg0 := a.hlreg0 ||| ixgbeHlreg0Jumboen
    rxRing := fun i =>
      if i < a.numRxQueues then { a.rxRing i with rxBufLen := ringBufLen bufLen (a.rxRing i) }
      else a.rxRing i }

/-- The largest frame that `IXGBE_MHADD` admits. -/
def mfs (a : RxLenAdapter) : Nat := (a.mhadd >>> ixgbeMhaddMfsShift).toNat

/-! ## Integers -/

theorem and_not_1023 (x : BitVec 32) : x &&& ~~~1023#32 = (x >>> 10) <<< 10 := by
  have hmask : ∀ i (hi : i < 32), (1023#32)[i] = decide (i < 10) := by decide
  apply BitVec.eq_of_getElem_eq
  intro i hi
  rw [BitVec.getElem_and, BitVec.getElem_not, hmask i hi, BitVec.getElem_shiftLeft]
  by_cases hlow : i < 10
  · simp [hlow]
  · have hsame : 10 + (i - 10) = i := by omega
    rw [BitVec.getElem_ushiftRight]
    simp only [hlow, decide_false, Bool.not_false, Bool.and_true, Bool.true_and, hsame]
    exact (BitVec.getLsbD_eq_getElem hi).symm

variable {x : Int32}

theorem toNat_bits {m : Nat} (hx : x.toInt = m) : x.toBitVec.toNat = m := by
  have hlt := x.toInt_lt
  have hbits : x.toBitVec.toInt = m := hx
  rw [BitVec.toInt_eq_toNat_cond] at hbits
  have hbound := x.toBitVec.isLt
  split at hbits <;> omega

theorem toInt_add_of_lt {y : Int32} {m k : Nat} (hx : x.toInt = m) (hy : y.toInt = k)
    (hlt : m + k < 2 ^ 31) : (x + y).toInt = (m + k : Nat) := by
  rw [Int32.toInt_add, hx, hy, Int.bmod_eq_of_le] <;> omega

theorem toInt_align1024 {m : Nat} (hx : x.toInt = m) (hm : m < 2 ^ 16) :
    (align1024 x).toInt = ((m + 1023) / 1024 * 1024 : Nat) := by
  have hsum := toInt_add_of_lt hx (y := 1023) (k := 1023) rfl (by omega)
  have hnat : (align1024 x).toBitVec.toNat = (m + 1023) / 1024 * 1024 := by
    change ((x + 1023).toBitVec &&& ~~~1023#32).toNat = _
    rw [and_not_1023, BitVec.toNat_shiftLeft, BitVec.toNat_ushiftRight, toNat_bits hsum,
      Nat.shiftLeft_eq, Nat.shiftRight_eq_div_pow]
    omega
  change (align1024 x).toBitVec.toInt = _
  rw [BitVec.toInt_eq_toNat_of_lt (by omega), hnat]

theorem shift_setMfs (x r : BitVec 32) :
    (setField ixgbeMhaddMfsMask (x <<< 16) r >>> 16).toNat = x.toNat % 2 ^ 16 := by
  have hmask : ∀ i (hi : i < 32), (0xFFFF0000#32)[i] = decide (16 ≤ i) := by decide
  have hbits : setField ixgbeMhaddMfsMask (x <<< 16) r >>> 16 = (x.setWidth 16).setWidth 32 := by
    apply BitVec.eq_of_getLsbD_eq
    intro i hi
    rw [BitVec.getLsbD_ushiftRight, BitVec.getLsbD_setWidth, BitVec.getLsbD_setWidth]
    unfold setField ixgbeMhaddMfsMask
    by_cases hlow : i < 16
    · have hin : 16 + i < 32 := by omega
      rw [BitVec.getLsbD_eq_getElem hin, BitVec.getElem_or, BitVec.getElem_and, BitVec.getElem_not,
        hmask _ hin, BitVec.getElem_shiftLeft]
      simp [hlow, hi, BitVec.getLsbD_eq_getElem]
    · rw [BitVec.getLsbD_of_ge _ _ (by omega)]
      simp [hlow]
  rw [hbits, BitVec.toNat_setWidth, BitVec.toNat_setWidth]
  omega

/-! ## What the calls leave -/

variable {mtu maxFrame : Int32} {a : RxLenAdapter} {m : Nat}

theorem setMhadd_mfs (hm : maxFrame.toInt = m) (hlt : m < 2 ^ 16) (mhadd : BitVec 32) :
    (setMhadd maxFrame mhadd >>> ixgbeMhaddMfsShift).toNat = m := by
  unfold setMhadd
  split
  · unfold ixgbeMhaddMfsShift
    rw [shift_setMfs, toNat_bits hm]
    omega
  · next hsame =>
    rw [← not_not.mp hsame]
    exact toNat_bits hm

theorem rxBufLen_spec (hm : maxFrame.toInt = m) (hlt : m ≤ 9728) :
    ∃ len : Nat, (a.rxBufLen maxFrame).toInt = len ∧ m ≤ len ∧ len ≤ 10240 := by
  have hnever : ¬(if a.flags2 = 0 then (1 : BitVec 32) else 0) &&& ixgbeFlag2CnaEnabled ≠ 0 := by
    split <;> decide
  unfold rxBufLen
  dsimp only
  rw [if_neg hnever]
  split
  · next hsmall =>
    have hle := Int32.le_iff_toInt_le.mp hsmall.2
    change maxFrame.toInt ≤ 1522 at hle
    exact ⟨1522, rfl, by omega, by omega⟩
  · exact ⟨_, toInt_align1024 hm (by omega), by omega, by omega⟩

theorem ringBufLen_le {bufLen : Int32} {len : Nat} (hlen : bufLen.toInt = len) (hle : len ≤ 10240)
    (ring : RxBufRing) : len ≤ (ringBufLen bufLen ring).toNat := by
  unfold ringBufLen
  split
  · next hsmall =>
    rw [Bool.and_eq_true, decide_eq_true_eq] at hsmall
    have hlt := Int32.lt_iff_toInt_lt.mp hsmall.2
    change bufLen.toInt < 3072 at hlt
    change len ≤ 3072
    omega
  · have hbits : bufLen.toUInt32.toNat = len := toNat_bits hlen
    rw [UInt32.toNat_toUInt16, hbits]
    omega

theorem atLeast_spec {size : Int32} {k : Nat} (hm : maxFrame.toInt = m) (hk : size.toInt = k)
    (hle : m ≤ 9728) (hle' : k ≤ 9728) :
    ∃ n : Nat, (atLeast size maxFrame).toInt = n ∧ m ≤ n ∧ n ≤ 9728 := by
  unfold atLeast
  split
  · next hsmall =>
    have hlt := Int32.lt_iff_toInt_lt.mp hsmall
    exact ⟨k, hk, by omega, hle'⟩
  · exact ⟨m, hm, Nat.le_refl m, hle⟩

theorem toInt_frameSum (mtu : Int32) : (mtu + ethHlen + ethFcsLen + wfspktMaxRoom).toInt =
    (mtu.toInt + 82).bmod (2 ^ 32) := by
  rw [Int32.toInt_add, Int32.toInt_add, Int32.toInt_add, Int.bmod_add_bmod, Int.add_assoc,
    Int.bmod_add_bmod, Int.add_assoc]
  rfl

theorem maxFrame_spec (hm : mtu.toInt = m) (hle : m + 82 ≤ 9728) :
    ∃ n : Nat, (a.maxFrame mtu).toInt = n ∧ m + 82 ≤ n ∧ n ≤ 9728 := by
  have hsum : (mtu + ethHlen + ethFcsLen + wfspktMaxRoom).toInt = (m + 82 : Nat) := by
    rw [toInt_frameSum, hm, Int.bmod_eq_of_le] <;> omega
  unfold maxFrame
  split
  · obtain ⟨k, hk, hmk, hk'⟩ := atLeast_spec (k := 3072) hsum
      (show ixgbeFcoeJumboFrameSize.toInt = _ from rfl) hle (by decide)
    obtain ⟨n, hn, hkn, hn'⟩ := atLeast_spec (k := 1518) hk
      (show (ethFrameLen + ethFcsLen).toInt = _ from rfl) hk' (by decide)
    exact ⟨n, hn, hmk.trans hkn, hn'⟩
  · exact atLeast_spec (k := 1518) hsum
      (show (ethFrameLen + ethFcsLen).toInt = _ from rfl) hle (by decide)

end RxLenAdapter

/-! ## What is promised -/

theorem encap_skbLen {core : RapsCore} {fib : Fib} {key : FibKey} {seqno : UInt32}
    {pktbuf pkt : Skb} {headroom : Bool} {skb : EthSkb}
    (h : ixgbeWfsEncap core fib key seqno pktbuf headroom skb = .ok (some pkt)) :
    pkt.skbLen = skb.len + 24 := by
  obtain ⟨hdr, hinit, h⟩ := bind_eq_ok.mp h
  obtain ⟨num, hseq, h⟩ := bind_eq_ok.mp h
  obtain ⟨-, -, hlen, -⟩ := wfspktInit_header hinit
  rw [wfspktSetSequence, appendOpt_eq hlen _ (by decide)] at hseq
  cases hseq
  split at h
  · cases h
    rfl
  · cases h

def wireLen (pkt : Skb) : Nat := pkt.skbLen + 4 + 4

/-- If the MTU is accepted, the largest frame is below the limit of the card, and each port takes
    every frame made of a packet of this size. -/
def MtuRoom (newMtu : Int32) : Prop :=
  QueueCard.mtuAccepted newMtu = true →
    newMtu.toInt + 14 + 4 + 64 ≤ 9728 ∧
      ∀ (a : RxLenAdapter) (core : RapsCore) (fib : Fib) (key : FibKey) (seqno : UInt32)
        (pktbuf pkt : Skb) (headroom : Bool) (skb : EthSkb), (skb.len : Int) ≤ 14 + newMtu.toInt →
        ixgbeWfsEncap core fib key seqno pktbuf headroom skb = .ok (some pkt) →
        wireLen pkt ≤ (a.ixgbeSetRxBufferLen newMtu).mfs ∧
          ∀ i < a.numRxQueues,
            wireLen pkt ≤ ((a.ixgbeSetRxBufferLen newMtu).rxRing i).rxBufLen.toNat

theorem mtuAccepted_iff (newMtu : Int32) : QueueCard.mtuAccepted newMtu = true ↔
    68 ≤ newMtu.toInt ∧ (newMtu.toInt ≤ 9646 ∨ 2147483565 < newMtu.toInt) := by
  have hlt := newMtu.toInt_lt
  have haccepted : QueueCard.mtuAccepted newMtu = true ↔ 68 ≤ newMtu.toInt ∧
      (newMtu + ethHlen + ethFcsLen + wfspktMaxRoom).toInt ≤ 9728 := by
    unfold QueueCard.mtuAccepted
    rw [Bool.not_eq_true', Bool.or_eq_false_iff, decide_eq_false_iff_not, decide_eq_false_iff_not,
      gt_iff_lt, Int32.lt_iff_toInt_lt, Int32.lt_iff_toInt_lt, not_lt, not_lt]
    exact Iff.rfl
  rw [haccepted, toInt_frameSum]
  refine and_congr_right fun hpos => ?_
  by_cases hwrap : newMtu.toInt ≤ 2147483565
  · rw [Int.bmod_eq_of_le (by omega) (by omega)]
    omega
  · -- the sum is negative
    rw [← Int.sub_bmod_right, Int.bmod_eq_of_le (by omega) (by omega)]
    omega

/-- **An accepted MTU leaves room for the ring header** exactly if the sum does not wrap around. -/
theorem mtu_room_iff (newMtu : Int32) : MtuRoom newMtu ↔ newMtu.toInt ≤ 2147483565 := by
  constructor
  · intro hroom
    by_contra hwrap
    have haccepted := (mtuAccepted_iff newMtu).mpr ⟨by omega, .inr (by omega)⟩
    have hsmall := (hroom haccepted).1
    omega
  · intro hle haccepted
    obtain ⟨hpos, hsmall | hwrap⟩ := (mtuAccepted_iff newMtu).mp haccepted
    · obtain ⟨m, hm⟩ : ∃ m : Nat, newMtu.toInt = m := ⟨newMtu.toInt.toNat, by omega⟩
      refine ⟨by omega, ?_⟩
      intro a core fib key seqno pktbuf pkt headroom skb hskb hpkt
      obtain ⟨n, hn, hlow, hhigh⟩ := maxFrame_spec (a := a) hm (by omega)
      have hwire : wireLen pkt ≤ n := by
        rw [wireLen, encap_skbLen hpkt]
        omega
      refine ⟨hwire.trans_eq ?_, fun i hi => hwire.trans ?_⟩
      · exact (setMhadd_mfs hn (by omega) a.mhadd).symm
      · obtain ⟨len, hlen, hnlen, hlen'⟩ := rxBufLen_spec (a := a) hn hhigh
        unfold ixgbeSetRxBufferLen
        dsimp only
        rw [if_pos hi]
        exact hnlen.trans (ringBufLen_le hlen hlen' _)
    · omega

/-- The largest `int` is accepted, and the card is set up for standard frames. -/
theorem mtu_room_wraps : ¬MtuRoom 2147483647 ∧ QueueCard.mtuAccepted 2147483647 = true ∧
    (ixgbeSetRxBufferLen 2147483647 {}).mfs = 1518 := by
  refine ⟨fun hroom => ?_, by decide, by decide⟩
  have hsmall := (hroom (by decide)).1
  revert hsmall
  decide

end VmkDrivers.Wfs
