/-
  VmkDrivers.Wfs.Packet

  WFS frames (`ixgbe_wfs_enc.h`) and the functions of `ixgbe_wfs.c` that
  build them and look for options in them.

  A frame keeps the fields of `struct wfspkt` apart and everything behind
  them, options and payload, as bytes.  The bytes are a function of the
  offset, since the handlers read options without looking at the length of
  the frame: behind its end they see whatever the buffer holds there.
-/

import VmkDrivers.Wfs.Fib
import VmkDrivers.Wfs.Raps

namespace VmkDrivers.Wfs

/-! ## Constants -/

def wfspktEthertype : UInt16 := 0x88B5
def ethPIp : UInt16 := 0x0800
def ethP8021Q : UInt16 := 0x8100

def wfspktTypeBroadcastMask : UInt8 := 0x80
def wfspktTypeCtrlMask : UInt8 := 0x40
def wfspktTypeCtrlNone : UInt8 := 0x40
def wfspktTypeCtrlRaps : UInt8 := 0xC2
def wfspktTypeCtrlBert : UInt8 := 0x43
def wfspktTypeDataBroadcast : UInt8 := 0xA0
def wfspktTypeDataUnicast : UInt8 := 0x20

def wfspktHdrSize : Nat := 18
def wfspktMaxSize : UInt8 := 64

def wfsoptEnd : UInt8 := 0
def wfsoptSequence : UInt8 := 1
def wfsoptAnnounce : UInt8 := 2
def wfsoptRaps : UInt8 := 3
def wfsoptBert : UInt8 := 4

/-! ## Bytes -/

def be16 (b : Nat → UInt8) (i : Nat) : UInt16 := (b i).toUInt16 <<< 8 ||| (b (i + 1)).toUInt16

def be32 (b : Nat → UInt8) (i : Nat) : UInt32 :=
  (be16 b i).toUInt32 <<< 16 ||| (be16 b (i + 2)).toUInt32

def le16 (b : Nat → UInt8) (i : Nat) : UInt16 := (b i).toUInt16 ||| (b (i + 1)).toUInt16 <<< 8

def le32 (b : Nat → UInt8) (i : Nat) : UInt32 :=
  (le16 b i).toUInt32 ||| (le16 b (i + 2)).toUInt32 <<< 16

def le64 (b : Nat → UInt8) (i : Nat) : UInt64 :=
  (le32 b i).toUInt64 ||| (le32 b (i + 4)).toUInt64 <<< 32

def macAt (b : Nat → UInt8) (i : Nat) : Mac := Vector.ofFn fun j => b (i + j.val)

def setByte (b : Nat → UInt8) (i : Nat) (v : UInt8) : Nat → UInt8 := Function.update b i v

theorem setByte_apply (b : Nat → UInt8) (i : Nat) (v : UInt8) (j : Nat) :
    setByte b i v j = if j = i then v else b j := by
  simp only [setByte, Function.update_apply]

theorem or_shift (v k : Nat) : v % 2 ^ k ||| (v >>> k) <<< k = v := by
  rw [Nat.or_comm, Nat.shiftLeft_eq, Nat.mul_comm,
    ← Nat.two_pow_add_eq_or_of_lt (Nat.mod_lt _ (Nat.two_pow_pos k)), Nat.shiftRight_eq_div_pow]
  exact Nat.div_add_mod v (2 ^ k)

theorem uint16_join (v : UInt16) : v.toUInt8.toUInt16 ||| (v >>> 8).toUInt8.toUInt16 <<< 8 = v := by
  apply UInt16.toNat_inj.mp
  have hv : v.toNat < 65536 := v.toNat_lt
  have hhigh : v.toNat >>> 8 < 256 := by rw [Nat.shiftRight_eq_div_pow]; omega
  have hback : (v.toNat >>> 8) <<< 8 < 65536 := by rw [Nat.shiftLeft_eq]; omega
  simp only [UInt16.toNat_or, UInt8.toNat_toUInt16, UInt16.toNat_toUInt8,
    UInt16.toNat_shiftLeft, UInt16.toNat_shiftRight, UInt16.reduceToNat, Nat.reduceMod,
    Nat.reducePow, Nat.mod_eq_of_lt hhigh, Nat.mod_eq_of_lt hback]
  exact or_shift v.toNat 8

theorem uint32_join (v : UInt32) :
    v.toUInt16.toUInt32 ||| (v >>> 16).toUInt16.toUInt32 <<< 16 = v := by
  apply UInt32.toNat_inj.mp
  have hv : v.toNat < 4294967296 := v.toNat_lt
  have hhigh : v.toNat >>> 16 < 65536 := by rw [Nat.shiftRight_eq_div_pow]; omega
  have hback : (v.toNat >>> 16) <<< 16 < 4294967296 := by rw [Nat.shiftLeft_eq]; omega
  simp only [UInt32.toNat_or, UInt16.toNat_toUInt32, UInt32.toNat_toUInt16,
    UInt32.toNat_shiftLeft, UInt32.toNat_shiftRight, UInt32.reduceToNat, Nat.reduceMod,
    Nat.reducePow, Nat.mod_eq_of_lt hhigh, Nat.mod_eq_of_lt hback]
  exact or_shift v.toNat 16

theorem be32_of_bytes {b : Nat → UInt8} {i : Nat} {v : UInt32} (h₀ : b i = (v >>> 24).toUInt8)
    (h₁ : b (i + 1) = (v >>> 16).toUInt8) (h₂ : b (i + 2) = (v >>> 8).toUInt8)
    (h₃ : b (i + 3) = v.toUInt8) : be32 b i = v := by
  have hv := v.toNat_lt
  have hbyte₃ : (v >>> 24).toUInt8 = ((v >>> 16).toUInt16 >>> 8).toUInt8 := by
    apply UInt8.toNat_inj.mp
    simp [Nat.shiftRight_eq_div_pow]
    omega
  have hbyte₁ : (v >>> 8).toUInt8 = (v.toUInt16 >>> 8).toUInt8 := by
    apply UInt8.toNat_inj.mp
    simp [Nat.shiftRight_eq_div_pow]
    omega
  have hbyte₂ : (v >>> 16).toUInt8 = (v >>> 16).toUInt16.toUInt8 := by simp
  have hbyte₀ : v.toUInt8 = v.toUInt16.toUInt8 := by simp
  have hhigh : be16 b i = (v >>> 16).toUInt16 := by
    rw [be16, h₀, h₁, hbyte₃, hbyte₂, UInt16.or_comm]
    exact uint16_join _
  have hlow : be16 b (i + 2) = v.toUInt16 := by
    rw [be16, h₂, h₃, hbyte₁, hbyte₀, UInt16.or_comm]
    exact uint16_join _
  rw [be32, hhigh, hlow, UInt32.or_comm]
  exact uint32_join v

/-! ## Frames -/

/-- An `sk_buff` that holds a `struct wfspkt`. -/
structure Skb where
  hDest : Mac
  hSource : Mac
  hProto : UInt16
  type : UInt8
  dest : UInt8
  src : UInt8
  /-- Length of the header with its options. -/
  len : UInt8
  /-- The bytes from `opts` on. -/
  opts : Nat → UInt8
  skbLen : Nat
  vlanTci : UInt16

def Skb.bytes (skb : Skb) (i : Nat) : UInt8 :=
  if h : i < 6 then skb.hDest[i]
  else if h : i - 6 < 6 then skb.hSource[i - 6]
  else if i = 12 then (skb.hProto >>> 8).toUInt8
  else if i = 13 then skb.hProto.toUInt8
  else if i = 14 then skb.type
  else if i = 15 then skb.dest
  else if i = 16 then skb.src
  else if i = 17 then skb.len
  else skb.opts (i - 18)

theorem Skb.bytes_opts (p : Skb) {i : Nat} (h : 18 ≤ i) : p.bytes i = p.opts (i - 18) := by
  have h6 : ¬i < 6 := by omega
  have h12 : ¬i - 6 < 6 := by omega
  simp only [bytes, h6, h12, dite_false]
  split_ifs <;> first | omega | rfl

/-- An `sk_buff` of the network stack: an Ethernet frame. -/
structure EthSkb where
  data : Nat → UInt8
  len : Nat
  vlanTci : UInt16

/-! ## Looking for an option -/

/-- The loop of `wfspkt_getopt` with `len` bytes to go at offset `o`.  An option of length 0
    that is not the one wanted is never left; every other one takes a byte at least, so
    `len` bounds the turns. -/
def getoptLoop (opts : Nat → UInt8) (optType : UInt8) :
    (fuel : Nat) → (len o : Nat) → Except Fault (Option Nat)
  | 0, _, _ => .ok none
  | fuel + 1, len, o =>
    if len = 0 then .ok none
    else if opts o = optType then .ok (some o)
    else if opts (o + 1) = 0 then .error .diverges
    else getoptLoop opts optType fuel (len - (opts (o + 1)).toNat) (o + (opts (o + 1)).toNat)

/-- `wfspkt_getopt`: the offset of the first option of a type. -/
def wfspktGetopt (pkt : Skb) (optType : UInt8) : Except Fault (Option Nat) :=
  getoptLoop pkt.opts optType (pkt.len.toNat - wfspktHdrSize) (pkt.len.toNat - wfspktHdrSize) 0

/-- `opt->val.announce`. -/
def announceAt (opts : Nat → UInt8) (o : Nat) : WfsoptAnnounce :=
  { mac := macAt opts (o + 2)
    ip := be32 opts (o + 8)
    portPri := opts (o + 12) &&& 1 ≠ 0
    portSec := opts (o + 12) &&& 2 ≠ 0
    port := opts (o + 12) >>> 2 }

/-- `opt->val.raps`. -/
def rapsAt (opts : Nat → UInt8) (o : Nat) : WfsoptRaps :=
  { request := opts (o + 2)
    flush := opts (o + 3) &&& 1 ≠ 0
    dnf := opts (o + 3) &&& 2 ≠ 0 }

/-! ## Building frames -/

/-- `wfspkt_init` for the adapter `core` with the table `fib`; `key` is the local key of the
    lookup. -/
def wfspktInit (core : RapsCore) (fib : Fib) (key : FibKey) (pkt : Skb) (type : UInt8)
    (dstVid : UInt16) (dstMac : Mac) : Except Fault Skb := do
  -- a multicast address is a broadcast in the ring
  let type := if dstMac.isGroup then type ||| wfspktTypeBroadcastMask else type
  let dest :=
    if type &&& wfspktTypeBroadcastMask ≠ 0 then wfsidAll
    else fib.ixgbeWfsFibLookup key dstVid dstMac
  let hDest ←
    if dest = wfsidAll then .ok Mac.broadcast
    else match WfsId.ofByte? dest with
      | some id => .ok (core.peer id).mac
      | none => .error .tableIndex
  pure { pkt with
    hDest
    hSource := core.macAddr
    hProto := wfspktEthertype
    type
    dest
    src := core.wfsId.byte
    len := UInt8.ofNat wfspktHdrSize
    opts := setByte pkt.opts 0 wfsoptEnd }

/-- An option header at the end of the header, `clear` bytes from it on being zeroed first,
    and the end marker behind the option. -/
def appendOpt (pkt : Skb) (optType optLen : UInt8) (clear : Nat) (fill : (Nat → UInt8) → Nat →
    (Nat → UInt8)) : Except Fault Skb :=
  let o := pkt.len.toNat - wfspktHdrSize
  let opts := fun i => if o ≤ i ∧ i < o + clear then 0 else pkt.opts i
  let opts := fill (setByte (setByte opts o optType) (o + 1) optLen) o
  let len := pkt.len + optLen
  if wfspktMaxSize < len then .error (.bugOn .pktSize)
  else .ok { pkt with len, opts := setByte opts (len.toNat - wfspktHdrSize) wfsoptEnd }

theorem appendOpt_eq {pkt : Skb} (hlen : pkt.len = 18) (optType : UInt8) {optLen : UInt8}
    (hopt : optLen ≤ 46) (clear : Nat) (fill : (Nat → UInt8) → Nat → Nat → UInt8) :
    appendOpt pkt optType optLen clear fill = .ok { pkt with
      len := 18 + optLen
      opts := setByte (fill (setByte (setByte (fun i => if i < clear then 0 else pkt.opts i)
        0 optType) 1 optLen) 0) optLen.toNat wfsoptEnd } := by
  have hle : optLen.toNat ≤ 46 := hopt
  have hsum : (18 + optLen).toNat = 18 + optLen.toNat := by
    simp only [UInt8.toNat_add, UInt8.reduceToNat]
    omega
  have hfits : ¬wfspktMaxSize < 18 + optLen := by
    rw [UInt8.not_lt, UInt8.le_iff_toNat_le, hsum]
    change _ ≤ 64
    omega
  unfold appendOpt
  simp only [hlen, hfits, hsum, wfspktHdrSize, UInt8.reduceToNat, if_false, Nat.sub_self,
    Nat.zero_le, true_and, Nat.zero_add, Nat.add_sub_cancel_left]

def wfspktSetSequence (pkt : Skb) (seqno : UInt32) : Except Fault Skb :=
  appendOpt pkt wfsoptSequence 6 4 fun opts o =>
    setByte (setByte (setByte (setByte opts (o + 2) (seqno >>> 24).toUInt8)
      (o + 3) (seqno >>> 16).toUInt8) (o + 4) (seqno >>> 8).toUInt8) (o + 5) seqno.toUInt8

/-- `wfspkt_set_raps`.  Only the two bytes of the option header are zeroed: request and
    status are what the buffer held. -/
def wfspktSetRaps (pkt : Skb) : Except Fault Skb :=
  appendOpt pkt wfsoptRaps 4 2 fun opts _ => opts

/-- `wfspkt_set_raps_sf` and `wfspkt_set_raps_nr` on the option at offset `o`. -/
def setRapsRequest (pkt : Skb) (o : Nat) (request : UInt8) : Skb :=
  { pkt with opts := setByte pkt.opts (o + 2) request }

/-- Set the `dnf` bit of the option at offset `o`. -/
def wfspktSetRapsDnf (pkt : Skb) (o : Nat) : Skb :=
  { pkt with opts := setByte pkt.opts (o + 3) (pkt.opts (o + 3) ||| 2) }

/-- `ixgbe_wfs_encap` of an Ethernet frame; `pktbuf` is the uninitialised header buffer on
    the stack, and `none` a header that found no room in front of the frame. -/
def ixgbeWfsEncap (core : RapsCore) (fib : Fib) (key : FibKey) (seqno : UInt32) (pktbuf : Skb)
    (headroom : Bool) (skb : EthSkb) : Except Fault (Option Skb) := do
  let dstMac := macAt skb.data 0
  let type :=
    if dstMac = Mac.broadcast then wfspktTypeDataBroadcast else wfspktTypeDataUnicast
  let pkt ← wfspktInit core fib key pktbuf type skb.vlanTci dstMac
  let pkt ← wfspktSetSequence pkt seqno
  if headroom then
    -- the frame follows the options
    let o := pkt.len.toNat - wfspktHdrSize
    pure (some { pkt with
      opts := fun i => if i < o then pkt.opts i else skb.data (i - o)
      skbLen := skb.len + pkt.len.toNat
      vlanTci := skb.vlanTci })
  else pure none

end VmkDrivers.Wfs
