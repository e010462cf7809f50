/-
  VmkDrivers.Vmklinux.PktToSkb

  An outgoing packet of the vmkernel becomes a socket buffer (`map_pkt_to_skb` in
  `linux_net.c`).

  The headers are located through the layout attributes of the packet, or by reading
  the mapped head: the Ethernet header, the length nibble of IPv4, the extension headers
  of IPv6.  The function then checks the packets that the adapter has to segment or to
  checksum, and describes what lies beyond the head by fragments.

  Offsets count from the mapped pointer.  The bytes behind the mapped head are part of
  the packet's `mem`, as the code can read them; the offsets it reads are listed.  The
  VLAN tag and the queue of the socket buffer are left out.
-/

import Mathlib

namespace VmkDrivers.Vmklinux

/-! ## Packets and devices -/

/-- `vmk_PktFrag` -/
structure PktFrag where
  addr : Nat
  length : Nat
deriving DecidableEq, Repr

/-- The components of the inet frame layout of a packet
    (`vmk_PktInetFrameLayoutGetComponents`). -/
structure InetLayout where
  ipHdrOffset : UInt32
  ipHdrLength : UInt32
  ipVersion : UInt8
  l4Protocol : UInt8

/-- A packet of the vmkernel.  A large TCP packet has its MSS with it, which the backends
    check to be nonzero. -/
structure VmkPkt where
  mem : Nat → UInt8
  mappedLen : Nat
  head : PktFrag
  /-- The fragments from index 1 on. -/
  more : List PktFrag
  frameLen : UInt32
  layout : Option InetLayout
  encapsulated : Bool
  mustCsum : Bool
  largeTcp : Option { mss : UInt32 // mss ≠ 0 }
  mapped_pos : 0 < mappedLen
  mapped_le : mappedLen ≤ head.length
  /-- The frame is not longer than the buffers. -/
  room : frameLen.toNat ≤ head.length + (more.map PktFrag.length).sum
  /-- `vmk_PktFragsNb` is a `vmk_uint16`. -/
  few : more.length < 65535

namespace VmkPkt

def headLen (pkt : VmkPkt) : Nat := min pkt.mappedLen pkt.frameLen.toNat

/-- `must_csum || must_tso` -/
def offload (pkt : VmkPkt) : Bool := pkt.mustCsum || pkt.largeTcp.isSome

/-- `vmk_PktFragGet` -/
def fragGet (pkt : VmkPkt) (entry : Nat) : Option PktFrag := (pkt.head :: pkt.more)[entry]?

end VmkPkt

/-- What the function reads of the `net_device`. -/
structure NetifDev where
  features : UInt64
  mtu : UInt32

def netifFEncap : UInt64 := 0x20000000000

/-- `NETIF_F_OFFLOAD_8OFFSET` and `NETIF_F_OFFLOAD_16OFFSET` -/
def netifFOffloadOffset : UInt64 := 0x400000 ||| 0x800000

def NetifDev.anyEncap (dev : NetifDev) : Bool :=
  dev.features &&& (netifFEncap ||| netifFOffloadOffset) ≠ 0

inductive MapFailure
  | noSkb
  | shortIpv4
  | outerNotIpv4
  | nonIpTso
  | nonTcpTso
  | runtTso
  | oversizedMss
  | overMtu
  | unsupportedCsum
  | tooManyFrags
  | noFrag
deriving DecidableEq, Repr

def MapFailure.logged : MapFailure → Bool
  | .noSkb | .shortIpv4 | .outerNotIpv4 | .noFrag => false
  | _ => true

/-! ## The Ethernet header -/

def be16 (mem : Nat → UInt8) (o : Nat) : Nat := (mem o).toNat * 256 + (mem (o + 1)).toNat

inductive EthHeaderType
  | dix
  | vlan
  | llc
  | vlanLlc
deriving DecidableEq, Repr

/-- `ETH_P_8021Q`, `ETH_P_IP` and `ETH_P_IPV6` -/
def ethP8021Q : Nat := 0x8100
def ethPIp : Nat := 0x0800
def ethPIpv6 : Nat := 0x86dd

def ethHeaderType (mem : Nat → UInt8) : EthHeaderType :=
  if be16 mem 12 ≥ 1536 then
    if be16 mem 12 ≠ ethP8021Q then .dix
    else if be16 mem 16 ≥ 1536 then .vlan
    else .vlanLlc
  else .llc

/-- `eth_header_len`: the sizes of `ethhdr`, `vlan_ethhdr`, `ethhdr_llc` and
    `vlan_ethhdr_llc`. -/
def ethHeaderLen (mem : Nat → UInt8) : Nat :=
  match ethHeaderType mem with
  | .dix => 14
  | .vlan => 18
  | .llc => 22
  | .vlanLlc => 26

/-- `eth_header_frame_type`: each of the four headers ends with this field. -/
def ethHeaderFrameType (mem : Nat → UInt8) : Nat := be16 mem (ethHeaderLen mem - 2)

/-- What `eth_header_len` and `eth_header_frame_type` read. -/
def ethReads (mem : Nat → UInt8) : List Nat :=
  match ethHeaderType mem with
  | .dix => [12, 13]
  | .vlan => [12, 13, 16, 17]
  | .llc => [12, 13, 20, 21]
  | .vlanLlc => [12, 13, 16, 17, 24, 25]

theorem le_ethHeaderLen (mem : Nat → UInt8) : 14 ≤ ethHeaderLen mem ∧ ethHeaderLen mem ≤ 26 := by
  unfold ethHeaderLen
  split <;> decide

variable {mem : Nat → UInt8}

theorem ethReads_lt {o : Nat} (ho : o ∈ ethReads mem) : o < ethHeaderLen mem := by
  unfold ethReads at ho
  unfold ethHeaderLen
  cases ht : ethHeaderType mem <;> rw [ht] at ho <;> simp at ho ⊢ <;> omega

/-! ## The extension headers of IPv6 -/

/-- `IPPROTO_*` -/
def ipprotoTcp : UInt8 := 6
def ipprotoUdp : UInt8 := 17
def ipprotoIcmpv6 : UInt8 := 58

/-- The headers that the walk goes over, with the unit of their length: `IPPROTO_HOPOPTS`,
    `IPPROTO_ROUTING` and `IPPROTO_DSTOPTS`, and `IPPROTO_AH`. -/
def ipv6Extension (nextHdr : UInt8) : Option Nat :=
  if nextHdr = 0 ∨ nextHdr = 43 ∨ nextHdr = 60 then some 8
  else if nextHdr = 51 then some 4
  else none

structure Ipv6Found where
  hraw : Option (Nat × UInt8)
  reads : List Nat

/-- `do { … } while (nextHdrPtr < skb->end)` -/
def ipv6Walk (mem : Nat → UInt8) (stop : Nat) (nextHdr : UInt8) (ptr : Nat) : Ipv6Found :=
  match ipv6Extension nextHdr with
  | none => ⟨some (ptr, nextHdr), []⟩
  | some unit =>
    let next := ptr + (mem (ptr + 1)).toNat * unit + 8
    if _h : next < stop then
      let found := ipv6Walk mem stop (mem ptr) next
      ⟨found.hraw, ptr :: (ptr + 1) :: found.reads⟩
    else ⟨none, [ptr, ptr + 1]⟩
termination_by stop - ptr

/-- `ipv6_set_hraw`: `skb->end` is at `stop`. -/
def ipv6SetHraw (mem : Nat → UInt8) (stop nh : Nat) : Ipv6Found :=
  let nextHdr := mem (nh + 6)
  let nextHdrPtr := nh + 40
  if nextHdrPtr > stop then ⟨none, [nh + 6]⟩
  else if nextHdr = ipprotoTcp ∨ nextHdr = ipprotoUdp ∨ nextHdr = ipprotoIcmpv6 then
    ⟨some (nextHdrPtr, nextHdr), [nh + 6]⟩
  else
    let found := ipv6Walk mem stop nextHdr nextHdrPtr
    ⟨found.hraw, (nh + 6) :: found.reads⟩

theorem ipv6Walk_reads {stop ptr h : Nat} {nextHdr proto : UInt8}
    (hfound : (ipv6Walk mem stop nextHdr ptr).hraw = some (h, proto)) :
    ptr ≤ h ∧ ∀ o ∈ (ipv6Walk mem stop nextHdr ptr).reads, o < h := by
  fun_induction ipv6Walk mem stop nextHdr ptr with
  | case1 nextHdr ptr hext =>
    cases hfound
    exact ⟨Nat.le_refl _, nofun⟩
  | case2 nextHdr ptr unit hext next hnext found ih =>
    obtain ⟨hle, hreads⟩ := ih hfound
    have hptr : ptr + 8 ≤ next := by omega
    refine ⟨by omega, fun o ho => ?_⟩
    rcases List.mem_cons.mp ho with rfl | ho
    · omega
    · rcases List.mem_cons.mp ho with rfl | ho
      · omega
      · exact hreads o ho
  | case3 => cases hfound

theorem ipv6SetHraw_reads {stop nh h : Nat} {proto : UInt8}
    (hfound : (ipv6SetHraw mem stop nh).hraw = some (h, proto)) :
    nh ≤ h ∧ ∀ o ∈ (ipv6SetHraw mem stop nh).reads, o < h := by
  unfold ipv6SetHraw at hfound ⊢
  dsimp only at hfound ⊢
  split_ifs at hfound ⊢ with hend hproto
  · cases hfound
    refine ⟨by omega, fun o ho => ?_⟩
    have := List.mem_singleton.mp ho
    omega
  · obtain ⟨hle, hreads⟩ := ipv6Walk_reads hfound
    refine ⟨by omega, fun o ho => ?_⟩
    rcases List.mem_cons.mp ho with rfl | ho
    · omega
    · exact hreads o ho

/-! ## Locating the headers -/

/-- `skb_encap_layout_t` -/
structure EncapLayout where
  innerIpHdrOff : UInt16
  innerL4Off : UInt16
  innerL4Proto : UInt8
deriving DecidableEq, Repr

/-- The headers as the function locates them: `skb->nh.raw` and `skb->h.raw`. -/
structure PktHeaders where
  nh : Nat
  h : Option Nat
  skbProtocol : Nat
  pktIpv4 : Bool
  ehLen : UInt32
  protocol : UInt8
  encap : Option EncapLayout
  /-- `pkt_w_layout && !vdl2_encap`: this branch does not set `sgInspected`. -/
  fromLayout : Bool
  reads : List Nat

/-- `vdl2_encap`, for a packet with layout attributes -/
def vdl2Encap (dev : NetifDev) (pkt : VmkPkt) : Bool :=
  dev.features &&& netifFEncap ≠ 0 && pkt.encapsulated

/-- The branch `pkt_w_layout && !vdl2_encap` -/
def layoutHeaders (l : InetLayout) : PktHeaders where
  nh := l.ipHdrOffset.toNat
  h := some (l.ipHdrOffset.toNat + l.ipHdrLength.toNat)
  skbProtocol := if l.ipVersion = 4 then ethPIp else if l.ipVersion = 6 then ethPIpv6 else 0
  pktIpv4 := l.ipVersion = 4
  ehLen := l.ipHdrOffset
  protocol := l.l4Protocol
  encap := none
  fromLayout := true
  reads := []

def encapLayout (l : InetLayout) : EncapLayout :=
  ⟨l.ipHdrOffset.toUInt16, (l.ipHdrOffset + l.ipHdrLength).toUInt16, l.l4Protocol⟩

/-- The other branch: the frame's own bytes, and for an encapsulated frame (`vdl2` is its
    layout) the inner headers from the layout. -/
def frameHeaders (pkt : VmkPkt) (vdl2 : Option InetLayout) : Except MapFailure PktHeaders :=
  let ipHdrOffset := ethHeaderLen pkt.mem
  let skbProtocol := ethHeaderFrameType pkt.mem
  let headers (h : Option Nat) (pktIpv4 : Bool) (l4proto : UInt8) (reads : List Nat) : PktHeaders :=
    { nh := ipHdrOffset
      h
      skbProtocol
      pktIpv4
      ehLen := (vdl2.map InetLayout.ipHdrOffset).getD (.ofNat ipHdrOffset)
      protocol := (vdl2.map InetLayout.l4Protocol).getD l4proto
      encap := vdl2.map encapLayout
      fromLayout := false
      reads := ethReads pkt.mem ++ reads }
  if skbProtocol = ethPIp then
    if pkt.headLen < ipHdrOffset + 20 then .error .shortIpv4
    else .ok (headers (some (ipHdrOffset + (pkt.mem ipHdrOffset &&& 0xf).toNat * 4)) true
      (pkt.mem (ipHdrOffset + 9)) [ipHdrOffset, ipHdrOffset + 9])
  else if vdl2.isSome then .error .outerNotIpv4
  else if skbProtocol = ethPIpv6 then
    let found := ipv6SetHraw pkt.mem pkt.headLen ipHdrOffset
    .ok (headers (found.hraw.map Prod.fst) false ((found.hraw.map Prod.snd).getD 0xff) found.reads)
  else .ok (headers none false 0xff [])

/-- `map_pkt_to_skb` up to `must_vlantag`. -/
def locateHeaders (dev : NetifDev) (pkt : VmkPkt) : Except MapFailure PktHeaders :=
  match if dev.anyEncap then pkt.layout else none with
  | none => frameHeaders pkt none
  | some l => if vdl2Encap dev pkt then frameHeaders pkt (some l) else .ok (layoutHeaders l)

/-! ## The checks -/

/-- `tcp_hdrlen`, for a header at `h` -/
def tcpHdrlen (mem : Nat → UInt8) (h : Nat) : Nat := (mem (h + 12) >>> 4).toNat * 4

/-- `inetHdrLen`, an `unsigned short` -/
def inetHdrLen (mem : Nat → UInt8) (nh h : Nat) : Nat := (h + tcpHdrlen mem h - nh) % 65536

inductive IpSummed
  | none
  | hw
  | hwEncap
deriving DecidableEq, Repr

structure TxOffload where
  gsoSize : UInt16
  gsoSegs : UInt16
  gsoType : UInt16
  csum : Nat
  ipSummed : IpSummed
deriving DecidableEq, Repr

def checkTso (dev : NetifDev) (pkt : VmkPkt) (hd : PktHeaders) (tsoMss : UInt32) :
    Except MapFailure Nat :=
  if !hd.pktIpv4 && hd.skbProtocol != ethPIpv6 then .error .nonIpTso
  else
    match hd.h with
    | none => .error .nonTcpTso
    | some h =>
      let hdrLen : UInt32 := .ofNat (inetHdrLen pkt.mem hd.nh h)
      if hd.protocol ≠ ipprotoTcp then .error .nonTcpTso
      else if pkt.frameLen - hd.ehLen - hdrLen ≤ tsoMss then .error .runtTso
      else if tsoMss + hdrLen > dev.mtu then .error .oversizedMss
      else .ok h

/-- `SKB_GSO_TCPV4`, `SKB_GSO_TCP_ECN` and `SKB_GSO_TCPV6`; `cwr` is the top bit of the
    flags. -/
def gsoTypeOf (pkt : VmkPkt) (hd : PktHeaders) (h : Nat) : UInt16 :=
  (if hd.pktIpv4 then 1 else 16) ||| if pkt.mem (h + 13) >>> 7 = 1 then 8 else 0

/-- `switch (protocol)`: the offset of the checksum in the transport header -/
def csumOffset (protocol : UInt8) : Except MapFailure Nat :=
  if protocol = ipprotoTcp then .ok 16
  else if protocol = ipprotoUdp then .ok 6
  else .error .unsupportedCsum

/-- The fields of the checksum: `if (must_csum || must_tso)`. -/
def checkCsum (pkt : VmkPkt) (hd : PktHeaders) : Except MapFailure (Nat × IpSummed) :=
  if pkt.offload then
    (csumOffset hd.protocol).map (·, if hd.encap.isSome then IpSummed.hwEncap else .hw)
  else .ok (0, .none)

/-- From `must_tso` to the fragments, with the bytes that are read. -/
def checkOffload (dev : NetifDev) (pkt : VmkPkt) (hd : PktHeaders) :
    Except MapFailure (TxOffload × List Nat) :=
  match pkt.largeTcp with
  | some mss => do
    let h ← checkTso dev pkt hd mss
    let (csum, ipSummed) ← checkCsum pkt hd
    return (⟨mss.1.toUInt16, ((pkt.frameLen + mss.1 - 1) / mss.1).toUInt16, gsoTypeOf pkt hd h,
      csum, ipSummed⟩, [h + 12, h + 13])
  | none => do
    if pkt.frameLen - hd.ehLen > dev.mtu then throw .overMtu
    let (csum, ipSummed) ← checkCsum pkt hd
    return (⟨0, 0, 0, csum, ipSummed⟩, [])

/-! ## The fragments -/

def maxSkbFrags : Nat := 24

/-- `skb_frag_t`: the page number, and two fields of 16 bits. -/
structure SkbFrag where
  page : Nat
  pageOffset : Nat
  size : Nat
deriving DecidableEq, Repr

/-- A fragment of `left` bytes at most. -/
def PktFrag.toSkbFrag (f : PktFrag) (left : Nat) : SkbFrag :=
  ⟨f.addr / 4096, f.addr % 4096, min f.length left % 65536⟩

/-- `for (i = sgInspected; bytesLeft > 0; i++)`, with room for `room` more fragments.
    `vmk_PktFragGet` takes the index as a `vmk_uint16`. -/
def fragLoop (pkt : VmkPkt) (i : Nat) : (room bytesLeft : Nat) → Except MapFailure (List SkbFrag)
  | _, 0 => .ok []
  | 0, _ + 1 => .error .tooManyFrags
  | room + 1, left + 1 =>
    match pkt.fragGet (i % 65536) with
    | none => .error .noFrag
    | some frag =>
      let skbFrag := frag.toSkbFrag (left + 1)
      (fragLoop pkt (i + 1) room (left + 1 - skbFrag.size)).map (skbFrag :: ·)

structure TxSkb where
  len : UInt32
  /-- `skb->data` to `skb->tail` -/
  head : PktFrag
  nh : Nat
  h : Option Nat
  protocol : Nat
  encap : Option EncapLayout
  offload : TxOffload
  frags : List SkbFrag
  dataLen : Nat
  nrFrags : Nat
deriving DecidableEq, Repr

def checkPkt (dev : NetifDev) (pkt : VmkPkt) :
    Except MapFailure (PktHeaders × TxOffload × List Nat) := do
  let hd ← locateHeaders dev pkt
  let (offload, reads) ← checkOffload dev pkt hd
  return (hd, offload, hd.reads ++ reads)

/-- The first `i` of the loop: `junk` is what the variable `sgInspected` holds if nothing
    sets it. -/
def PktHeaders.sgInspected (hd : PktHeaders) (junk : UInt16) : Nat :=
  if hd.fromLayout then junk.toNat else 1

/-- `map_pkt_to_skb`, with the bytes of the head that are read: `alloc` tells if
    `do_alloc_skb` returns a socket buffer. -/
def mapPktToSkb (dev : NetifDev) (pkt : VmkPkt) (alloc : Bool) (junk : UInt16) :
    Except MapFailure (TxSkb × List Nat) :=
  if alloc then
    match checkPkt dev pkt with
    | .error e => .error e
    | .ok (hd, offload, reads) =>
      let bytesLeft := pkt.frameLen.toNat - pkt.headLen
      (fragLoop pkt (hd.sgInspected junk) maxSkbFrags bytesLeft).map fun frags =>
        ({ len := pkt.frameLen
           head := ⟨pkt.head.addr, pkt.headLen⟩
           nh := hd.nh
           h := hd.h
           protocol := hd.skbProtocol
           encap := hd.encap
           offload
           frags
           dataLen := (frags.map SkbFrag.size).sum
           nrFrags := frags.length }, reads)
  else .error .noSkb

theorem checkPkt_eq_ok {dev : NetifDev} {pkt : VmkPkt} {hd : PktHeaders} {offload : TxOffload}
    {reads : List Nat} (h : checkPkt dev pkt = .ok (hd, offload, reads)) :
    ∃ more, locateHeaders dev pkt = .ok hd ∧ checkOffload dev pkt hd = .ok (offload, more) ∧
      reads = hd.reads ++ more := by
  unfold checkPkt at h
  cases hhd : locateHeaders dev pkt with
  | error e => rw [hhd] at h; cases h
  | ok hd' =>
    rw [hhd] at h
    change (checkOffload dev pkt hd').bind _ = _ at h
    cases hoff : checkOffload dev pkt hd' with
    | error e => rw [hoff] at h; cases h
    | ok p =>
      rw [hoff] at h
      cases h
      exact ⟨p.2, rfl, hoff, rfl⟩

end VmkDrivers.Vmklinux
