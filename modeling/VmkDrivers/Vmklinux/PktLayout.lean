/-
  VmkDrivers.Vmklinux.PktLayout

  The headers of the packets that an adapter has to segment or to checksum
  (`map_pkt_to_skb` in `linux_net.c`).

  Such packets can wedge the adapter, so the function checks them.  It compares the
  length of the mapped head with the fixed IPv4 header only: the options, the transport
  header and the two TCP bytes that it reads may lie behind the head.  The sizes of a
  large packet are right otherwise, up to headers of 64 KiB, but for an encapsulated
  frame they are those of the outer header (`soundly_mapped_iff`).
-/

import VmkDrivers.Vmklinux.PktToSkb

namespace VmkDrivers.Vmklinux

/-! ## What is to hold -/

/-- The transport header of `protocol`: the inner one of an encapsulated frame, as the
    driver is told. -/
def PktHeaders.l4 (hd : PktHeaders) : Option Nat :=
  match hd.encap with
  | some e => some e.innerL4Off.toNat
  | none => hd.h

/-- The length of a TCP or UDP header at `l4`.  A TCP header has 20 bytes at least. -/
def l4HeaderLen (mem : Nat → UInt8) (protocol : UInt8) (l4 : Nat) : Nat :=
  if protocol = ipprotoTcp then max 20 (tcpHdrlen mem l4) else 8

/-- The Ethernet header ends at `nh`, the IP header at `h`, the transport header begins at
    `l4`: they are in the head, and so is all that was read. -/
structure HeadersInside (pkt : VmkPkt) (hd : PktHeaders) (reads : List Nat) (h l4 : Nat) :
    Prop where
  ip : hd.nh ≤ h
  transport : h ≤ pkt.headLen
  stop : l4 + l4HeaderLen pkt.mem hd.protocol l4 ≤ pkt.headLen
  reads : ∀ o ∈ reads, o < pkt.headLen

/-- A segment, or a frame that is not segmented, fits into the MTU with what follows the
    Ethernet header; a frame that is segmented has more than one segment. -/
def FitsLimits (dev : NetifDev) (pkt : VmkPkt) (hd : PktHeaders) : Prop :=
  match pkt.largeTcp with
  | some mss => ∀ l4, hd.l4 = some l4 →
    mss.1.toNat + (l4 + tcpHdrlen pkt.mem l4) ≤ dev.mtu.toNat + hd.nh ∧
      l4 + tcpHdrlen pkt.mem l4 + mss.1.toNat < pkt.frameLen.toNat
  | none => pkt.frameLen.toNat ≤ dev.mtu.toNat + hd.nh

/-- A packet that the function accepts has its headers in the head, and fits. -/
def SoundlyMapped (dev : NetifDev) (pkt : VmkPkt) : Prop :=
  ∀ alloc junk skb reads, mapPktToSkb dev pkt alloc junk = .ok (skb, reads) →
    ∃ hd, locateHeaders dev pkt = .ok hd ∧
      (pkt.offload = true → ∃ h l4, hd.h = some h ∧ hd.l4 = some l4 ∧
        HeadersInside pkt hd reads h l4) ∧
      FitsLimits dev pkt hd

/-- Where the headers end that the checks of a packet rely on; those of a large packet read
    14 bytes at `h`. -/
def headersEnd (pkt : VmkPkt) (hd : PktHeaders) (h l4 : Nat) : Nat :=
  max (h + if pkt.largeTcp.isSome then 14 else 0) (l4 + l4HeaderLen pkt.mem hd.protocol l4)

/-- The headers have 64 KiB, which `inetHdrLen` does not hold. -/
def LongHeaders (pkt : VmkPkt) (hd : PktHeaders) : Prop :=
  pkt.largeTcp.isSome = true ∧ ∃ h, hd.h = some h ∧ hd.nh + 65536 ≤ h + tcpHdrlen pkt.mem h

/-- The accepted packets for which this is so: the mapped head reaches to the end of the
    headers, and an encapsulated frame, or one with headers of 64 KiB, fits. -/
def HeadersMapped (dev : NetifDev) (pkt : VmkPkt) : Prop :=
  ∀ hd, locateHeaders dev pkt = .ok hd → (∃ alloc junk r, mapPktToSkb dev pkt alloc junk = .ok r) →
    (pkt.offload = true → ∀ h l4, hd.h = some h → hd.l4 = some l4 →
      headersEnd pkt hd h l4 ≤ pkt.headLen) ∧
    (hd.encap.isSome = true ∨ LongHeaders pkt hd → FitsLimits dev pkt hd)

/-! ## Where the headers are -/

section Located

variable {dev : NetifDev} {pkt : VmkPkt} {hd : PktHeaders}

structure Located (pkt : VmkPkt) (hd : PktHeaders) : Prop where
  ip : ∀ h, hd.h = some h → hd.nh ≤ h
  /-- The headers are found by bytes that precede them, or that were checked. -/
  reads : ∀ h, hd.h = some h → h ≤ pkt.headLen → ∀ o ∈ hd.reads, o < pkt.headLen
  /-- Without a transport header there is no protocol. -/
  found : hd.h = none → hd.protocol = 0xff ∧ hd.encap = none
  ehLen : hd.encap = none → hd.ehLen.toNat = hd.nh

theorem toNat_ofNat_ethHeaderLen (mem : Nat → UInt8) :
    (UInt32.ofNat (ethHeaderLen mem)).toNat = ethHeaderLen mem := by
  have := (le_ethHeaderLen mem).2
  exact UInt32.toNat_ofNat_of_lt' (Nat.lt_of_le_of_lt this (by decide))

theorem located_of_frameHeaders {vdl2 : Option InetLayout}
    (h : frameHeaders pkt vdl2 = .ok hd) : Located pkt hd := by
  have heth : ∀ o ∈ ethReads pkt.mem, o < ethHeaderLen pkt.mem := fun _ => ethReads_lt
  have hlen := toNat_ofNat_ethHeaderLen pkt.mem
  unfold frameHeaders at h
  dsimp only at h
  split_ifs at h with hip hshort hvdl2 hipv6
  · cases h
    refine ⟨fun h hh => ?_, fun h hh hle o ho => ?_, nofun, fun hnone => ?_⟩
    · cases hh
      exact Nat.le_add_right _ _
    · rcases List.mem_append.mp ho with ho | ho
      · have := heth o ho
        omega
      · simp only [List.mem_cons, List.not_mem_nil, or_false] at ho
        omega
    · cases vdl2 with
      | none => exact hlen
      | some l => cases hnone
  all_goals
    obtain rfl : vdl2 = none := by simpa using hvdl2
  · cases h
    refine ⟨fun h hh => ?_, fun h hh hle o ho => ?_, fun hh => ?_, fun _ => hlen⟩
    · obtain ⟨⟨h, proto⟩, hfound, rfl⟩ := Option.map_eq_some_iff.mp hh
      exact (ipv6SetHraw_reads hfound).1
    · obtain ⟨⟨h, proto⟩, hfound, rfl⟩ := Option.map_eq_some_iff.mp hh
      obtain ⟨hnh, hreads⟩ := ipv6SetHraw_reads hfound
      rcases List.mem_append.mp ho with ho | ho
      · exact Nat.lt_of_lt_of_le (heth o ho) (Nat.le_trans hnh hle)
      · exact Nat.lt_of_lt_of_le (hreads o ho) hle
    · have hfound := Option.map_eq_none_iff.mp hh
      simp [hfound]
  · cases h
    exact ⟨nofun, nofun, fun _ => ⟨rfl, rfl⟩, fun _ => hlen⟩

theorem located (h : locateHeaders dev pkt = .ok hd) : Located pkt hd := by
  unfold locateHeaders at h
  split at h
  · exact located_of_frameHeaders h
  · split_ifs at h
    · exact located_of_frameHeaders h
    · cases h
      refine ⟨fun h hh => ?_, fun _ _ _ => nofun, nofun, fun _ => rfl⟩
      cases hh
      exact Nat.le_add_right _ _

theorem Located.exists_h (hl : Located pkt hd)
    (hproto : hd.protocol = ipprotoTcp ∨ hd.protocol = ipprotoUdp) :
    ∃ h l4, hd.h = some h ∧ hd.l4 = some l4 := by
  cases hh : hd.h with
  | none =>
    rw [(hl.found hh).1] at hproto
    exact absurd hproto (by decide)
  | some h =>
    unfold PktHeaders.l4
    cases hd.encap with
    | none => exact ⟨h, h, rfl, hh⟩
    | some e => exact ⟨h, _, rfl, rfl⟩

end Located

/-! ## What the checks guarantee -/

section Checks

variable {dev : NetifDev} {pkt : VmkPkt} {hd : PktHeaders}

theorem checkTso_ok {mss : UInt32} {h : Nat} (hchk : checkTso dev pkt hd mss = .ok h) :
    hd.h = some h ∧ hd.protocol = ipprotoTcp ∧
      ¬pkt.frameLen - hd.ehLen - .ofNat (inetHdrLen pkt.mem hd.nh h) ≤ mss ∧
      ¬mss + .ofNat (inetHdrLen pkt.mem hd.nh h) > dev.mtu := by
  unfold checkTso at hchk
  cases hh : hd.h with
  | none =>
    rw [hh] at hchk
    split_ifs at hchk
  | some o =>
    rw [hh] at hchk
    dsimp only at hchk
    split_ifs at hchk with hip hproto hrunt hbig
    cases hchk
    exact ⟨rfl, not_not.mp hproto, hrunt, hbig⟩

theorem checkCsum_ok {r : Nat × IpSummed} (hchk : checkCsum pkt hd = .ok r)
    (hoff : pkt.offload = true) : hd.protocol = ipprotoTcp ∨ hd.protocol = ipprotoUdp := by
  unfold checkCsum csumOffset at hchk
  rw [if_pos hoff] at hchk
  by_contra hproto
  rw [not_or] at hproto
  rw [if_neg hproto.1, if_neg hproto.2] at hchk
  cases hchk

theorem checkOffload_ok {offload : TxOffload} {more : List Nat}
    (hchk : checkOffload dev pkt hd = .ok (offload, more)) :
    (pkt.offload = true → hd.protocol = ipprotoTcp ∨ hd.protocol = ipprotoUdp) ∧
      match pkt.largeTcp with
      | some mss => ∃ h, checkTso dev pkt hd mss = .ok h ∧ more = [h + 12, h + 13]
      | none => ¬pkt.frameLen - hd.ehLen > dev.mtu ∧ more = [] := by
  unfold checkOffload at hchk
  cases hl : pkt.largeTcp with
  | some mss =>
    rw [hl] at hchk
    dsimp only at hchk ⊢
    cases htso : checkTso dev pkt hd mss with
    | error e => rw [htso] at hchk; cases hchk
    | ok h =>
      rw [htso] at hchk
      cases hc : checkCsum pkt hd with
      | error e => rw [hc] at hchk; cases hchk
      | ok r =>
        rw [hc] at hchk
        cases hchk
        exact ⟨checkCsum_ok hc, h, rfl, rfl⟩
  | none =>
    rw [hl] at hchk
    split_ifs at hchk with hbig
    · cases hchk
    · cases hc : checkCsum pkt hd with
      | error e => rw [hc] at hchk; cases hchk
      | ok r =>
        rw [hc] at hchk
        cases hchk
        exact ⟨checkCsum_ok hc, hbig, rfl⟩

theorem tso_fits {frameLen ehLen mss mtu : UInt32} {hdr : Nat} (hhdr : hdr < 65536)
    (hin : ehLen.toNat + hdr ≤ frameLen.toNat) (hrunt : ¬frameLen - ehLen - .ofNat hdr ≤ mss)
    (hbig : ¬mss + .ofNat hdr > mtu) :
    mss.toNat + hdr ≤ mtu.toNat ∧ ehLen.toNat + hdr + mss.toNat < frameLen.toNat := by
  have hofNat : (UInt32.ofNat hdr).toNat = hdr := UInt32.toNat_ofNat_of_lt' (Nat.lt_trans hhdr (by decide))
  have hfirst : (frameLen - ehLen).toNat = frameLen.toNat - ehLen.toNat :=
    UInt32.toNat_sub_of_le _ _ (UInt32.le_iff_toNat_le.mpr (by omega))
  have hsecond : (frameLen - ehLen - .ofNat hdr).toNat = frameLen.toNat - ehLen.toNat - hdr := by
    rw [UInt32.toNat_sub_of_le _ _ (UInt32.le_iff_toNat_le.mpr (by omega)), hfirst, hofNat]
  rw [UInt32.le_iff_toNat_le, hsecond] at hrunt
  have hframe := frameLen.toNat_lt
  have hsum : (mss + .ofNat hdr).toNat = mss.toNat + hdr := by
    rw [UInt32.toNat_add, hofNat]
    exact Nat.mod_eq_of_lt (by omega)
  rw [gt_iff_lt, UInt32.lt_iff_toNat_lt, hsum] at hbig
  omega

theorem frame_fits {frameLen ehLen mtu : UInt32} (hbig : ¬frameLen - ehLen > mtu) :
    frameLen.toNat ≤ mtu.toNat + ehLen.toNat := by
  rw [gt_iff_lt, UInt32.lt_iff_toNat_lt, UInt32.toNat_sub] at hbig
  have hframe := frameLen.toNat_lt
  have heh := ehLen.toNat_lt
  omega

end Checks

/-! ## The function -/

section Map

variable {dev : NetifDev} {pkt : VmkPkt} {hd : PktHeaders} {alloc : Bool} {junk : UInt16}

theorem checked_of_map {skb : TxSkb} {reads : List Nat}
    (h : mapPktToSkb dev pkt alloc junk = .ok (skb, reads)) :
    ∃ hd offload more, locateHeaders dev pkt = .ok hd ∧
      checkOffload dev pkt hd = .ok (offload, more) ∧ reads = hd.reads ++ more := by
  unfold mapPktToSkb at h
  split_ifs at h
  cases hchk : checkPkt dev pkt with
  | error e => rw [hchk] at h; cases h
  | ok r =>
    obtain ⟨hd, offload, reads'⟩ := r
    rw [hchk] at h
    dsimp only at h
    cases hloop : fragLoop pkt (hd.sgInspected junk) maxSkbFrags
        (pkt.frameLen.toNat - pkt.headLen) with
    | error e => rw [hloop] at h; cases h
    | ok frags =>
      rw [hloop] at h
      cases h
      obtain ⟨more, hloc, hoff, hreads⟩ := checkPkt_eq_ok hchk
      exact ⟨hd, offload, more, hloc, hoff, hreads⟩

theorem fitsLimits_of_checks {offload : TxOffload} {more : List Nat} (hl : Located pkt hd)
    (hchk : checkOffload dev pkt hd = .ok (offload, more)) (hencap : hd.encap = none)
    (hshort : ¬LongHeaders pkt hd)
    (hend : pkt.offload = true → ∀ h l4, hd.h = some h → hd.l4 = some l4 →
      headersEnd pkt hd h l4 ≤ pkt.headLen) : FitsLimits dev pkt hd := by
  have heh := hl.ehLen hencap
  have hhead : pkt.headLen ≤ pkt.frameLen.toNat := Nat.min_le_right _ _
  obtain ⟨hproto, hlimits⟩ := checkOffload_ok hchk
  unfold FitsLimits
  cases hlarge : pkt.largeTcp with
  | none =>
    rw [hlarge] at hlimits
    rw [← heh]
    exact frame_fits hlimits.1
  | some mss =>
    rw [hlarge] at hlimits
    obtain ⟨h, htso, -⟩ := hlimits
    obtain ⟨hh, htcp, hrunt, hbig⟩ := checkTso_ok htso
    have hl4 : hd.l4 = some h := by rw [PktHeaders.l4, hencap, hh]
    intro l4 hl4'
    cases hl4.symm.trans hl4'
    have hnh := hl.ip h hh
    have hlen : h + tcpHdrlen pkt.mem h < hd.nh + 65536 := by
      by_contra hlong
      exact hshort ⟨by rw [hlarge]; rfl, h, hh, Nat.not_lt.mp hlong⟩
    have hin : h + tcpHdrlen pkt.mem h ≤ pkt.headLen := by
      have hle := hend (by simp [VmkPkt.offload, hlarge]) h h hh hl4
      rw [headersEnd, l4HeaderLen, if_pos htcp] at hle
      omega
    have hinet : inetHdrLen pkt.mem hd.nh h = h + tcpHdrlen pkt.mem h - hd.nh :=
      Nat.mod_eq_of_lt (by omega)
    rw [hinet] at hrunt hbig
    have hfits := tso_fits (by omega) (by omega) hrunt hbig
    omega

/-- **The headers** that an adapter relies on are in the mapped head, and the frame fits,
    exactly for the packets whose head reaches to the end of these headers and which, if
    encapsulated or with headers of 64 KiB, fit. -/
theorem soundly_mapped_iff : SoundlyMapped dev pkt ↔ HeadersMapped dev pkt := by
  constructor
  · intro hsound hd hloc ⟨alloc, junk, ⟨skb, reads⟩, hmap⟩
    obtain ⟨hd', offload, more, hloc', hchk, rfl⟩ := checked_of_map hmap
    cases hloc.symm.trans hloc'
    obtain ⟨hd', hloc', hinside, hfits⟩ := hsound alloc junk skb _ hmap
    cases hloc.symm.trans hloc'
    refine ⟨fun hoff h l4 hh hl4 => ?_, fun _ => hfits⟩
    obtain ⟨h', l4', hh', hl4', hin⟩ := hinside hoff
    cases hh.symm.trans hh'
    cases hl4.symm.trans hl4'
    refine Nat.max_le.mpr ⟨?_, hin.stop⟩
    have hlimits := (checkOffload_ok hchk).2
    cases hlarge : pkt.largeTcp with
    | none => exact hin.transport
    | some mss =>
      -- the flags of the TCP header were read
      rw [hlarge] at hlimits
      obtain ⟨t, htso, rfl⟩ := hlimits
      cases hh.symm.trans (checkTso_ok htso).1
      exact hin.reads (h + 13) (by simp)
  · intro hmapped alloc junk skb reads hmap
    obtain ⟨hd, offload, more, hloc, hchk, rfl⟩ := checked_of_map hmap
    obtain ⟨hend, hexcept⟩ := hmapped hd hloc ⟨alloc, junk, _, hmap⟩
    have hl := located hloc
    obtain ⟨hproto, hlimits⟩ := checkOffload_ok hchk
    refine ⟨hd, hloc, fun hoff => ?_, ?_⟩
    · obtain ⟨h, l4, hh, hl4⟩ := hl.exists_h (hproto hoff)
      obtain ⟨hread, hstop⟩ := Nat.max_le.mp (hend hoff h l4 hh hl4)
      have hle : h ≤ pkt.headLen := Nat.le_trans (Nat.le_add_right _ _) hread
      refine ⟨h, l4, hh, hl4, hl.ip h hh, hle, hstop, fun o ho => ?_⟩
      rcases List.mem_append.mp ho with ho | ho
      · exact hl.reads h hh hle o ho
      · cases hlarge : pkt.largeTcp with
        | none =>
          rw [hlarge] at hlimits
          obtain ⟨-, rfl⟩ := hlimits
          cases ho
        | some mss =>
          rw [hlarge] at hlimits hread
          obtain ⟨t, htso, rfl⟩ := hlimits
          cases hh.symm.trans (checkTso_ok htso).1
          simp only [Option.isSome_some, if_true] at hread
          simp only [List.mem_cons, List.not_mem_nil, or_false] at ho
          omega
    · by_cases hspecial : hd.encap.isSome = true ∨ LongHeaders pkt hd
      · exact hexcept hspecial
      · rw [not_or] at hspecial
        exact fitsLimits_of_checks hl hchk (by simpa using hspecial.1) hspecial.2 hend

/-- A TCP packet over IPv4 to be checksummed: 34 of 100 bytes are mapped, the header of 20
    bytes by its length, and options up to byte 74. -/
def optionsPkt : VmkPkt where
  mem := fun o => if o = 12 then 8 else if o = 14 then 0x4f else if o = 23 then 6 else 0
  mappedLen := 34
  head := ⟨0x1000, 34⟩
  more := [⟨0x5000, 66⟩]
  frameLen := 100
  layout := none
  encapsulated := false
  mustCsum := true
  largeTcp := none
  mapped_pos := by decide
  mapped_le := by decide
  room := by decide
  few := by decide

theorem not_soundly_mapped : ¬SoundlyMapped ⟨0, 1500⟩ optionsPkt := by
  intro hsound
  obtain ⟨hd, hloc, hinside, -⟩ := hsound true 0 _ _ rfl
  obtain ⟨h, l4, hh, -, hin⟩ := hinside rfl
  have hend : (locateHeaders ⟨0, 1500⟩ optionsPkt).map PktHeaders.h = .ok (some 74) := rfl
  rw [hloc] at hend
  cases hh.symm.trans (Except.ok.inj hend)
  exact absurd hin.transport (by decide)

end Map

end VmkDrivers.Vmklinux
