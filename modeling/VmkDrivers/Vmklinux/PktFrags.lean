/-
  VmkDrivers.Vmklinux.PktFrags

  The fragments of an outgoing socket buffer (`map_pkt_to_skb` in `linux_net.c`).

  The socket buffer is to describe the frame: the mapped head, and behind it the pieces
  of the other fragments up to the length of the frame.  The loop over the fragments
  starts from `sgInspected`, which the branch for packets with layout attributes does not
  set, and the size of a fragment has 16 bits.  Two of the checks fail without a message.
  The theorem (`maps_exactly_iff`) names the packets for which none of this matters.
-/

import VmkDrivers.Vmklinux.PktToSkb

namespace VmkDrivers.Vmklinux

/-! ## The frame in pieces -/

/-- The pieces of `frags` that hold the next `left` bytes. -/
def cutFrags : (left : Nat) → List PktFrag → List PktFrag
  | 0, _ => []
  | _ + 1, [] => []
  | left + 1, f :: fs => ⟨f.addr, min f.length (left + 1)⟩ :: cutFrags (left + 1 - f.length) fs

def VmkPkt.pieces (pkt : VmkPkt) : List PktFrag :=
  cutFrags (pkt.frameLen.toNat - pkt.headLen) pkt.more

def SkbFrag.piece (f : SkbFrag) : PktFrag := ⟨f.page * 4096 + f.pageOffset, f.size⟩

def PktFrag.bytes (f : PktFrag) : List Nat := List.range' f.addr f.length

theorem PktFrag.piece_toSkbFrag {f : PktFrag} {left : Nat} (h : min f.length left < 65536) :
    (f.toSkbFrag left).piece = ⟨f.addr, min f.length left⟩ := by
  simp only [toSkbFrag, SkbFrag.piece, PktFrag.mk.injEq]
  exact ⟨Nat.div_add_mod' _ _, Nat.mod_eq_of_lt h⟩

theorem PktFrag.take_bytes (f : PktFrag) (n : Nat) :
    f.bytes.take n = (⟨f.addr, min f.length n⟩ : PktFrag).bytes := by
  refine List.ext_getElem ?_ fun i _ _ => ?_
  · simp [bytes, Nat.min_comm]
  · simp [bytes]

theorem bytes_cutFrags (left : Nat) (frags : List PktFrag) :
    (cutFrags left frags).flatMap PktFrag.bytes = (frags.flatMap PktFrag.bytes).take left := by
  induction frags generalizing left with
  | nil => cases left <;> simp [cutFrags]
  | cons f fs ih =>
    cases left with
    | zero => simp [cutFrags]
    | succ left =>
      rw [cutFrags, List.flatMap_cons, List.flatMap_cons, ih, List.take_append, PktFrag.take_bytes]
      simp [PktFrag.bytes]

theorem cutFrags_length_le (left : Nat) (frags : List PktFrag) :
    (cutFrags left frags).length ≤ frags.length := by
  induction frags generalizing left with
  | nil => cases left <;> simp [cutFrags]
  | cons f fs ih =>
    cases left with
    | zero => simp [cutFrags]
    | succ left => simpa [cutFrags] using ih _

/-! ## The claim -/

structure Describes (pkt : VmkPkt) (skb : TxSkb) : Prop where
  len : skb.len = pkt.frameLen
  head : skb.head = ⟨pkt.head.addr, min pkt.head.length pkt.frameLen.toNat⟩
  frags : skb.frags.map SkbFrag.piece = pkt.pieces
  dataLen : skb.dataLen = (skb.frags.map SkbFrag.size).sum
  nrFrags : skb.nrFrags = skb.frags.length
  room : skb.frags.length ≤ maxSkbFrags

theorem Describes.bytes {pkt : VmkPkt} {skb : TxSkb} (h : Describes pkt skb)
    (hhead : pkt.mappedLen = pkt.head.length) :
    (skb.head :: skb.frags.map SkbFrag.piece).flatMap PktFrag.bytes =
      ((pkt.head :: pkt.more).flatMap PktFrag.bytes).take pkt.frameLen.toNat := by
  rw [h.head, h.frags, List.flatMap_cons, List.flatMap_cons, List.take_append,
    PktFrag.take_bytes, VmkPkt.pieces, bytes_cutFrags]
  have hlen : pkt.frameLen.toNat - pkt.headLen = pkt.frameLen.toNat - pkt.head.bytes.length := by
    simp only [VmkPkt.headLen, PktFrag.bytes, List.length_range']
    omega
  rw [hlen]

/-- What the function is to do with a packet. -/
structure MapsExactly (dev : NetifDev) (pkt : VmkPkt) (alloc : Bool) : Prop where
  exact : ∀ junk skb reads, mapPktToSkb dev pkt alloc junk = .ok (skb, reads) → Describes pkt skb
  determined : ∀ junk junk', mapPktToSkb dev pkt alloc junk = mapPktToSkb dev pkt alloc junk'
  /-- A failure leaves a message, and the one about the fragments is true. -/
  reported : ∀ junk e, mapPktToSkb dev pkt alloc junk = .error e →
    e.logged = true ∧ (e = .tooManyFrags → maxSkbFrags < pkt.pieces.length)
  accepted : (∃ r, checkPkt dev pkt = .ok r) → pkt.more.length < maxSkbFrags →
    ∀ junk, ∃ r, mapPktToSkb dev pkt alloc junk = .ok r

/-- The packets that take the branch `pkt_w_layout && !vdl2_encap`. -/
def usesLayout (dev : NetifDev) (pkt : VmkPkt) : Bool :=
  dev.anyEncap && pkt.layout.isSome && !vdl2Encap dev pkt

/-- The packets for which the function does so. -/
structure Mappable (dev : NetifDev) (pkt : VmkPkt) (alloc : Bool) : Prop where
  skb : alloc = true
  /-- The IP header is in the head, and the outer header of an encapsulated frame is IPv4. -/
  ipv4 : usesLayout dev pkt = false →
    (ethHeaderFrameType pkt.mem = ethPIp → ethHeaderLen pkt.mem + 20 ≤ pkt.headLen) ∧
    (dev.anyEncap = true ∧ pkt.layout.isSome = true → ethHeaderFrameType pkt.mem = ethPIp)
  /-- A frame that is longer than the head has no layout attributes in use, and no piece of
      64 KiB or more unless it has too many pieces. -/
  beyond : (∃ r, checkPkt dev pkt = .ok r) → pkt.mappedLen < pkt.frameLen.toNat →
    usesLayout dev pkt = false ∧
      (maxSkbFrags < pkt.pieces.length ∨ ∀ p ∈ pkt.pieces, p.length < 65536)

/-! ## The loop -/

section Loop

variable {pkt : VmkPkt}

theorem VmkPkt.fragGet_succ (pkt : VmkPkt) {k : Nat} (hk : k ≤ pkt.more.length) :
    pkt.fragGet ((k + 1) % 65536) = (pkt.more.drop k).head? := by
  have := pkt.few
  rw [Nat.mod_eq_of_lt (by omega)]
  simp [fragGet]

theorem fragLoop_exact (pkt : VmkPkt) (fs : List PktFrag) (k room left : Nat)
    (hfs : pkt.more.drop k = fs) (hk : k ≤ pkt.more.length)
    (hleft : left ≤ (fs.map PktFrag.length).sum)
    (hsize : ∀ p ∈ cutFrags left fs, p.length < 65536) (hroom : (cutFrags left fs).length ≤ room) :
    ∃ frags, fragLoop pkt (k + 1) room left = .ok frags ∧
      frags.map SkbFrag.piece = cutFrags left fs := by
  induction fs generalizing k room left with
  | nil =>
    obtain rfl : left = 0 := by simpa using hleft
    exact ⟨[], by simp [fragLoop], by simp [cutFrags]⟩
  | cons f fs ih =>
    cases left with
    | zero => exact ⟨[], by simp [fragLoop], by simp [cutFrags]⟩
    | succ left =>
      rw [cutFrags] at hsize hroom
      obtain ⟨hf, hsize⟩ := List.forall_mem_cons.mp hsize
      cases room with
      | zero => simp at hroom
      | succ room =>
        have hlt : k < pkt.more.length := by
          have := congrArg List.length hfs
          simp at this
          omega
        have hget := pkt.fragGet_succ hk
        rw [hfs, List.head?_cons] at hget
        have hrest : left + 1 - (f.toSkbFrag (left + 1)).size = left + 1 - f.length := by
          have : (f.toSkbFrag (left + 1)).size = min f.length (left + 1) := Nat.mod_eq_of_lt hf
          omega
        simp only [List.map_cons, List.sum_cons] at hleft
        obtain ⟨frags, hloop, hpieces⟩ := ih (k + 1) room (left + 1 - f.length)
          (by rw [← List.drop_drop, hfs]; rfl) hlt (by omega) hsize (by simpa using hroom)
        refine ⟨f.toSkbFrag (left + 1) :: frags, ?_, ?_⟩
        · simp only [fragLoop, hget, hrest, hloop, Except.map]
        · rw [List.map_cons, hpieces, PktFrag.piece_toSkbFrag hf, cutFrags]

theorem fragLoop_tooMany (pkt : VmkPkt) (fs : List PktFrag) (k room left left' : Nat)
    (hfs : pkt.more.drop k = fs) (hk : k ≤ pkt.more.length) (hle : left ≤ left')
    (hroom : room < (cutFrags left fs).length) :
    fragLoop pkt (k + 1) room left' = .error .tooManyFrags := by
  induction fs generalizing k room left left' with
  | nil => cases left <;> simp [cutFrags] at hroom
  | cons f fs ih =>
    cases left with
    | zero => simp [cutFrags] at hroom
    | succ left =>
      obtain ⟨left', rfl⟩ : ∃ n, left' = n + 1 := ⟨left' - 1, by omega⟩
      cases room with
      | zero => rfl
      | succ room =>
        have hlt : k < pkt.more.length := by
          have := congrArg List.length hfs
          simp at this
          omega
        have hget := pkt.fragGet_succ hk
        rw [hfs, List.head?_cons] at hget
        have hsize : (f.toSkbFrag (left' + 1)).size ≤ min f.length (left' + 1) := Nat.mod_le _ _
        rw [cutFrags, List.length_cons] at hroom
        simp only [fragLoop, hget]
        rw [ih (k + 1) room (left + 1 - f.length) _ (by rw [← List.drop_drop, hfs]; rfl) hlt
          (by omega) (by omega)]
        rfl

theorem fragLoop_returns (pkt : VmkPkt) (i room left : Nat) :
    match fragLoop pkt i room left with
    | .error e => e = .noFrag ∨ e = .tooManyFrags
    | .ok frags => frags.length ≤ room ∧ ∀ f ∈ frags, f.size < 65536 := by
  induction room generalizing i left with
  | zero => cases left <;> simp [fragLoop]
  | succ room ih =>
    cases left with
    | zero => simp [fragLoop]
    | succ left =>
      simp only [fragLoop]
      cases pkt.fragGet (i % 65536) with
      | none => exact .inl rfl
      | some f =>
        have h := ih (i + 1) (left + 1 - (f.toSkbFrag (left + 1)).size)
        dsimp only
        cases hloop : fragLoop pkt (i + 1) room (left + 1 - (f.toSkbFrag (left + 1)).size) with
        | error e => rw [hloop] at h; exact h
        | ok frags =>
          rw [hloop] at h
          refine ⟨Nat.succ_le_succ h.1, fun g hg => ?_⟩
          rcases List.mem_cons.mp hg with rfl | hg
          · exact Nat.mod_lt _ (by decide)
          · exact h.2 g hg

end Loop

/-! ## Which checks fail without a message -/

section Checks

variable {dev : NetifDev} {pkt : VmkPkt} {vdl2 : Option InetLayout} {hd : PktHeaders}
  {e : MapFailure}

theorem locateHeaders_eq :
    locateHeaders dev pkt = match pkt.layout with
      | some l =>
        if usesLayout dev pkt then .ok (layoutHeaders l)
        else frameHeaders pkt (if dev.anyEncap then some l else none)
      | none => frameHeaders pkt none := by
  unfold locateHeaders usesLayout
  cases hl : pkt.layout with
  | none => simp
  | some l => cases dev.anyEncap <;> cases vdl2Encap dev pkt <;> simp

theorem frameHeaders_fromLayout (h : frameHeaders pkt vdl2 = .ok hd) : hd.fromLayout = false := by
  unfold frameHeaders at h
  dsimp only at h
  split_ifs at h <;> cases h <;> rfl

theorem fromLayout_eq (h : locateHeaders dev pkt = .ok hd) :
    hd.fromLayout = usesLayout dev pkt := by
  rw [locateHeaders_eq] at h
  cases hl : pkt.layout with
  | none =>
    rw [hl] at h
    rw [frameHeaders_fromLayout h]
    simp [usesLayout, hl]
  | some l =>
    rw [hl] at h
    split_ifs at h with huse
    · cases h
      exact huse.symm
    all_goals
      rw [frameHeaders_fromLayout h]
      simpa using huse

theorem frameHeaders_ok_iff :
    (∃ hd, frameHeaders pkt vdl2 = .ok hd) ↔
      (ethHeaderFrameType pkt.mem = ethPIp → ethHeaderLen pkt.mem + 20 ≤ pkt.headLen) ∧
        (vdl2.isSome = true → ethHeaderFrameType pkt.mem = ethPIp) := by
  unfold frameHeaders
  dsimp only
  split_ifs <;> simp_all

theorem frameHeaders_error (h : frameHeaders pkt vdl2 = .error e) : e.logged = false := by
  unfold frameHeaders at h
  dsimp only at h
  split_ifs at h <;> cases h <;> rfl

theorem checkCsum_error (h : checkCsum pkt hd = .error e) :
    e.logged = true ∧ e ≠ .tooManyFrags := by
  unfold checkCsum csumOffset at h
  split_ifs at h <;> cases h <;> exact ⟨rfl, nofun⟩

theorem checkTso_error {mss : UInt32} (h : checkTso dev pkt hd mss = .error e) :
    e.logged = true ∧ e ≠ .tooManyFrags := by
  unfold checkTso at h
  cases hh : hd.h with
  | none =>
    rw [hh] at h
    split_ifs at h <;> cases h <;> exact ⟨rfl, nofun⟩
  | some o =>
    rw [hh] at h
    dsimp only at h
    split_ifs at h <;> cases h <;> exact ⟨rfl, nofun⟩

theorem checkOffload_error (h : checkOffload dev pkt hd = .error e) :
    e.logged = true ∧ e ≠ .tooManyFrags := by
  unfold checkOffload at h
  cases hl : pkt.largeTcp with
  | some mss =>
    rw [hl] at h
    dsimp only at h
    cases htso : checkTso dev pkt hd mss with
    | error e' =>
      rw [htso] at h
      cases h
      exact checkTso_error htso
    | ok p =>
      rw [htso] at h
      cases hc : checkCsum pkt hd with
      | error e' =>
        rw [hc] at h
        cases h
        exact checkCsum_error hc
      | ok q => rw [hc] at h; cases h
  | none =>
    rw [hl] at h
    split_ifs at h
    · cases h
      exact ⟨rfl, nofun⟩
    · cases hc : checkCsum pkt hd with
      | error e' =>
        rw [hc] at h
        cases h
        exact checkCsum_error hc
      | ok q => rw [hc] at h; cases h

theorem locateHeaders_ok_iff :
    (∃ hd, locateHeaders dev pkt = .ok hd) ↔
      (usesLayout dev pkt = false →
        (ethHeaderFrameType pkt.mem = ethPIp → ethHeaderLen pkt.mem + 20 ≤ pkt.headLen) ∧
        (dev.anyEncap = true ∧ pkt.layout.isSome = true →
          ethHeaderFrameType pkt.mem = ethPIp)) := by
  rw [locateHeaders_eq]
  cases hl : pkt.layout with
  | none =>
    rw [frameHeaders_ok_iff]
    simp [usesLayout, hl]
  | some l =>
    split_ifs with huse hany
    · simp [huse]
    · rw [frameHeaders_ok_iff]
      simp [huse, hany]
    · rw [frameHeaders_ok_iff]
      simp [huse, hany]

theorem locateHeaders_error (h : locateHeaders dev pkt = .error e) : e.logged = false := by
  rw [locateHeaders_eq] at h
  cases hl : pkt.layout with
  | none =>
    rw [hl] at h
    exact frameHeaders_error h
  | some l =>
    rw [hl] at h
    split_ifs at h
    · exact frameHeaders_error h
    · exact frameHeaders_error h

theorem checkPkt_error (h : checkPkt dev pkt = .error e) :
    e ≠ .tooManyFrags ∧ (e.logged = true ↔ ∃ hd, locateHeaders dev pkt = .ok hd) := by
  unfold checkPkt at h
  cases hloc : locateHeaders dev pkt with
  | error e' =>
    rw [hloc] at h
    cases h
    have hsilent := locateHeaders_error hloc
    refine ⟨fun he => ?_, by simp [hsilent]⟩
    rw [he] at hsilent
    cases hsilent
  | ok hd =>
    rw [hloc] at h
    change (checkOffload dev pkt hd).bind _ = _ at h
    cases hoff : checkOffload dev pkt hd with
    | error e' =>
      rw [hoff] at h
      cases h
      obtain ⟨hlogged, hne⟩ := checkOffload_error hoff
      exact ⟨hne, by simp [hlogged]⟩
    | ok p =>
      rw [hoff] at h
      cases h

end Checks

/-! ## The function -/

section Map

variable {dev : NetifDev} {pkt : VmkPkt} {hd : PktHeaders} {offload : TxOffload} {reads : List Nat}

theorem mapPktToSkb_of_checked (hchk : checkPkt dev pkt = .ok (hd, offload, reads))
    (junk : UInt16) :
    mapPktToSkb dev pkt true junk =
      (fragLoop pkt (if usesLayout dev pkt then junk.toNat else 1) maxSkbFrags
        (pkt.frameLen.toNat - pkt.headLen)).map fun frags =>
          ({ len := pkt.frameLen
             head := ⟨pkt.head.addr, pkt.headLen⟩
             nh := hd.nh
             h := hd.h
             protocol := hd.skbProtocol
             encap := hd.encap
             offload
             frags
             dataLen := (frags.map SkbFrag.size).sum
             nrFrags := frags.length }, reads) := by
  obtain ⟨_, hloc, -⟩ := checkPkt_eq_ok hchk
  rw [← fromLayout_eq hloc]
  unfold mapPktToSkb
  rw [hchk]
  rfl

theorem mapPktToSkb_layout (hchk : checkPkt dev pkt = .ok (hd, offload, reads))
    (huse : usesLayout dev pkt = true) (hmore : pkt.headLen < pkt.frameLen.toNat) :
    mapPktToSkb dev pkt true 65535 = .error .noFrag := by
  rw [mapPktToSkb_of_checked hchk, huse]
  have hget : pkt.fragGet (65535 % 65536) = none :=
    List.getElem?_eq_none (by have := pkt.few; rw [List.length_cons]; omega)
  obtain ⟨left, hleft⟩ : ∃ n, pkt.frameLen.toNat - pkt.headLen = n + 1 :=
    ⟨pkt.frameLen.toNat - pkt.headLen - 1, by omega⟩
  rw [hleft]
  change (fragLoop pkt 65535 (23 + 1) (left + 1)).map _ = _
  simp only [fragLoop, hget, Except.map]

theorem mapPktToSkb_of_error {e : MapFailure} (hchk : checkPkt dev pkt = .error e)
    (junk : UInt16) : mapPktToSkb dev pkt true junk = .error e := by
  unfold mapPktToSkb
  rw [hchk]
  rfl

theorem Mappable.outcome {alloc : Bool} (hm : Mappable dev pkt alloc)
    (hhead : pkt.mappedLen = pkt.head.length)
    (hchk : checkPkt dev pkt = .ok (hd, offload, reads)) :
    (maxSkbFrags < pkt.pieces.length ∧
      ∀ junk, mapPktToSkb dev pkt alloc junk = .error .tooManyFrags) ∨
    ∃ skb, Describes pkt skb ∧ ∀ junk, mapPktToSkb dev pkt alloc junk = .ok (skb, reads) := by
  obtain rfl := hm.skb
  have hdesc (frags : List SkbFrag) (hpieces : frags.map SkbFrag.piece = pkt.pieces)
      (hroom : pkt.pieces.length ≤ maxSkbFrags) :
      Describes pkt
        { len := pkt.frameLen, head := ⟨pkt.head.addr, pkt.headLen⟩, nh := hd.nh, h := hd.h,
          protocol := hd.skbProtocol, encap := hd.encap, offload, frags,
          dataLen := (frags.map SkbFrag.size).sum, nrFrags := frags.length } :=
    { len := rfl
      head := by rw [VmkPkt.headLen, hhead]
      frags := hpieces
      dataLen := rfl
      nrFrags := rfl
      room := by rw [← List.length_map SkbFrag.piece, hpieces]; exact hroom }
  by_cases hlong : pkt.mappedLen < pkt.frameLen.toNat
  · obtain ⟨huse, hsize⟩ := hm.beyond ⟨_, hchk⟩ hlong
    by_cases hmany : maxSkbFrags < pkt.pieces.length
    · refine .inl ⟨hmany, fun junk => ?_⟩
      rw [mapPktToSkb_of_checked hchk, huse]
      have hloop := fragLoop_tooMany pkt pkt.more 0 maxSkbFrags
        (pkt.frameLen.toNat - pkt.headLen) _ rfl (Nat.zero_le _) (Nat.le_refl _) hmany
      exact congrArg (Except.map _) hloop
    · have hle : pkt.pieces.length ≤ maxSkbFrags := Nat.not_lt.mp hmany
      have hroom := pkt.room
      obtain ⟨frags, hloop, hpieces⟩ := fragLoop_exact pkt pkt.more 0 maxSkbFrags
        (pkt.frameLen.toNat - pkt.headLen) rfl (Nat.zero_le _)
        (by simp only [VmkPkt.headLen]; omega) (hsize.resolve_left hmany) hle
      refine .inr ⟨_, hdesc frags hpieces hle, fun junk => ?_⟩
      rw [mapPktToSkb_of_checked hchk, huse]
      exact congrArg (Except.map _) hloop
  · -- the head is the whole frame
    have hleft : pkt.frameLen.toNat - pkt.headLen = 0 := by simp only [VmkPkt.headLen]; omega
    have hnone : pkt.pieces = [] := by simp [VmkPkt.pieces, hleft, cutFrags]
    refine .inr ⟨_, hdesc [] hnone.symm (by simp [hnone]), fun junk => ?_⟩
    rw [mapPktToSkb_of_checked hchk, hleft]
    simp [fragLoop, maxSkbFrags, Except.map]

theorem MapsExactly.mappable {alloc : Bool} (h : MapsExactly dev pkt alloc)
    (hhead : pkt.mappedLen = pkt.head.length) : Mappable dev pkt alloc := by
  have hskb : alloc = true := by
    cases alloc with
    | true => rfl
    | false => exact nomatch (h.reported 0 .noSkb rfl).1
  subst hskb
  refine ⟨rfl, ?_, fun ⟨r, hchk⟩ hlong => ?_⟩
  · rw [← locateHeaders_ok_iff]
    cases hchk : checkPkt dev pkt with
    | error e => exact (checkPkt_error hchk).2.mp (h.reported 0 e (mapPktToSkb_of_error hchk 0)).1
    | ok r =>
      obtain ⟨_, hloc, -⟩ := checkPkt_eq_ok hchk
      exact ⟨_, hloc⟩
  · obtain ⟨hd, offload, reads⟩ := r
    have hmore : pkt.headLen < pkt.frameLen.toNat := by simp only [VmkPkt.headLen]; omega
    have huse : usesLayout dev pkt = false := by
      refine Bool.eq_false_iff.mpr fun huse => ?_
      exact nomatch (h.reported 65535 .noFrag (mapPktToSkb_layout hchk huse hmore)).1
    refine ⟨huse, or_iff_not_imp_left.mpr fun hmany p hp => ?_⟩
    have hmap := mapPktToSkb_of_checked hchk 0
    have hreturns := fragLoop_returns pkt 1 maxSkbFrags
      (pkt.frameLen.toNat - pkt.headLen)
    rw [huse] at hmap
    change _ = Except.map _ (fragLoop pkt 1 _ _) at hmap
    cases hloop : fragLoop pkt 1 maxSkbFrags (pkt.frameLen.toNat - pkt.headLen) with
    | error e =>
      rw [hloop] at hmap hreturns
      obtain ⟨hlogged, htrue⟩ := h.reported 0 e hmap
      rcases hreturns with rfl | rfl
      · cases hlogged
      · exact absurd (htrue rfl) hmany
    | ok frags =>
      rw [hloop] at hmap hreturns
      have hpieces := (h.exact 0 _ _ hmap).frags
      rw [← hpieces] at hp
      obtain ⟨f, hf, rfl⟩ := List.mem_map.mp hp
      exact hreturns.2 f hf

/-- **The socket buffer** describes the packet, the outcome is determined and a failure is
    reported exactly if there is a socket buffer, no IPv4 header is missing, and what lies
    behind the head has no layout attributes in use and pieces that 16 bits can measure. -/
theorem maps_exactly_iff {alloc : Bool} (hhead : pkt.mappedLen = pkt.head.length) :
    MapsExactly dev pkt alloc ↔ Mappable dev pkt alloc := by
  refine ⟨fun h => h.mappable hhead, fun hm => ?_⟩
  obtain rfl := hm.skb
  cases hchk : checkPkt dev pkt with
  | error e =>
    have hmap := mapPktToSkb_of_error hchk
    obtain ⟨hne, hlogged⟩ := checkPkt_error hchk
    refine ⟨fun junk skb reads hok => ?_, fun junk junk' => ?_, fun junk e' he => ?_,
      fun ⟨_, hok⟩ => ?_⟩
    · exact nomatch (hmap junk).symm.trans hok
    · rw [hmap, hmap]
    · cases (hmap junk).symm.trans he
      exact ⟨hlogged.mpr (locateHeaders_ok_iff.mpr hm.ipv4), fun h => absurd h hne⟩
    · exact nomatch hchk.symm.trans hok
  | ok r =>
    obtain ⟨hd, offload, reads⟩ := r
    rcases hm.outcome hhead hchk with ⟨hmany, hmap⟩ | ⟨skb, hdesc, hmap⟩
    · refine ⟨fun junk skb reads hok => ?_, fun junk junk' => ?_, fun junk e he => ?_,
        fun _ hfew => ?_⟩
      · exact nomatch (hmap junk).symm.trans hok
      · rw [hmap, hmap]
      · cases (hmap junk).symm.trans he
        exact ⟨rfl, fun _ => hmany⟩
      · have : pkt.pieces.length ≤ pkt.more.length := cutFrags_length_le _ _
        omega
    · refine ⟨fun junk skb' reads' hok => ?_, fun junk junk' => ?_, fun junk e he => ?_,
        fun _ _ junk => ⟨_, hmap junk⟩⟩
      · cases (hmap junk).symm.trans hok
        exact hdesc
      · rw [hmap, hmap]
      · exact nomatch (hmap junk).symm.trans he

def twoPiecePkt (layout : Option InetLayout) : VmkPkt where
  mem := fun _ => 0
  mappedLen := 40
  head := ⟨0x1000, 40⟩
  more := [⟨0x5000, 100⟩]
  frameLen := 60
  layout := layout
  encapsulated := false
  mustCsum := false
  largeTcp := none
  mapped_pos := by decide
  mapped_le := by decide
  room := by decide
  few := by decide

theorem maps_exactly_short : MapsExactly ⟨0, 1500⟩ (twoPiecePkt none) true := by
  refine (maps_exactly_iff rfl).mpr ⟨rfl, fun _ => ⟨fun h => ?_, fun h => ?_⟩, fun _ _ => ?_⟩
  · exact absurd h (by decide)
  · exact absurd h (by decide)
  · exact ⟨by decide, .inr (by decide)⟩

/-- The adapter takes offsets with the offload, so the packet's layout is used. -/
theorem maps_not_exactly :
    ¬MapsExactly ⟨0x400000, 1500⟩ (twoPiecePkt (some ⟨14, 20, 4, 6⟩)) true := by
  intro h
  -- with 65535 in the variable there is no such fragment
  exact nomatch (h.reported 65535 .noFrag rfl).1

end Map

end VmkDrivers.Vmklinux
