/-
  VmkDrivers.Wfs.Encapsulation

  A frame of the network stack through `ixgbe_wfs_encap` at one station and
  `ixgbe_wfs_decap` at another (`ixgbe_wfs.c`).

  The header says where the frame comes from and goes to, of which type it is
  and which number it has, and behind the header the frame is as it was.
  The station it goes to is the one the forwarding table has for the key that
  is left over in the local variable of `my_search`, so the header is right
  exactly if that makes no difference or the address is a group address.
-/

import VmkDrivers.Wfs.FibFull
import VmkDrivers.Wfs.FibMap
import VmkDrivers.Wfs.PeerState
import VmkDrivers.Wfs.Receive

namespace VmkDrivers.Wfs

open VmkDrivers.Lib

/-! ## What is promised -/

def EthSkb.dstMac (skb : EthSkb) : Mac := macAt skb.data 0

def EthSkb.fibKey (skb : EthSkb) : FibKey := ⟨skb.vlanTci &&& 0xfff, skb.dstMac⟩

def Fib.result (fib : Fib) (key : FibKey) : UInt8 := (fib.content key).getD wfsidAll

/-- The frame `pkt` carries the frame `skb` from the station `id`. -/
structure Transparent (id : WfsId) (fib : Fib) (seqno : UInt32) (skb : EthSkb) (pkt : Skb) :
    Prop where
  accepted : ixgbeWfsDecap pkt = true
  /-- `skb_pull` of `wfspkt->len` bytes leaves the frame. -/
  pulled : pkt.skbLen - pkt.len.toNat = skb.len ∧ ∀ i < skb.len, pkt.inner i = skb.data i
  tag : pkt.vlanTci = skb.vlanTci
  source : pkt.src = id.byte
  destination : pkt.dest = if skb.dstMac.isGroup then wfsidAll else fib.result skb.fibKey
  broadcast : pkt.type &&& wfspktTypeBroadcastMask ≠ 0 ↔ skb.dstMac.isGroup
  numbered : ∃ o, wfspktGetopt pkt wfsoptSequence = .ok (some o) ∧ be32 pkt.opts (o + 2) = seqno

/-! ## The header -/

def dataType (mac : Mac) : UInt8 :=
  if mac = Mac.broadcast then wfspktTypeDataBroadcast else wfspktTypeDataUnicast

theorem dataType_broadcast (mac : Mac) :
    (if mac.isGroup then dataType mac ||| wfspktTypeBroadcastMask else dataType mac) &&&
      wfspktTypeBroadcastMask ≠ 0 ↔ mac.isGroup := by
  unfold dataType
  by_cases hbroadcast : mac = Mac.broadcast
  · subst hbroadcast
    decide
  · rw [if_neg hbroadcast]
    split
    · next hgroup => exact iff_of_true (by decide) hgroup
    · next hgroup => exact iff_of_false (by decide) hgroup

variable {fib : Fib} {key : FibKey}

theorem wfspktInit_data {core : RapsCore} {pktbuf pkt : Skb} {vid : UInt16} {mac : Mac}
    (hok : Fib.FibOk fib) (h : wfspktInit core fib key pktbuf (dataType mac) vid mac = .ok pkt) :
    pkt.hProto = wfspktEthertype ∧ pkt.src = core.wfsId.byte ∧ pkt.len = 18 ∧
      pkt.dest = (if mac.isGroup then wfsidAll else fib.result key) ∧
      (pkt.type &&& wfspktTypeBroadcastMask ≠ 0 ↔ mac.isGroup) := by
  have htype := dataType_broadcast mac
  have hdest : (if (if mac.isGroup then dataType mac ||| wfspktTypeBroadcastMask
      else dataType mac) &&& wfspktTypeBroadcastMask ≠ 0 then wfsidAll
      else fib.ixgbeWfsFibLookup key vid mac) =
        if mac.isGroup then wfsidAll else fib.result key := by
    by_cases hgroup : mac.isGroup
    · rw [if_pos (htype.mpr hgroup), if_pos hgroup]
    · rw [if_neg fun hmask => hgroup (htype.mp hmask), if_neg hgroup, Fib.lookup_eq hok]
      rfl
  simp only [wfspktInit] at h
  generalize (if mac.isGroup then dataType mac ||| wfspktTypeBroadcastMask
    else dataType mac) = type at h htype hdest
  generalize (if type &&& wfspktTypeBroadcastMask ≠ 0 then wfsidAll
    else fib.ixgbeWfsFibLookup key vid mac) = dest at h hdest
  split at h
  · cases h
    exact ⟨rfl, rfl, rfl, hdest, htype⟩
  · split at h
    · cases h
      exact ⟨rfl, rfl, rfl, hdest, htype⟩
    · cases h

/-! ## Encapsulation -/

theorem encap_spec {core : RapsCore} {seqno : UInt32} {pktbuf pkt : Skb} {headroom : Bool}
    {skb : EthSkb} (hok : Fib.FibOk fib)
    (h : ixgbeWfsEncap core fib key seqno pktbuf headroom skb = .ok (some pkt)) :
    pkt.dest = (if skb.dstMac.isGroup then wfsidAll else fib.result key) ∧
      (pkt.dest = (if skb.dstMac.isGroup then wfsidAll else fib.result skb.fibKey) →
        Transparent core.wfsId fib seqno skb pkt) := by
  obtain ⟨hdr, hinit, h⟩ := bind_eq_ok.mp h
  obtain ⟨num, hseq, h⟩ := bind_eq_ok.mp h
  obtain ⟨hproto, hsrc, hlen, hdest, htype⟩ := wfspktInit_data hok hinit
  rw [wfspktSetSequence, appendOpt_eq hlen _ (by decide)] at hseq
  cases hseq
  split at h
  · cases h
    refine ⟨hdest, fun hresult => ?_⟩
    have hlen24 : ((18 : UInt8) + 6).toNat = 24 := by decide
    constructor
    · simp only [ixgbeWfsDecap, hproto, hlen24, decide_true, Bool.true_and, decide_eq_true_eq]
      exact Nat.le_add_left _ _
    · refine ⟨Nat.add_sub_cancel _ _, fun i _ => ?_⟩
      have hbehind : ¬24 + i - 18 < 24 - 18 := by omega
      rw [Skb.inner, hlen24, Skb.bytes_opts _ (by omega)]
      simp only [wfspktHdrSize, hbehind, if_false]
      congr 1
      omega
    · rfl
    · exact hsrc
    · exact hresult
    · exact htype
    · refine ⟨0, ?_, be32_of_bytes ?_ ?_ ?_ ?_⟩
      · simp [wfspktGetopt, wfspktHdrSize, getoptLoop, setByte_apply]
      all_goals simp [setByte_apply, wfspktHdrSize]
  · cases h

theorem encap_of_result_all (core : RapsCore) (seqno : UInt32) (pktbuf : Skb) (skb : EthSkb)
    (hok : Fib.FibOk fib) (hall : fib.result key = wfsidAll) :
    ∃ pkt, ixgbeWfsEncap core fib key seqno pktbuf true skb = .ok (some pkt) := by
  have hlookup (vid : UInt16) (mac : Mac) : fib.ixgbeWfsFibLookup key vid mac = wfsidAll :=
    (Fib.lookup_eq hok key vid mac).trans hall
  obtain ⟨hdr, hinit⟩ : ∃ hdr, wfspktInit core fib key pktbuf (dataType skb.dstMac) skb.vlanTci
      skb.dstMac = .ok hdr := by
    simp only [wfspktInit, hlookup, ite_self, if_true]
    exact ⟨_, rfl⟩
  obtain ⟨-, -, hlen, -⟩ := wfspktInit_data hok hinit
  have hinit : wfspktInit core fib key pktbuf (if macAt skb.data 0 = Mac.broadcast
      then wfspktTypeDataBroadcast else wfspktTypeDataUnicast) skb.vlanTci (macAt skb.data 0) =
    .ok hdr := hinit
  simp only [ixgbeWfsEncap, hinit, ok_bind, wfspktSetSequence,
    appendOpt_eq hlen _ (show (6 : UInt8) ≤ 46 by decide), if_true]
  exact ⟨_, rfl⟩

/-- **Encapsulation.** A frame that `ixgbe_wfs_encap` makes carries the frame it was given if
    and only if that goes to a group address, or the table has the same for the key left over in
    the local variable of `my_search` as for the key of the frame. -/
theorem encap_transparent_iff (rb : Balancer Nat) {kmalloc : Nat → Bool} {fibOps : List FibOp}
    {core : RapsCore} {fib : Fib} {key : FibKey} {seqno : UInt32} {pktbuf pkt : Skb}
    {headroom : Bool} {skb : EthSkb} (hinit : (Fib.ixgbeWfsFibInit kmalloc).2 = true)
    (hfib : Run (FibStep rb) (Fib.ixgbeWfsFibInit kmalloc).1 fibOps fib)
    (h : ixgbeWfsEncap core fib key seqno pktbuf headroom skb = .ok (some pkt)) :
    Transparent core.wfsId fib seqno skb pkt ↔
      skb.dstMac.isGroup ∨ fib.result key = fib.result skb.fibKey := by
  obtain ⟨hdest, htransparent⟩ := encap_spec (Fib.fibOk_of_run rb hinit hfib) h
  constructor
  · intro ht
    by_cases hgroup : skb.dstMac.isGroup
    · exact .inl hgroup
    · have hresult := hdest.symm.trans ht.destination
      rw [if_neg hgroup, if_neg hgroup] at hresult
      exact .inr hresult
  · intro hright
    refine htransparent (hdest.trans ?_)
    split
    · rfl
    · next hgroup => exact hright.resolve_left hgroup

def unicastFrame : EthSkb :=
  { data := fun i => [2, 0, 0, 0, 0, 1, 2, 0, 0, 0, 0, 9, 8, 0].getD i 7, len := 60, vlanTci := 5 }

def stackBuffer : Skb :=
  { hDest := Mac.broadcast, hSource := Mac.broadcast, hProto := 0, type := 0, dest := 0, src := 0
    len := 0, opts := fun _ => 0xAA, skbLen := 0, vlanTci := 0 }

theorem encap_transparent_emptyTable :
    ∃ pkt, ixgbeWfsEncap stationOne.core (Fib.ixgbeWfsFibInit fun _ => true).1
        unicastFrame.fibKey 9 stackBuffer true unicastFrame = .ok (some pkt) ∧
      Transparent stationOne.core.wfsId (Fib.ixgbeWfsFibInit fun _ => true).1 9 unicastFrame
        pkt := by
  obtain ⟨hinv, hempty⟩ := Fib.Inv.of_init (fun _ => true) Fib.init_of_kmalloc ∅
  have hall : (Fib.ixgbeWfsFibInit fun _ => true).1.result unicastFrame.fibKey = wfsidAll := by
    rw [Fib.result, hempty]
    rfl
  obtain ⟨pkt, hpkt⟩ := encap_of_result_all stationOne.core 9 stackBuffer unicastFrame
    hinv.ok hall
  exact ⟨pkt, hpkt, (encap_transparent_iff .plain Fib.init_of_kmalloc (.nil _) hpkt).mpr (.inr rfl)⟩

/-- The address was learned as one of station 1; with zeros in the local variable the frame goes
    to every station. -/
theorem encap_stray_learnedAddress :
    ∃ fib pkt, Run (FibStep .plain) (Fib.ixgbeWfsFibInit fun _ => true).1 [Fib.strayUpdate] fib ∧
      fib.result unicastFrame.fibKey = 1 ∧
      ixgbeWfsEncap stationOne.core fib ⟨0, #v[0, 0, 0, 0, 0, 0]⟩ 9 stackBuffer true
        unicastFrame = .ok (some pkt) ∧
      pkt.dest = wfsidAll ∧ ¬Transparent stationOne.core.wfsId fib 9 unicastFrame pkt := by
  obtain ⟨hinv, hempty⟩ := Fib.Inv.of_init (fun _ => true) Fib.init_of_kmalloc
    (Fib.learned [Fib.strayUpdate])
  have halloc : Fib.strayUpdate.Allocates := by decide
  obtain ⟨fib, hstep, hok, hcontent⟩ := hinv.call .plain (by decide) halloc (by decide)
  have hlearned : fib.result unicastFrame.fibKey = 1 := by
    rw [Fib.result, hcontent, hempty]
    decide
  have hstray : fib.result ⟨0, #v[0, 0, 0, 0, 0, 0]⟩ = wfsidAll := by
    rw [Fib.result, hcontent, hempty]
    decide
  obtain ⟨pkt, hpkt⟩ := encap_of_result_all stationOne.core 9 stackBuffer unicastFrame hok hstray
  obtain ⟨hdest, -⟩ := encap_spec hok hpkt
  rw [if_neg (by decide), hstray] at hdest
  refine ⟨fib, pkt, .single ⟨_, hstep⟩, hlearned, hpkt, hdest, fun ht => ?_⟩
  have hright := ht.destination
  rw [if_neg (by decide), hlearned, hdest] at hright
  exact absurd hright (by decide)

end VmkDrivers.Wfs
