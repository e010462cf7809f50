/-
  VmkDrivers.Wfs.DataFrames

  A data frame at the stations on its way.

  `ixgbe_xmit_frame` hands a frame for all stations to both ports and one for a
  single station to one port; a station that receives a copy hands it to its
  other port unless the frame is for it alone.  Of a station's state only the
  links of its ports matter, and no data frame changes them.
-/

import VmkDrivers.Wfs.Network

namespace VmkDrivers.Wfs

open VmkDrivers.Lib

/-! ## Data frames -/

structure Skb.IsData (skb : Skb) : Prop where
  decap : ixgbeWfsDecap skb = true
  data : ¬skb.isCtrl
  size : 17 ≤ skb.skbLen

theorem dataType_and_ctrlMask (b g : Bool) :
    (if g then (if b then wfspktTypeDataBroadcast else wfspktTypeDataUnicast) |||
      wfspktTypeBroadcastMask else if b then wfspktTypeDataBroadcast else wfspktTypeDataUnicast) &&&
        wfspktTypeCtrlMask = 0 := by
  cases b <;> cases g <;> decide

theorem isData_of_encap {core : RapsCore} {fib : Fib} {key : FibKey} {seqno : UInt32}
    {pktbuf pkt : Skb} {headroom : Bool} {skb : EthSkb}
    (h : ixgbeWfsEncap core fib key seqno pktbuf headroom skb = .ok (some pkt)) :
    pkt.IsData ∧ pkt.src = core.wfsId.byte := by
  obtain ⟨hdr, hinit, h⟩ := bind_eq_ok.mp h
  obtain ⟨num, hseq, h⟩ := bind_eq_ok.mp h
  obtain ⟨hproto, hsrc, hlen, htype⟩ := wfspktInit_header hinit
  rw [wfspktSetSequence, appendOpt_eq hlen _ (by decide)] at hseq
  cases hseq
  split at h
  · cases h
    have hlen24 : ((18 : UInt8) + 6).toNat = 24 := by decide
    refine ⟨⟨?_, ?_, ?_⟩, hsrc⟩
    · simp only [ixgbeWfsDecap, hproto, hlen24, decide_true, Bool.true_and, decide_eq_true_eq]
      omega
    · unfold Skb.isCtrl
      rw [htype]
      have hmask := dataType_and_ctrlMask (decide (macAt skb.data 0 = Mac.broadcast))
        (decide (macAt skb.data 0).isGroup)
      simpa using hmask
    · simp only [hlen24]
      omega
  · cases h

section Station

variable {π : Type}

theorem ixgbeXmitWfsFrame_eq (iwa : Iwa π) (ring : Bool) (adapter : Port) {skb : Skb}
    (hsize : 17 ≤ skb.skbLen) : ixgbeXmitWfsFrame iwa ring adapter skb =
      if iwa.link adapter = true ∧ iwa.carrier = true ∧ ring = true then [(adapter, skb)]
      else [] := by
  simp only [ixgbeXmitWfsFrame, if_neg (Nat.not_lt.mpr hsize)]
  cases iwa.link adapter <;> cases iwa.carrier <;> cases ring <;> rfl

/-- `ixgbe_process_skb_fields` hands a data frame to its other port. -/
def Iwa.Forwards (iwa : Iwa π) (inp : RxInputs) (adapter : Port) (skb : Skb) : Prop :=
  skb.dest ≠ iwa.core.wfsId.byte ∧ iwa.link adapter.other = true ∧ iwa.carrier = true ∧
    inp.copy = true ∧ inp.ringFwd = true

instance (iwa : Iwa π) (inp : RxInputs) (adapter : Port) (skb : Skb) :
    Decidable (iwa.Forwards inp adapter skb) := inferInstanceAs (Decidable (_ ∧ _))

theorem forwardSkb_eq (inp : RxInputs) (adapter : Port) (iwa : Iwa π) {skb : Skb}
    (hsize : 17 ≤ skb.skbLen) : forwardSkb inp adapter iwa skb =
      if iwa.Forwards inp adapter skb then [(adapter.other, skb)] else [] := by
  rw [forwardSkb, ixgbeXmitWfsFrame_eq _ _ _ hsize]
  by_cases hdest : skb.dest ≠ iwa.core.wfsId.byte ∧ iwa.link adapter.other = true
  · rw [if_pos hdest]
    have hiff : iwa.Forwards inp adapter skb ↔
        iwa.carrier = true ∧ inp.copy = true ∧ inp.ringFwd = true :=
      ⟨fun h => h.2.2, fun h => ⟨hdest.1, hdest.2, h⟩⟩
    cases hcopy : inp.copy
    · rw [if_neg Bool.false_ne_true, if_neg fun h => nomatch hcopy.symm.trans (hiff.mp h).2.1]
    · rw [if_pos rfl]
      exact if_congr (by rw [hiff, hcopy]; simp [hdest.2]) rfl rfl
  · rw [if_neg hdest, if_neg fun hall => hdest ⟨hall.1, hall.2.1⟩]

/-- What `ixgbe_xmit_frame` hands to a port. -/
def TxInputs.emit (inp : TxInputs) (iwa : Iwa π) (pkt : Skb) (p : Port) : List (Port × Skb) :=
  if iwa.link p = true ∧ iwa.carrier = true ∧ inp.ring p = true then [(p, pkt)] else []

/-- **A sent frame** goes to both ports if it is for all stations and could be copied, otherwise
    to one port at most.  A station that is not open or has no link sends nothing. -/
theorem ixgbeXmitFrame_sends {inp : TxInputs} {st st' : Station π} {frame : EthSkb} {pkt : Skb}
    {sent : List (Port × Skb)}
    (hencap : ixgbeWfsEncap st.iwa.core st.fib inp.key st.dataSeqno inp.pktbuf inp.headroom frame =
      .ok (some pkt))
    (hxmit : ixgbeXmitFrame inp st frame = .ok (st', sent)) :
    st'.iwa = st.iwa ∧
      ((st.iwa.state ≠ .opened ∨ st.iwa.linkUp = false ∨ st.iwa.carrier = false) ∧ sent = [] ∨
        pkt.dest = wfsidAll ∧ sent = inp.emit st.iwa pkt .primary ++
          (if inp.copy = true then inp.emit st.iwa pkt .secondary else []) ∨
        pkt.dest ≠ wfsidAll ∧ (sent = [] ∨ ∃ p, sent = inp.emit st.iwa pkt p)) := by
  have hsize := (isData_of_encap hencap).1.size
  have hsend : ∀ p, (if st.iwa.link p = true then ixgbeXmitWfsFrame st.iwa (inp.ring p) p pkt
      else []) = inp.emit st.iwa pkt p := by
    intro p
    rw [ixgbeXmitWfsFrame_eq _ _ _ hsize, TxInputs.emit]
    split
    · rfl
    · next hdown => exact (if_neg fun h => hdown h.1).symm
  unfold ixgbeXmitFrame at hxmit
  split at hxmit
  · next hclosed =>
    cases hxmit
    exact ⟨rfl, .inl ⟨hclosed, rfl⟩⟩
  · rw [hencap] at hxmit
    simp only [bind, Except.bind, hsend] at hxmit
    by_cases hall : pkt.dest = wfsidAll
    · rw [if_pos hall] at hxmit
      simp only [hall, true_and] at hxmit
      split at hxmit
      · next hcopy =>
        cases hxmit
        exact ⟨rfl, .inr (.inl ⟨hall, by rw [if_pos hcopy]; rfl⟩)⟩
      · next hcopy =>
        cases hxmit
        exact ⟨rfl, .inr (.inl ⟨hall, by rw [if_neg hcopy, List.append_nil]⟩)⟩
    · rw [if_neg hall] at hxmit
      simp only [hall, false_and, if_false] at hxmit
      cases hid : WfsId.ofByte? pkt.dest with
      | none =>
        rw [hid] at hxmit
        exact nomatch hxmit
      | some id =>
        simp only [hid] at hxmit
        split at hxmit
        · cases hxmit
          exact ⟨rfl, .inr (.inr ⟨hall, .inl rfl⟩)⟩
        · next p _ =>
          cases hxmit
          exact ⟨rfl, .inr (.inr ⟨hall, .inr ⟨p, rfl⟩⟩)⟩

variable [EventStore π] {rb : Balancer Nat} {inp : RxInputs} {adapter : Port} {st st' : Station π}
  {skb : Skb} {sent : List (Port × Skb)} {passes : Bool}

theorem receive_own (hsrc : skb.src = st.iwa.core.wfsId.byte) :
    ixgbeProcessSkbFields rb inp adapter st skb = .ok (st, [], false) := by
  unfold ixgbeProcessSkbFields
  rw [if_pos hsrc, ite_self]

/-- **A received data frame** of another station is forwarded, and goes to the network stack if
    it is for this one. -/
theorem receive_data (h : skb.IsData) (hsrc : skb.src ≠ st.iwa.core.wfsId.byte)
    (hreceive : ixgbeProcessSkbFields rb inp adapter st skb = .ok (st', sent, passes)) :
    st'.iwa = st.iwa ∧ (passes = true ↔ skb.isFor st.iwa.core.wfsId) ∧
      sent = if st.iwa.Forwards inp adapter skb then [(adapter.other, skb)] else [] := by
  unfold ixgbeProcessSkbFields at hreceive
  rw [if_neg (by simp [h.decap]), if_neg hsrc, forwardSkb_eq _ _ _ h.size] at hreceive
  by_cases hfor : skb.isFor st.iwa.core.wfsId
  · rw [if_neg (not_not.mpr hfor), if_neg h.data] at hreceive
    obtain ⟨fib, -, hdone⟩ := bind_eq_ok.mp hreceive
    obtain ⟨rfl, hsent⟩ := Prod.mk.inj (Except.ok.inj hdone)
    cases hsent
    exact ⟨rfl, iff_of_true rfl hfor, rfl⟩
  · rw [if_pos hfor] at hreceive
    obtain ⟨rfl, hsent⟩ := Prod.mk.inj (Except.ok.inj hreceive)
    cases hsent
    exact ⟨rfl, iff_of_false Bool.false_ne_true hfor, rfl⟩

theorem receive_ok (h : skb.IsData) {fib : Fib}
    (hfib : st.fib.ixgbeWfsFibUpdate rb inp.key inp.kmalloc inp.kmalloc' skb.vlanTci
      (macAt skb.inner 6) (innerIp skb.inner) skb.src = .ok fib) :
    ∃ r, ixgbeProcessSkbFields rb inp adapter st skb = .ok r := by
  unfold ixgbeProcessSkbFields
  rw [if_neg (by simp [h.decap])]
  split
  · exact ⟨_, rfl⟩
  · split
    · exact ⟨_, rfl⟩
    · rw [if_neg h.data, hfib]
      exact ⟨_, rfl⟩

end Station

/-! ## Receptions on the way -/

section Ring

variable {V π : Type} [Fintype V] (T : Topology V) {v : V} {d : Dir} {sent : List (Port × Skb)}
  {inp : RxInputs}

/-- A station in operation whose ports know which of their links are dead. -/
structure Topology.Settled (v : V) (iwa : Iwa π) : Prop where
  wfsId : iwa.core.wfsId = T.id v
  opened : iwa.state = .opened
  link : ∀ p, iwa.link p = !T.deadOn v (T.facing v p)
  linkUp : ∀ p, iwa.link p = true → iwa.linkUp = true
  carrier : ∀ p, iwa.link p = true → iwa.carrier = true

/-- The copy that goes `d` from `s`, on its way over its `k`-th link. -/
def Topology.copyAt (s : V) (skb : Skb) (d : Dir) (k : Nat) : Flight V :=
  { dir := d, dest := T.ring.place d s k, skb, root := 0, gen := 1 }

/-- Station `v` hands on a copy that goes `d`. -/
def Topology.Onward (inp : RxInputs) (d : Dir) (v : V) (skb : Skb) : Prop :=
  skb.dest ≠ (T.id v).byte ∧ T.deadOn v d = false ∧ inp.copy = true ∧ inp.ringFwd = true

instance (inp : RxInputs) (d : Dir) (v : V) (skb : Skb) : Decidable (T.Onward inp d v skb) :=
  inferInstanceAs (Decidable (_ ∧ _))

theorem Topology.launchAll_copy {s : V} {skb : Skb} {k gen : Nat} {p : Port}
    (hv : T.ring.place d s k = v) (hp : T.facing v p = d) (hgen : T.genOf v gen skb = 1) :
    T.launchAll v 0 gen [(p, skb)] =
      if T.deadOn v d = true then [] else [T.copyAt s skb d (k + 1)] := by
  have hlaunch : T.launch v 0 gen (p, skb) = T.copyAt s skb d (k + 1) := by
    simp only [launch, copyAt, hp, hgen, T.ring.place_succ, hv]
  have hport := T.launchAll_port v 0 gen p [skb]
  rwa [List.map_singleton, List.map_singleton, hp, hlaunch] at hport

theorem Topology.logSent_foreign {gen : Nat} (h : ∀ x ∈ sent, ¬T.Owns v x.2.src) :
    T.logSent v 0 gen sent =
      (T.launchAll v 0 gen sent).map fun f => .crossed 0 f.gen f.dir (T.ring.link f.dir v) := by
  have hnone : sent.filter (fun x => x.2.src = (T.id v).byte) = [] := by
    refine List.filter_eq_nil_iff.mpr fun x hx => ?_
    simpa using fun heq => h x hx heq.symm
  rw [logSent, hnone, List.map_nil, List.append_nil]

theorem Topology.Settled.forwards_iff {T : Topology V} {iwa : Iwa π} (h : T.Settled v iwa)
    {skb : Skb} : iwa.Forwards inp (T.portFacing v d.other) skb ↔ T.Onward inp d v skb := by
  have hfacing : T.facing v (T.portFacing v d.other).other = d := by
    rw [T.facing_other, T.facing_portFacing, Dir.other_other]
  have hlive : iwa.link (T.portFacing v d.other).other = true ↔ T.deadOn v d = false := by
    rw [h.link, hfacing, Bool.not_eq_true', ]
  unfold Iwa.Forwards Topology.Onward
  rw [h.wfsId, hlive]
  constructor
  · rintro ⟨hdest, hdead, -, hall⟩
    exact ⟨hdest, hdead, hall⟩
  · rintro ⟨hdest, hdead, hall⟩
    exact ⟨hdest, hdead, h.carrier _ (hlive.mpr hdead), hall⟩

def onPorts (taken : Port → Bool) (pkt : Skb) : List (Port × Skb) :=
  (if taken .primary then [(.primary, pkt)] else []) ++
    if taken .secondary then [(.secondary, pkt)] else []

/-- The frame can be copied for the second port, and both transmit rings take it. -/
def TxInputs.Unhindered (inp : TxInputs) : Prop := inp.copy = true ∧ ∀ p, inp.ring p = true

/-- **A frame sent in a ring** goes over live links only, over one of them at most if it is for
    one station, and over all of them if it is for all stations and nothing hinders it. -/
theorem Topology.Settled.sends {T : Topology V} {s : V} {st st' : Station π} {inp : TxInputs}
    {frame : EthSkb} {pkt : Skb} (h : T.Settled s st.iwa)
    (hencap : ixgbeWfsEncap st.iwa.core st.fib inp.key st.dataSeqno inp.pktbuf inp.headroom frame =
      .ok (some pkt))
    (hxmit : ixgbeXmitFrame inp st frame = .ok (st', sent)) :
    st'.iwa = st.iwa ∧ ∃ taken, sent = onPorts taken pkt ∧
      (∀ p, taken p = true → T.deadOn s (T.facing s p) = false) ∧
      (pkt.dest ≠ wfsidAll → ∃ p, taken p = false) ∧
      (pkt.dest = wfsidAll → inp.Unhindered →
        ∀ p, taken p = false → T.deadOn s (T.facing s p) = true) := by
  obtain ⟨heq, hsent⟩ := ixgbeXmitFrame_sends hencap hxmit
  have hlink : ∀ p, st.iwa.link p = true ↔ T.deadOn s (T.facing s p) = false := by
    intro p
    rw [h.link, Bool.not_eq_true']
  have htaken : ∀ p, (st.iwa.link p = true ∧ st.iwa.carrier = true ∧ inp.ring p = true) ↔
      T.deadOn s (T.facing s p) = false ∧ inp.ring p = true := by
    intro p
    rw [hlink]
    exact ⟨fun hall => ⟨hall.1, hall.2.2⟩,
      fun hall => ⟨hall.1, h.carrier p ((hlink p).mpr hall.1), hall.2⟩⟩
  have hemit : ∀ p, inp.emit st.iwa pkt p =
      if (!T.deadOn s (T.facing s p) && inp.ring p) = true then [(p, pkt)] else [] := by
    intro p
    exact if_congr ((htaken p).trans (by simp)) rfl rfl
  refine ⟨heq, ?_⟩
  rcases hsent with ⟨hclosed, rfl⟩ | ⟨hall, rfl⟩ | ⟨hone, rfl | ⟨p, rfl⟩⟩
  · -- a station without a link
    refine ⟨fun _ => false, rfl, by simp, fun _ => ⟨.primary, rfl⟩, fun _ _ p _ => ?_⟩
    refine Bool.eq_true_of_not_eq_false fun hlive => ?_
    have hup := (hlink p).mpr hlive
    rcases hclosed with hstate | hdown | hcarrier
    · exact hstate h.opened
    · exact Bool.false_ne_true (hdown.symm.trans (h.linkUp p hup))
    · exact Bool.false_ne_true (hcarrier.symm.trans (h.carrier p hup))
  · refine ⟨fun p => (p = .primary || inp.copy) && (!T.deadOn s (T.facing s p) && inp.ring p),
      ?_, ?_, fun hone => absurd hall hone, ?_⟩
    · rw [hemit, hemit, onPorts]
      cases inp.copy <;> simp
    · intro p hp
      simp only [Bool.and_eq_true, Bool.not_eq_true'] at hp
      exact hp.2.1
    · intro _ hfree p hp
      simpa [hfree.1, hfree.2 p] using hp
  · exact ⟨fun _ => false, rfl, by simp, fun _ => ⟨.primary, rfl⟩, fun hall => absurd hall hone⟩
  · refine ⟨fun q => q = p && (!T.deadOn s (T.facing s q) && inp.ring q), ?_, ?_, fun _ => ?_,
      fun hall => absurd hall hone⟩
    · rw [hemit, onPorts]
      cases p <;> simp
    · intro q hq
      simp only [Bool.and_eq_true, Bool.not_eq_true'] at hq
      exact hq.2.1
    · refine ⟨p.other, ?_⟩
      cases p <;> simp [Port.other]

variable {T} [DecidableEq V] [EventStore π] {rb : Balancer Nat} {net net' : Net V π} {s : V}
  {skb : Skb}

omit [Fintype V] [EventStore π] in
theorem update_iwa {station : V → Station π} {st : Station π} (h : st.iwa = (station v).iwa)
    (w : V) : (Function.update station v st w).iwa = (station w).iwa := by
  by_cases hw : w = v
  · subst hw
    rw [Function.update_self, h]
  · rw [Function.update_of_ne hw]

/-- **One reception** of a copy: it goes no further than its source, is handed on unless the
    station is its only receiver, and goes to the network stack if the station is a receiver. -/
theorem Net.receive_copy (hsettled : ∀ v, T.Settled v (net.station v).iwa) (hdata : skb.IsData)
    (hsrc : T.Owns s skb.src) {k : Nat} {rest : List (Flight V)} (hk : 0 < k)
    (hround : k ≤ Fintype.card V)
    (hreceive : net.receive T rb inp (T.copyAt s skb d k) rest = .ok net') :
    (∀ v, (net'.station v).iwa = (net.station v).iwa) ∧
      net'.flight = rest ++
        (if k < Fintype.card V ∧ T.Onward inp d (T.ring.place d s k) skb then
          [T.copyAt s skb d (k + 1)] else []) ∧
      net'.log =
        (if k < Fintype.card V ∧ skb.isFor (T.id (T.ring.place d s k)) then
          [.passed 0 (T.ring.place d s k)] else []) ++
        (if k < Fintype.card V ∧ T.Onward inp d (T.ring.place d s k) skb then
          [.crossed 0 1 d (T.ring.link d (T.ring.place d s k))] else []) ++ net.log := by
  obtain ⟨⟨st, sent, passes⟩, hprocess, hdone⟩ := bind_eq_ok.mp hreceive
  obtain rfl := Except.ok.inj hdone
  change ixgbeProcessSkbFields rb inp (T.portFacing (T.ring.place d s k) d.other)
    (net.station (T.ring.place d s k)) skb = _ at hprocess
  change (∀ w, (Function.update net.station (T.ring.place d s k) st w).iwa = _) ∧
    rest ++ T.launchAll (T.ring.place d s k) 0 1 sent = _ ∧
    (if passes = true then [NetEvent.passed 0 (T.ring.place d s k)] else []) ++
      T.logSent (T.ring.place d s k) 0 1 sent ++ net.log = _
  clear hreceive hdone
  generalize hv : T.ring.place d s k = v at hprocess ⊢
  have hid := (hsettled v).wfsId
  by_cases hlast : k < Fintype.card V
  · -- within the round the station is not the source
    have hne : ¬T.Owns v skb.src := by
      intro howns
      have hzero := T.ring.dist_eq hlast hv
      rw [T.owns_unique howns hsrc, T.ring.dist_eq_zero.mpr rfl] at hzero
      omega
    obtain ⟨heq, hpasses, rfl⟩ := receive_data hdata
      (fun h => hne (by rw [Topology.Owns, h, hid])) hprocess
    have hsent : ∀ x ∈ if (net.station v).iwa.Forwards inp (T.portFacing v d.other) skb then
        [((T.portFacing v d.other).other, skb)] else [], ¬T.Owns v x.2.src := by
      intro x hx
      split at hx
      · rwa [List.mem_singleton.mp hx]
      · exact nomatch hx
    have hfacing : T.facing v (T.portFacing v d.other).other = d := by
      rw [T.facing_other, T.facing_portFacing, Dir.other_other]
    have hgen : T.genOf v 1 skb = 1 := if_neg fun heq => hne heq.symm
    have hlaunch : T.launchAll v 0 1
        (if (net.station v).iwa.Forwards inp (T.portFacing v d.other) skb then
          [((T.portFacing v d.other).other, skb)] else []) =
          if k < Fintype.card V ∧ T.Onward inp d v skb then [T.copyAt s skb d (k + 1)] else [] := by
      by_cases honward : T.Onward inp d v skb
      · rw [if_pos ((hsettled v).forwards_iff.mpr honward), if_pos ⟨hlast, honward⟩,
          T.launchAll_copy hv hfacing hgen, if_neg (by rw [honward.2.1]; decide)]
      · rw [if_neg fun h => honward ((hsettled v).forwards_iff.mp h), if_neg fun h => honward h.2]
        rfl
    have hfor : passes = true ↔ k < Fintype.card V ∧ skb.isFor (T.id v) := by
      rw [hpasses, hid, and_iff_right hlast]
    refine ⟨update_iwa heq, ?_, ?_⟩
    · rw [hlaunch]
    · rw [T.logSent_foreign hsent, hlaunch]
      apply congrArg (· ++ net.log)
      refine congrArg₂ (· ++ ·) (if_congr hfor rfl rfl) ?_
      split
      · rw [List.map_singleton]
        rfl
      · rfl
  · -- the copy is back at its source
    obtain rfl : k = Fintype.card V := by omega
    obtain rfl : s = v := (T.ring.place_card d s).symm.trans hv
    have hown : skb.src = (net.station s).iwa.core.wfsId.byte := by
      rw [hid]
      exact hsrc.symm
    obtain ⟨rfl, hrest⟩ := Prod.mk.inj (Except.ok.inj ((receive_own hown).symm.trans hprocess))
    obtain ⟨rfl, rfl⟩ := Prod.mk.inj hrest
    simp only [lt_irrefl, false_and, if_false]
    exact ⟨update_iwa rfl, rfl, rfl⟩

end Ring

end VmkDrivers.Wfs
