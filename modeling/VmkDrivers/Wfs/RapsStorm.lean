/-
  VmkDrivers.Wfs.RapsStorm

  RAPS messages in a ring.

  Every station that receives a RAPS message forwards it unmodified, and if
  it may be forwarded (`dnf` is 0) it also sends the message anew as its own,
  with `dnf` set.  The number of messages grows at first; what every
  reception lowers is the sum over the messages in flight of what each can
  still lead to: a message with `dnf` as many receptions as it has steps to
  its source, one without in addition a whole round for each of them.
-/

import VmkDrivers.Wfs.Network

namespace VmkDrivers.Wfs

open VmkDrivers.Lib

/-! ## RAPS frames -/

/-- A frame as `getWfsRapsPkt` builds it, for any request and status. -/
structure Skb.IsRaps (skb : Skb) : Prop where
  hProto : skb.hProto = wfspktEthertype
  type : skb.type = wfspktTypeCtrlRaps
  dest : skb.dest = wfsidAll
  len : skb.len = 22
  option : skb.opts 0 = wfsoptRaps
  optionLen : skb.opts 1 = 4
  skbLen : 22 ≤ skb.skbLen

/-- "Do Not Forward". -/
def Skb.dnf (skb : Skb) : Bool := (rapsAt skb.opts 0).dnf

namespace Skb.IsRaps

variable {skb : Skb} (h : skb.IsRaps)
include h

theorem getopt_announce : wfspktGetopt skb wfsoptAnnounce = .ok none := by
  simp only [wfspktGetopt, h.len]
  rw [show (22 : UInt8).toNat - wfspktHdrSize = 3 + 1 from rfl, getoptLoop, if_neg (by decide),
    if_neg (by rw [h.option]; decide), Nat.zero_add, h.optionLen, if_neg (by decide)]
  rfl

theorem getopt_raps : wfspktGetopt skb wfsoptRaps = .ok (some 0) := by
  simp only [wfspktGetopt, h.len]
  rw [show (22 : UInt8).toNat - wfspktHdrSize = 3 + 1 from rfl, getoptLoop, if_neg (by decide),
    if_pos h.option]

theorem decap : ixgbeWfsDecap skb = true := by
  simp only [ixgbeWfsDecap, h.hProto, h.len, Bool.and_eq_true, decide_eq_true_eq, true_and]
  exact h.skbLen

theorem isCtrl : skb.isCtrl := by
  unfold Skb.isCtrl
  rw [h.type]
  decide

end Skb.IsRaps

theorem isRaps_reoriginated (core : RapsCore) {skb : Skb} (h : skb.IsRaps) :
    (reoriginated core skb 0).IsRaps ∧ (reoriginated core skb 0).dnf = true ∧
      (reoriginated core skb 0).src = core.wfsId.byte := by
  refine ⟨⟨h.hProto, h.type, rfl, h.len, ?_, ?_, h.skbLen⟩, ?_, rfl⟩
  · simp [reoriginated, wfspktSetRapsDnf, setByte_apply, h.option]
  · simp [reoriginated, wfspktSetRapsDnf, setByte_apply, h.optionLen]
  · simp only [Skb.dnf, rapsAt, reoriginated, wfspktSetRapsDnf, setByte_apply, if_true,
      uint8_or_and, UInt8.and_self, decide_eq_true_eq, Nat.zero_add]
    exact fun hzero => absurd (UInt8.or_eq_zero_iff.mp hzero).2 (by decide)

/-! ## Reception -/

section Reception

variable {π : Type}

theorem ixgbeXmitWfsFrame_cases (iwa : Iwa π) (ring : Bool) (adapter : Port) {skb : Skb}
    (hlen : 17 ≤ skb.skbLen) :
    ixgbeXmitWfsFrame iwa ring adapter skb = [] ∨
      ixgbeXmitWfsFrame iwa ring adapter skb = [(adapter, skb)] := by
  simp only [ixgbeXmitWfsFrame, if_neg (Nat.not_lt.mpr hlen)]
  split
  · exact .inl rfl
  · cases ring
    · exact .inl rfl
    · exact .inr rfl

variable [EventStore π] (k : Kmalloc)

theorem setEventLoop_wfsId (wfsid : UInt8) (e : WfsFsmEvent) (evdata : WfsFsmEventData)
    (ids : List WfsId) (s : Iwa π) :
    (setEventLoop k wfsid e evdata ids s).1.core.wfsId = s.core.wfsId := by
  induction ids generalizing s with
  | nil => rfl
  | cons id ids ih =>
    simp only [setEventLoop]
    split
    · exact ih s
    · split
      · exact ih s
      · split
        · rfl
        · exact ih _

theorem ixgbeWfsFsmSetEvent_wfsId (wfsid : UInt8) (e : WfsFsmEvent) (evdata : WfsFsmEventData)
    (s : Iwa π) : (ixgbeWfsFsmSetEvent k wfsid e evdata s).1.core.wfsId = s.core.wfsId := by
  unfold ixgbeWfsFsmSetEvent
  split
  · rfl
  · exact setEventLoop_wfsId k wfsid e evdata wfsIds s

theorem wfsProcessRaps_spec (adapter : Port) (src : WfsId) (opt : WfsoptRaps) (s : Iwa π) :
    (wfsProcessRaps k adapter src opt s).1.core.wfsId = s.core.wfsId ∧
      ((wfsProcessRaps k adapter src opt s).2.2 = .reoriginate → opt.dnf = false) := by
  have hverdict : rapsVerdict opt = .reoriginate → opt.dnf = false := by
    unfold rapsVerdict
    cases opt.dnf
    · exact fun _ => rfl
    · exact fun h => nomatch h
  unfold wfsProcessRaps
  split
  · exact ⟨ixgbeWfsFsmSetEvent_wfsId .., hverdict⟩
  · split
    · split
      · exact ⟨rfl, fun h => nomatch h⟩
      · exact ⟨ixgbeWfsFsmSetEvent_wfsId .., hverdict⟩
    · exact ⟨rfl, hverdict⟩

/-- **A received RAPS frame** of another station: the frame itself and one of its own, if
    `dnf` is 0, may go out on the other port. -/
theorem receive_raps (rb : Balancer Nat) (inp : RxInputs) (adapter : Port) (st : Station π)
    {skb : Skb} (h : skb.IsRaps) {src : WfsId} (hsrc : src.byte = skb.src)
    (hne : src ≠ st.iwa.core.wfsId) :
    ∃ (st' : Station π) (fwd own : List Skb),
      ixgbeProcessSkbFields rb inp adapter st skb =
        .ok (st', (fwd ++ own).map (fun skb => (adapter.other, skb)), false) ∧
      st'.iwa.core.wfsId = st.iwa.core.wfsId ∧
      (fwd = [] ∨ fwd = [skb]) ∧
      (own = [] ∨ skb.dnf = false ∧ ∃ skb', own = [skb'] ∧ skb'.IsRaps ∧ skb'.dnf = true ∧
        skb'.src = st.iwa.core.wfsId.byte) := by
  have hid : WfsId.ofByte? skb.src = some src := WfsId.ofByte?_eq_some_iff.mpr hsrc
  have hloop : ¬skb.src = st.iwa.core.wfsId.byte := by
    rw [← hsrc]
    exact fun heq => hne (WfsId.byte_injective heq)
  have hfor : skb.isFor st.iwa.core.wfsId := .inl h.dest
  have hsize : 17 ≤ skb.skbLen := le_trans (by decide) h.skbLen
  obtain ⟨hwfsId, hdnf⟩ := wfsProcessRaps_spec inp.k adapter src (rapsAt skb.opts 0) st.iwa
  unfold ixgbeProcessSkbFields ixgbeWfsRecvControl recvRaps
  rw [if_neg (by simp [h.decap]), if_neg hloop, if_neg (not_not.mpr hfor), if_pos h.isCtrl]
  simp only [h.getopt_announce, h.getopt_raps, hid, bind, Except.bind]
  have hout : ∀ (iwa : Iwa π) (ring : Bool) {pkt : Skb}, 17 ≤ pkt.skbLen → ∃ l : List Skb,
      ixgbeXmitWfsFrame iwa ring adapter.other pkt = l.map (fun skb => (adapter.other, skb)) ∧
        (l = [] ∨ l = [pkt]) := by
    intro iwa ring pkt hpkt
    rcases ixgbeXmitWfsFrame_cases iwa ring adapter.other hpkt with hnone | hone
    · exact ⟨[], hnone, .inl rfl⟩
    · exact ⟨[pkt], hone, .inr rfl⟩
  obtain ⟨fwd, hfwd, hfwd'⟩ : ∃ fwd, forwardSkb inp adapter st.iwa skb =
      fwd.map (fun skb => (adapter.other, skb)) ∧ (fwd = [] ∨ fwd = [skb]) := by
    unfold forwardSkb
    split
    · cases inp.copy
      · exact ⟨[], rfl, .inl rfl⟩
      · exact hout st.iwa inp.ringFwd hsize
    · exact ⟨[], rfl, .inl rfl⟩
  rcases hraps : wfsProcessRaps inp.k adapter src (rapsAt skb.opts 0) st.iwa with ⟨iwa, r, verdict⟩
  rw [hraps] at hwfsId hdnf
  cases verdict with
  | ctrlNone =>
    refine ⟨{ st with iwa }, fwd, [], ?_, hwfsId, hfwd', .inl rfl⟩
    simp only [sendCtrl, hfwd, if_true, List.append_nil]
    rfl
  | reoriginate =>
    obtain ⟨hown, howndnf, hownsrc⟩ := isRaps_reoriginated iwa.core h
    obtain ⟨own, hsent, hown'⟩ : ∃ own, sendCtrl inp adapter iwa (reoriginated iwa.core skb 0) =
        own.map (fun skb => (adapter.other, skb)) ∧
          (own = [] ∨ own = [reoriginated iwa.core skb 0]) := by
      unfold sendCtrl
      rw [if_neg (by rw [hown.type]; decide)]
      split
      · exact hout iwa inp.ringCtrl hsize
      · rw [if_neg (by rw [hown.type]; exact fun hbert => absurd hbert.1 (by decide))]
        exact ⟨[], rfl, .inl rfl⟩
    refine ⟨{ st with iwa }, fwd, own, ?_, hwfsId, hfwd', hown'.imp id fun hone => ?_⟩
    · simp only [hfwd, hsent, List.map_append]
      rfl
    · refine ⟨hdnf rfl, _, hone, hown, howndnf, ?_⟩
      rw [hownsrc, show iwa.core.wfsId = st.iwa.core.wfsId from hwfsId]

end Reception

/-! ## Messages in flight -/

section Storm

variable {V π : Type} [Fintype V] [DecidableEq V] (T : Topology V) {f : Flight V}

structure Topology.CarriesRaps (f : Flight V) : Prop where
  raps : f.skb.IsRaps
  source : ∃ v, T.Owns v f.skb.src
  gen : f.gen = 0 ∨ f.gen = 1 ∧ f.skb.dnf = true

noncomputable def Topology.hops (f : Flight V) : Nat :=
  open Classical in
  if h : ∃ v, T.Owns v f.skb.src then T.ring.dist f.dir f.dest h.choose else 0

theorem Topology.hops_eq {v : V} (h : T.Owns v f.skb.src) :
    T.hops f = T.ring.dist f.dir f.dest v := by
  have hex : ∃ v, T.Owns v f.skb.src := ⟨v, h⟩
  unfold hops
  rw [dif_pos hex, T.owns_unique hex.choose_spec h]

/-- `f` a station further, as the frame `skb`. -/
def Topology.onward (f : Flight V) (skb : Skb) (gen : Nat) : Flight V :=
  { f with dest := T.ring.step f.dir f.dest, skb, gen }

theorem Topology.hops_onward_forward {v : V} (h : T.Owns v f.skb.src) (hne : f.dest ≠ v) :
    T.hops (T.onward f f.skb f.gen) + 1 = T.hops f := by
  rw [T.hops_eq h, T.hops_eq (f := T.onward f f.skb f.gen) h]
  exact T.ring.dist_step f.dir hne

theorem Topology.hops_onward_own {skb : Skb} (gen : Nat) (h : T.Owns f.dest skb.src) :
    T.hops (T.onward f skb gen) + 1 = Fintype.card V := by
  rw [T.hops_eq (f := T.onward f skb gen) h]
  exact T.ring.dist_step_self f.dir f.dest

variable [EventStore π] (rb : Balancer Nat)

/-- The stations have their ids, and what is in flight are RAPS messages of theirs. -/
structure Net.CarriesRaps (net : Net V π) : Prop where
  station : ∀ v, (net.station v).iwa.core.wfsId = T.id v
  flight : ∀ f ∈ net.flight, T.CarriesRaps f

/-- What the reception of `f` adds to the network: the message one station further, and one of
    the receiver if `dnf` is 0. -/
structure Topology.Outcome (f : Flight V) (new : List (Flight V)) (log : List (NetEvent V)) :
    Prop where
  /-- Nothing but the forwarded message and the own one. -/
  flights : ∃ fwd own, new = fwd ++ own ∧
    (fwd = [] ∨ fwd = [T.onward f f.skb f.gen] ∧ ¬T.Owns f.dest f.skb.src) ∧
    (own = [] ∨ f.skb.dnf = false ∧ ¬T.Owns f.dest f.skb.src ∧ ∃ skb,
      own = [T.onward f skb (f.gen + 1)] ∧ skb.IsRaps ∧ skb.dnf = true ∧ T.Owns f.dest skb.src)
  log : ∃ crossed own, log = crossed ++ own ∧
    (∀ e ∈ crossed, ∃ g d l, e = NetEvent.crossed f.root g d l) ∧
    (own = [] ∨ f.skb.dnf = false ∧ ¬T.Owns f.dest f.skb.src ∧
      own = [NetEvent.reoriginated f.root (f.gen + 1) f.dir])

/-- **One reception** of a RAPS message runs through. -/
theorem Net.CarriesRaps.receive {net : Net V π} (h : net.CarriesRaps T) (inp : RxInputs)
    (hf : T.CarriesRaps f) (rest : List (Flight V)) :
    ∃ net', net.receive T rb inp f rest = .ok net' ∧
      (∀ v, (net'.station v).iwa.core.wfsId = T.id v) ∧
      ∃ new log, T.Outcome f new log ∧ net'.flight = rest ++ new ∧ net'.log = log ++ net.log := by
  obtain ⟨s, hs⟩ := hf.source
  have hstation : ∀ st : Station π, st.iwa.core.wfsId = T.id f.dest →
      ∀ v, (Function.update net.station f.dest st v).iwa.core.wfsId = T.id v := by
    intro st hst v
    by_cases hv : v = f.dest
    · subst hv
      rwa [Function.update_self]
    · rw [Function.update_of_ne hv]
      exact h.station v
  by_cases howns : T.Owns f.dest f.skb.src
  · -- the message is back at its source
    have hdrop : ixgbeProcessSkbFields rb inp (T.portFacing f.dest f.dir.other)
        (net.station f.dest) f.skb = .ok (net.station f.dest, [], false) := by
      unfold ixgbeProcessSkbFields
      rw [if_neg (by simp [hf.raps.decap]), if_pos (by rw [h.station]; exact howns.symm)]
    refine ⟨{ net with
        station := Function.update net.station f.dest (net.station f.dest), flight := rest }, ?_,
      hstation _ (h.station f.dest), [], [], ⟨⟨[], [], rfl, .inl rfl, .inl rfl⟩, [], [], rfl, ?_,
        .inl rfl⟩, (List.append_nil _).symm, rfl⟩
    · simp only [Net.receive, hdrop, bind, Except.bind, Topology.launchAll, Topology.logSent,
        List.map_nil, List.filter_nil, List.append_nil, List.nil_append, Bool.false_eq_true, if_false]
      rfl
    · exact fun e he => nomatch he
  · have hne : T.id s ≠ (net.station f.dest).iwa.core.wfsId := by
      rw [h.station]
      exact fun heq => howns (T.id_injective heq ▸ hs)
    obtain ⟨st', fwd, own, hstep, hid, hfwd, hown⟩ :=
      receive_raps rb inp (T.portFacing f.dest f.dir.other) (net.station f.dest) hf.raps hs hne
    -- a station that is not its source hands it on the same way round
    have hdir : T.facing f.dest (T.portFacing f.dest f.dir.other).other = f.dir := by
      rw [T.facing_other, T.facing_portFacing, Dir.other_other]
    rw [h.station] at hid hown
    set sent := (fwd ++ own).map fun skb => ((T.portFacing f.dest f.dir.other).other, skb) with hsent
    refine ⟨_, by simp only [Net.receive, hstep, bind, Except.bind]; rfl, hstation st' hid,
      T.launchAll f.dest f.root f.gen sent, T.logSent f.dest f.root f.gen sent, ⟨?_, ?_⟩, rfl,
      by simp⟩
    · -- the flights
      have hfwdFlight : T.launch f.dest f.root f.gen
          ((T.portFacing f.dest f.dir.other).other, f.skb) = T.onward f f.skb f.gen := by
        have hgen : T.genOf f.dest f.gen f.skb = f.gen := if_neg fun heq => howns heq.symm
        simp only [Topology.launch, Topology.onward, hdir, hgen]
      have hownFlight : ∀ skb : Skb, T.Owns f.dest skb.src → T.launch f.dest f.root f.gen
          ((T.portFacing f.dest f.dir.other).other, skb) = T.onward f skb (f.gen + 1) := by
        intro skb hskb
        have hgen : T.genOf f.dest f.gen skb = f.gen + 1 := if_pos hskb.symm
        simp only [Topology.launch, Topology.onward, hdir, hgen]
      rw [hsent, T.launchAll_port]
      split
      · exact ⟨[], [], rfl, .inl rfl, .inl rfl⟩
      · rw [List.map_append]
        refine ⟨_, _, rfl, hfwd.imp ?_ ?_, hown.imp ?_ ?_⟩
        · rintro rfl
          rfl
        · rintro rfl
          exact ⟨congrArg (fun x => [x]) hfwdFlight, howns⟩
        · rintro rfl
          rfl
        · rintro ⟨hdnf, skb, rfl, hraps, hset, hsrc⟩
          exact ⟨hdnf, howns, skb, congrArg (fun x => [x]) (hownFlight skb hsrc.symm), hraps, hset,
            hsrc.symm⟩
    · -- the log
      refine ⟨_, _, rfl, ?_, ?_⟩
      · intro e he
        obtain ⟨g, -, rfl⟩ := List.mem_map.mp he
        exact ⟨_, _, _, rfl⟩
      -- the copy that is handed on keeps its source, so it is not one of its own
      · have hfwdOwn : ∀ s ∈ fwd, ¬s.src = (T.id f.dest).byte := by
          intro s hs
          rcases hfwd with rfl | rfl
          · exact nomatch hs
          · rw [List.mem_singleton.mp hs]
            exact fun heq => howns heq.symm
        have hnone : fwd.filter (fun s => decide (s.src = (T.id f.dest).byte)) = [] :=
          List.filter_eq_nil_iff.mpr fun s hs => by simpa using hfwdOwn s hs
        have hfilter : sent.filter (fun s => decide (s.2.src = (T.id f.dest).byte)) =
            (own.filter fun s => decide (s.src = (T.id f.dest).byte)).map fun skb =>
              ((T.portFacing f.dest f.dir.other).other, skb) := by
          rw [hsent, List.filter_map, List.filter_append]
          change ((fwd.filter fun s => decide (s.src = (T.id f.dest).byte)) ++ _).map _ = _
          rw [hnone]
          rfl
        rw [hfilter]
        refine hown.imp ?_ ?_
        · rintro rfl
          rfl
        · rintro ⟨hdnf, skb, rfl, -, -, hsrc⟩
          refine ⟨hdnf, howns, ?_⟩
          rw [List.filter_cons_of_pos (by simpa using hsrc), List.filter_nil]
          simp [hdir]

/-! ## What a message can still lead to -/

/-- A bound for the receptions a message leads to: with `dnf` one for each step to its source,
    and without it a whole round more for each. -/
noncomputable def Topology.weight (f : Flight V) : Nat :=
  if f.skb.dnf then T.hops f + 1 else T.hops f * (Fintype.card V + 1) + 1

/-- A bound for the messages sent anew in direction `d` because of the message `r` of the
    start: one for each step it still has to go. -/
noncomputable def Topology.spare (r : Nat) (d : Dir) (f : Flight V) : Nat :=
  if f.root = r ∧ f.dir = d ∧ f.skb.dnf = false then T.hops f else 0

/-- The entry tells of a message sent anew in direction `d` because of the message `r`. -/
def NetEvent.reoriginates (r : Nat) (d : Dir) : NetEvent V → Bool
  | .reoriginated r' _ d' => r' = r && d' = d
  | _ => false

/-- The messages sent anew in direction `d` because of the message `r` of the start. -/
def reoriginations (log : List (NetEvent V)) (r : Nat) (d : Dir) : Nat :=
  log.countP (NetEvent.reoriginates r d)

theorem hops_lt (hf : T.CarriesRaps f) : T.hops f < Fintype.card V := by
  obtain ⟨v, hv⟩ := hf.source
  rw [T.hops_eq hv]
  exact T.ring.dist_lt f.dir f.dest v

theorem weight_le (hf : T.CarriesRaps f) : T.weight f ≤ Fintype.card V ^ 2 := by
  obtain ⟨n, hn⟩ : ∃ n, Fintype.card V = n + 1 :=
    ⟨_, (Nat.succ_pred_eq_of_pos (Nat.zero_lt_of_lt (hops_lt T hf))).symm⟩
  have hlt := hops_lt T hf
  have hmul : T.hops f * (n + 1 + 1) ≤ n * (n + 2) := Nat.mul_le_mul_right _ (by omega)
  have hsq : (n + 1) ^ 2 = n * (n + 2) + 1 := by ring
  unfold Topology.weight
  rw [hn, hsq]
  have hself : T.hops f ≤ T.hops f * (n + 1 + 1) := Nat.le_mul_of_pos_right _ (by omega)
  split <;> omega

namespace Topology.Outcome

variable {T} {f : Flight V} {new : List (Flight V)} {log : List (NetEvent V)}

omit [DecidableEq V] in
theorem carriesRaps (h : T.Outcome f new log) (hf : T.CarriesRaps f) :
    ∀ g ∈ new, T.CarriesRaps g := by
  obtain ⟨fwd, own, rfl, hfwd, hown⟩ := h.flights
  intro g hg
  rcases List.mem_append.mp hg with hg | hg
  · rcases hfwd with rfl | ⟨rfl, -⟩
    · exact nomatch hg
    · rw [List.mem_singleton.mp hg]
      exact ⟨hf.raps, hf.source, hf.gen⟩
  · rcases hown with rfl | ⟨hdnf, -, skb, rfl, hraps, hset, hsrc⟩
    · exact nomatch hg
    · rw [List.mem_singleton.mp hg]
      refine ⟨hraps, ⟨f.dest, hsrc⟩, .inr ⟨?_, hset⟩⟩
      -- a message without `dnf` is one of the start
      have hgen : f.gen = 0 := hf.gen.resolve_right fun h => by simp [hdnf] at h
      simp [Topology.onward, hgen]

theorem hops_pos (hf : T.CarriesRaps f) (hne : ¬T.Owns f.dest f.skb.src) : 0 < T.hops f := by
  obtain ⟨v, hv⟩ := hf.source
  rw [T.hops_eq hv]
  refine Nat.pos_of_ne_zero fun hzero => hne ?_
  rwa [T.ring.dist_eq_zero.mp hzero]

theorem forwarded {fwd : List (Flight V)} (hf : T.CarriesRaps f)
    (h : fwd = [] ∨ fwd = [T.onward f f.skb f.gen] ∧ ¬T.Owns f.dest f.skb.src) :
    fwd = [] ∨ fwd = [T.onward f f.skb f.gen] ∧ T.hops (T.onward f f.skb f.gen) + 1 = T.hops f := by
  obtain ⟨v, hv⟩ := hf.source
  refine h.imp_right fun hone => ⟨hone.1, T.hops_onward_forward hv ?_⟩
  rintro rfl
  exact hone.2 hv

theorem weight_lt (h : T.Outcome f new log) (hf : T.CarriesRaps f) :
    (new.map T.weight).sum < T.weight f := by
  obtain ⟨fwd, own, rfl, hfwd, hown⟩ := h.flights
  rw [List.map_append, List.sum_append]
  cases hdnf : f.skb.dnf with
  | true =>
    have hnone : own = [] := hown.resolve_right fun hone => by simp [hdnf] at hone
    subst hnone
    have hweight : T.weight f = T.hops f + 1 := by simp [weight, hdnf]
    rcases forwarded hf hfwd with rfl | ⟨rfl, hstep⟩
    · simp [hweight]
    · have hnext : T.weight (T.onward f f.skb f.gen) = T.hops (T.onward f f.skb f.gen) + 1 := by
        simp [weight, onward, hdnf]
      simp only [List.map_cons, List.map_nil, List.sum_cons, List.sum_nil, hnext, hweight]
      omega
  | false =>
    have hweight : T.weight f = T.hops f * (Fintype.card V + 1) + 1 := by simp [weight, hdnf]
    have hownWeight : (own.map T.weight).sum = 0 ∨
        (own.map T.weight).sum = Fintype.card V ∧ 0 < T.hops f := by
      refine hown.imp (fun hnone => by rw [hnone]; rfl) ?_
      rintro ⟨-, howns, skb, rfl, -, hset, hsrc⟩
      have hround := T.hops_onward_own (f.gen + 1) hsrc
      have hnext : T.weight (T.onward f skb (f.gen + 1)) = Fintype.card V := by
        rw [← hround]
        simp [weight, onward, hset]
      exact ⟨by simp [hnext], hops_pos hf howns⟩
    rcases forwarded hf hfwd with rfl | ⟨rfl, hstep⟩
    · -- the own message takes a round, and its receiver had one step at least before it
      simp only [List.map_nil, List.sum_nil, hweight]
      rcases hownWeight with hnone | ⟨hone, hpos⟩
      · omega
      · have hround := Nat.le_mul_of_pos_left (Fintype.card V + 1) hpos
        omega
    · have hnext : T.weight (T.onward f f.skb f.gen) =
          T.hops (T.onward f f.skb f.gen) * (Fintype.card V + 1) + 1 := by
        simp [weight, onward, hdnf]
      simp only [List.map_cons, List.map_nil, List.sum_cons, List.sum_nil, hnext, hweight, ← hstep,
        Nat.succ_mul]
      omega

theorem spare_le (h : T.Outcome f new log) (hf : T.CarriesRaps f) (r : Nat) (d : Dir) :
    (new.map (T.spare r d)).sum + reoriginations log r d ≤ T.spare r d f := by
  obtain ⟨fwd, own, rfl, hfwd, hown⟩ := h.flights
  obtain ⟨crossed, anew, rfl, hcrossed, hanew⟩ := h.log
  have hown0 : (own.map (T.spare r d)).sum = 0 := by
    rcases hown with rfl | ⟨-, -, skb, rfl, -, hset, -⟩
    · rfl
    · simp [spare, onward, hset]
  have hcrossed0 : reoriginations crossed r d = 0 := by
    refine List.countP_eq_zero.mpr fun e he => ?_
    obtain ⟨g, d', l, rfl⟩ := hcrossed e he
    exact Bool.false_ne_true
  have hlog : reoriginations (crossed ++ anew) r d = reoriginations anew r d := by
    rw [reoriginations, List.countP_append]
    exact (congrArg (· + _) hcrossed0).trans (Nat.zero_add _)
  have hanew1 : reoriginations anew r d ≤
      if f.root = r ∧ f.dir = d ∧ f.skb.dnf = false then min 1 (T.hops f) else 0 := by
    rcases hanew with rfl | ⟨hdnf, howns, rfl⟩
    · exact Nat.zero_le _
    · have hpos := hops_pos hf howns
      by_cases hsame : f.root = r ∧ f.dir = d
      · rw [if_pos ⟨hsame.1, hsame.2, hdnf⟩, Nat.min_eq_left hpos]
        exact List.countP_le_length
      · rw [if_neg fun h => hsame ⟨h.1, h.2.1⟩]
        simpa [reoriginations, NetEvent.reoriginates, not_and] using hsame
  rw [List.map_append, List.sum_append, hown0, hlog]
  refine (Nat.add_le_add_left hanew1 _).trans ?_
  rcases forwarded hf hfwd with rfl | ⟨rfl, hstep⟩
  · unfold spare
    split
    · simp
    · exact le_rfl
  · have hnext : T.spare r d (T.onward f f.skb f.gen) =
        if f.root = r ∧ f.dir = d ∧ f.skb.dnf = false then T.hops (T.onward f f.skb f.gen) else 0 := rfl
    have hself : T.spare r d f =
        if f.root = r ∧ f.dir = d ∧ f.skb.dnf = false then T.hops f else 0 := rfl
    rw [List.map_cons, List.map_nil, List.sum_cons, List.sum_nil, hnext, hself]
    by_cases hsame : f.root = r ∧ f.dir = d ∧ f.skb.dnf = false
    · simp only [if_pos hsame]
      omega
    · simp only [if_neg hsame]
      omega

omit [DecidableEq V] in
theorem gen_eq_one (h : T.Outcome f new log) (hf : T.CarriesRaps f) {r g : Nat} {d : Dir}
    (he : NetEvent.reoriginated r g d ∈ log) : g = 1 := by
  obtain ⟨crossed, anew, rfl, hcrossed, hanew⟩ := h.log
  rcases List.mem_append.mp he with he | he
  · obtain ⟨g', d', l, hcross⟩ := hcrossed _ he
    exact nomatch hcross
  · rcases hanew with rfl | ⟨hdnf, -, rfl⟩
    · exact nomatch he
    · have hgen : f.gen = 0 := hf.gen.resolve_right fun h => by simp [hdnf] at h
      cases List.mem_singleton.mp he
      rw [hgen]

end Topology.Outcome

/-! ## The network -/

variable {l : List (Flight V)}

omit [Fintype V] [DecidableEq V] in
theorem sum_map_eraseIdx {i : Nat} {f : Flight V} (h : l[i]? = some f) (φ : Flight V → Nat) :
    (l.map φ).sum = φ f + ((l.eraseIdx i).map φ).sum := by
  obtain ⟨hi, rfl⟩ := List.getElem?_eq_some_iff.mp h
  have hperm := (List.getElem_cons_eraseIdx_perm hi).map φ
  rw [← hperm.sum_eq, List.map_cons, List.sum_cons]

/-- What is true of the network along a run: all in flight are RAPS messages of stations, and
    those sent anew are accounted for by what the messages of the start could lead to. -/
structure Net.StormOk (bound : Nat → Dir → Nat) (net : Net V π) : Prop where
  carries : net.CarriesRaps T
  anew : ∀ r d, (net.flight.map (T.spare r d)).sum + reoriginations net.log r d ≤ bound r d
  gen : ∀ r g d, NetEvent.reoriginated r g d ∈ net.log → g = 1

theorem Net.StormOk.step {bound : Nat → Dir → Nat} {net net' : Net V π} {l : Nat × RxInputs}
    (h : net.StormOk T bound) (hstep : NetStep T rb net l net') :
    net'.StormOk T bound ∧
      (net'.flight.map T.weight).sum < (net.flight.map T.weight).sum := by
  obtain ⟨f, hget, hreceive⟩ := hstep
  have hf := h.carries.flight f (List.mem_of_getElem? hget)
  obtain ⟨net'', hok, hstation, new, log, hout, hflight, hlog⟩ :=
    h.carries.receive T rb l.2 hf (net.flight.eraseIdx l.1)
  obtain rfl := Except.ok.inj (hok.symm.trans hreceive)
  have hsum : ∀ φ : Flight V → Nat, (net''.flight.map φ).sum =
      ((net.flight.eraseIdx l.1).map φ).sum + (new.map φ).sum := by
    intro φ
    rw [hflight, List.map_append, List.sum_append]
  refine ⟨⟨⟨hstation, fun g hg => ?_⟩, fun r d => ?_, fun r g d he => ?_⟩, ?_⟩
  · rw [hflight] at hg
    rcases List.mem_append.mp hg with hg | hg
    · exact h.carries.flight g (List.mem_of_mem_eraseIdx hg)
    · exact hout.carriesRaps hf g hg
  · have hbefore := h.anew r d
    have hspare := hout.spare_le hf r d
    have hcount : reoriginations net''.log r d =
        reoriginations log r d + reoriginations net.log r d := by
      rw [hlog, reoriginations, List.countP_append]
      rfl
    rw [sum_map_eraseIdx hget] at hbefore
    rw [hsum, hcount]
    omega
  · rw [hlog] at he
    rcases List.mem_append.mp he with he | he
    · exact hout.gen_eq_one hf he
    · exact h.gen r g d he
  · have hweight := hout.weight_lt hf
    rw [hsum, sum_map_eraseIdx hget]
    omega

/-- RAPS messages of stations of the ring, each counted as one of the start. -/
structure Net.StormStart (net : Net V π) : Prop where
  station : ∀ v, (net.station v).iwa.core.wfsId = T.id v
  raps : ∀ f ∈ net.flight, f.skb.IsRaps ∧ ∃ v, T.Owns v f.skb.src
  gen : ∀ f ∈ net.flight, f.gen = 0
  root : (net.flight.map Flight.root).Nodup
  log : net.log = []

theorem sum_spare_le (hl : ∀ f ∈ l, T.CarriesRaps f) (hroot : (l.map Flight.root).Nodup) (r : Nat)
    (d : Dir) : (l.map (T.spare r d)).sum ≤ Fintype.card V := by
  induction l with
  | nil => exact Nat.zero_le _
  | cons f l ih =>
    obtain ⟨hf, hrest⟩ := List.forall_mem_cons.mp hl
    obtain ⟨hfresh, hnodup⟩ := List.nodup_cons.mp hroot
    rw [List.map_cons, List.sum_cons]
    by_cases hr : f.root = r
    · have hothers : (l.map (T.spare r d)).sum = 0 := by
        refine List.sum_eq_zero fun x hx => ?_
        obtain ⟨g, hg, rfl⟩ := List.mem_map.mp hx
        refine if_neg fun h => hfresh ?_
        rw [hr, ← h.1]
        exact List.mem_map_of_mem hg
      have hself : T.spare r d f ≤ T.hops f := by
        unfold Topology.spare
        split <;> omega
      have hlt := hops_lt T hf
      omega
    · have hself : T.spare r d f = 0 := if_neg fun h => hr h.1
      rw [hself, Nat.zero_add]
      exact ih hrest hnodup

/-- **RAPS messages cannot storm.** From any RAPS messages in flight every run of the receive
    path ends, after at most the square of the number of stations for each of them.  No
    reception fails on the way, no message leads to more messages sent anew than there are
    stations, and none of these leads to another. -/
theorem raps_no_storm {net₀ net : Net V π} {ls : List (Nat × RxInputs)} (h₀ : net₀.StormStart T)
    (hrun : Run (NetStep T rb) net₀ ls net) :
    ls.length ≤ net₀.flight.length * Fintype.card V ^ 2 ∧
      (∀ i < net.flight.length, ∀ inp, ∃ net', NetStep T rb net (i, inp) net') ∧
      (∀ r d, reoriginations net.log r d ≤ Fintype.card V) ∧
      ∀ r g d, NetEvent.reoriginated r g d ∈ net.log → g = 1 := by
  have hcarries : ∀ f ∈ net₀.flight, T.CarriesRaps f := fun f hf =>
    ⟨(h₀.raps f hf).1, (h₀.raps f hf).2, .inl (h₀.gen f hf)⟩
  have hstart : net₀.StormOk T fun r d => (net₀.flight.map (T.spare r d)).sum := by
    refine ⟨⟨h₀.station, hcarries⟩, fun r d => ?_, fun r g d he => ?_⟩
    · rw [h₀.log]
      exact le_rfl
    · rw [h₀.log] at he
      exact nomatch he
  have hend := hrun.invariant (fun _ _ _ h hs => (h.step T rb hs).1) hstart
  have hlength := hrun.length_le (fun _ _ _ h hs => h.step T rb hs) hstart
  have hweight : (net₀.flight.map T.weight).sum ≤ net₀.flight.length * Fintype.card V ^ 2 := by
    have hle := List.sum_le_card_nsmul (net₀.flight.map T.weight) (Fintype.card V ^ 2) ?_
    · simpa using hle
    · intro w hw
      obtain ⟨f, hf, rfl⟩ := List.mem_map.mp hw
      exact weight_le T (hcarries f hf)
  refine ⟨by omega, fun i hi inp => ?_, fun r d => ?_, hend.gen⟩
  · have hget := List.getElem?_eq_getElem hi
    have hf := hend.carries.flight _ (List.getElem_mem hi)
    obtain ⟨net', hok, -⟩ := hend.carries.receive T rb inp hf (net.flight.eraseIdx i)
    exact ⟨net', _, hget, hok⟩
  · have hanew := hend.anew r d
    have hspare := sum_spare_le T hcarries h₀.root r d
    omega

end Storm

/-! ## A ring -/

instance neZeroThree : NeZero 3 := ⟨by decide⟩

def ringOfThree : Topology (Fin 3) where
  ring := Lib.Ring.rotate 1
  id v := ⟨v, by omega⟩
  id_injective := fun v w h => Fin.ext (congrArg (fun i : WfsId => i.val) h)
  primary := fun _ => .cw
  dead := fun _ => false

def sfMessage : Skb :=
  { hDest := Mac.broadcast, hSource := Mac.broadcast, hProto := wfspktEthertype
    type := wfspktTypeCtrlRaps, dest := wfsidAll, src := (0 : WfsId).byte, len := 22
    opts := fun i => [3, 4, 2, 0].getD i 0, skbLen := 22, vlanTci := 0 }

def sfArrives : Net (Fin 3) EvBufPool where
  station v :=
    { iwa := { Iwa.probed (ringOfThree.id v) Mac.broadcast (fun _ => 0)
        (EvBufPool.ixgbeWfsFsmInit fun _ => true).1 with
          state := .opened, link := fun _ => true, linkUp := true, carrier := true }
      fib := {} }
  flight := [{ dir := .cw, dest := 1, skb := sfMessage, root := 0, gen := 0 }]

theorem raps_no_storm_sfArrives :
    ∃ net, Run (NetStep ringOfThree .plain) sfArrives [(0, {})] net ∧
      1 ≤ sfArrives.flight.length * Fintype.card (Fin 3) ^ 2 ∧
      ∀ r d, reoriginations net.log r d ≤ Fintype.card (Fin 3) := by
  have hstart : sfArrives.StormStart ringOfThree := by
    refine ⟨fun v => rfl, ?_, ?_, by decide, rfl⟩
    · rintro f hf
      obtain rfl := List.mem_singleton.mp hf
      exact ⟨⟨rfl, rfl, rfl, rfl, rfl, rfl, le_rfl⟩, 0, rfl⟩
    · rintro f hf
      obtain rfl := List.mem_singleton.mp hf
      rfl
  obtain ⟨net, hstep⟩ := (raps_no_storm ringOfThree .plain hstart (.nil _)).2.1 0 (by decide) {}
  have hrun : Run (NetStep ringOfThree .plain) sfArrives [(0, {})] net := .single hstep
  obtain ⟨hlength, -, hanew, -⟩ := raps_no_storm ringOfThree .plain hstart hrun
  exact ⟨net, hrun, hlength, hanew⟩

end VmkDrivers.Wfs
