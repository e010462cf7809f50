/-
  VmkDrivers.Wfs.ReceiveSafety

  Which received frames crash a station.

  The source id of a frame is a byte of the wire that nobody checks.  It is
  used as an index when a handler of a control option is reached and as a
  station id when a data frame is learned, so exactly the frames that get
  that far with an id outside `WFSID_MIN ..= WFSID_MAX` go wrong, and with
  them the data frames that the forwarding table has no room for.
-/

import VmkDrivers.Wfs.FibFull
import VmkDrivers.Wfs.PeerState
import VmkDrivers.Wfs.Receive

namespace VmkDrivers.Wfs

open VmkDrivers.Lib

/-! ## Looking for options -/

variable {opts : Nat → UInt8} {t : Iwa EvQueue} {src : WfsId} {pkt : Skb}

theorem getoptLoop_of_none {ty ty' : UInt8} {fuel len o : Nat}
    (h : getoptLoop opts ty fuel len o = .ok none) :
    ∃ r, getoptLoop opts ty' fuel len o = .ok r := by
  induction fuel generalizing len o with
  | zero => exact ⟨none, rfl⟩
  | succ fuel ih =>
    rw [getoptLoop] at h ⊢
    by_cases hlen : len = 0
    · rw [if_pos hlen]
      exact ⟨none, rfl⟩
    · rw [if_neg hlen] at h ⊢
      by_cases hty : opts o = ty
      · rw [if_pos hty] at h
        exact nomatch h
      · rw [if_neg hty] at h
        by_cases hzero : opts (o + 1) = 0
        · rw [if_pos hzero] at h
          exact nomatch h
        · rw [if_neg hzero] at h ⊢
          split
          · exact ⟨_, rfl⟩
          · exact ih h

theorem getoptLoop_error {ty : UInt8} {fuel len o : Nat} {f : Fault}
    (h : getoptLoop opts ty fuel len o = .error f) : f = .diverges := by
  induction fuel generalizing len o with
  | zero => exact nomatch h
  | succ fuel ih =>
    rw [getoptLoop] at h
    split at h
    · exact nomatch h
    · split at h
      · exact nomatch h
      · split at h
        · exact (Except.error.inj h).symm
        · exact ih h

def Skb.Handled (skb : Skb) : Prop :=
  (∃ o, wfspktGetopt skb wfsoptAnnounce = .ok (some o)) ∨
    wfspktGetopt skb wfsoptAnnounce = .ok none ∧
      ((∃ o, wfspktGetopt skb wfsoptRaps = .ok (some o)) ∨
        ∃ o, wfspktGetopt skb wfsoptBert = .ok (some o))

/-! ## Control frames -/

def StartsFor (src : UInt8) (s s' : Iwa EvBufPool) : Prop :=
  ∃ evs, pendingEvents s'.pool = pendingEvents s.pool ++ evs ∧
    ∀ eb ∈ evs, eb.wfsid.byte = src

theorem StartsFor.refl (src : UInt8) (s : Iwa EvBufPool) : StartsFor src s s :=
  ⟨[], by simp, by simp⟩

theorem startsFor_of_step {s s' : Iwa EvBufPool} {op : RapsOp} {eff : Effects} {src : UInt8}
    (h : IwaRep s t) (hq : op.quiet = true) (hstep : op.step s = .ok (s', eff))
    (hreq : ∀ eb ∈ op.requests t, eb.wfsid.byte = src) : StartsFor src s s' := by
  have hout := op.step_rep h
  rw [hstep] at hout
  cases ht : op.step t with
  | error f =>
    rw [ht] at hout
    exact hout.elim
  | ok r =>
    rw [ht] at hout
    obtain ⟨t', eff'⟩ := r
    obtain ⟨evs, happ, hpre, _, _⟩ := (RapsOp.step_quiet hq ht).queued
    refine ⟨evs, ?_, fun eb heb => hreq eb (hpre.subset heb)⟩
    rw [h.pendingEvents_eq, hout.1.pendingEvents_eq, happ.pending]

theorem byte_of_mem_requested {e : WfsFsmEvent} {evdata : WfsFsmEventData} {eb : EventRec}
    (h : eb ∈ requested t src.byte e evdata) : eb.wfsid.byte = src.byte := by
  rcases (mem_requested.mp h).2.1 with hall | heq
  · exact absurd hall (WfsId.byte_ne_all src)
  · exact heq.symm

variable {st : Station EvBufPool} {t : Iwa EvQueue}

/-- **Announces** of a station. -/
theorem recvAnnounce_ok (h : IwaRep st.iwa t) (inp : RxInputs) (adapter : Port) (o : Nat)
    (hsrc : WfsId.ofByte? pkt.src = some src) :
    ∃ st' pkt', recvAnnounce inp adapter st pkt o = .ok (st', pkt') ∧
      StartsFor pkt.src st.iwa st'.iwa := by
  unfold recvAnnounce
  rw [hsrc]
  refine ⟨_, _, rfl, ?_⟩
  rw [← WfsId.ofByte?_eq_some_iff.mp hsrc]
  refine @startsFor_of_step _ _ _ (.announce inp.k adapter src (announceAt pkt.opts o)) _ _
    h rfl rfl ?_
  intro eb heb
  simp only [RapsOp.requests] at heb
  split at heb
  · exact byte_of_mem_requested heb
  · cases heb

/-- **RAPS frames** of a station. -/
theorem recvRaps_ok (h : IwaRep st.iwa t) (inp : RxInputs) (adapter : Port) (o : Nat)
    (hsrc : WfsId.ofByte? pkt.src = some src) :
    ∃ st' pkt', recvRaps inp adapter st pkt o = .ok (st', pkt') ∧
      StartsFor pkt.src st.iwa st'.iwa := by
  have hstarts : StartsFor pkt.src st.iwa
      (wfsProcessRaps inp.k adapter src (rapsAt pkt.opts o) st.iwa).1 := by
    rw [← WfsId.ofByte?_eq_some_iff.mp hsrc]
    refine @startsFor_of_step _ _ _ (.raps inp.k adapter src (rapsAt pkt.opts o)) _ _
      h rfl rfl ?_
    intro eb heb
    simp only [RapsOp.requests] at heb
    split at heb
    · exact byte_of_mem_requested heb
    · split at heb
      · split at heb
        · cases heb
        · exact byte_of_mem_requested heb
      · cases heb
  unfold recvRaps
  rw [hsrc]
  simp only
  split
  · exact ⟨_, _, rfl, hstarts⟩
  · exact ⟨_, _, rfl, hstarts⟩

theorem recvAnnounce_error (inp : RxInputs) (adapter : Port) (o : Nat)
    (hsrc : WfsId.ofByte? pkt.src = none) :
    recvAnnounce inp adapter st pkt o = .error .tableIndex := by
  unfold recvAnnounce
  rw [hsrc]

theorem recvRaps_error (inp : RxInputs) (adapter : Port) (o : Nat)
    (hsrc : WfsId.ofByte? pkt.src = none) : recvRaps inp adapter st pkt o = .error .tableIndex := by
  unfold recvRaps
  rw [hsrc]

/-- **A control frame** is handled if its source is a station, and otherwise the handler
    it reaches, if any, leaves the tables. -/
theorem recvControl_spec (h : IwaRep st.iwa t) (inp : RxInputs) (adapter : Port) (pkt : Skb) :
    ((WfsId.ofByte? pkt.src ≠ none ∨ ¬pkt.Handled) ∧
      ((∃ st' pkt', ixgbeWfsRecvControl inp adapter st pkt = .ok (st', pkt') ∧
        StartsFor pkt.src st.iwa st'.iwa) ∨
        ixgbeWfsRecvControl inp adapter st pkt = .error .diverges)) ∨
    (WfsId.ofByte? pkt.src = none ∧ pkt.Handled ∧
      ixgbeWfsRecvControl inp adapter st pkt = .error .tableIndex) := by
  unfold ixgbeWfsRecvControl
  cases hann : wfspktGetopt pkt wfsoptAnnounce with
  | error f =>
    -- the walk hangs before an announce option
    obtain rfl := getoptLoop_error hann
    refine .inl ⟨.inr ?_, .inr rfl⟩
    rintro (⟨o, ho⟩ | ⟨hno, _⟩)
    · rw [hann] at ho
      exact nomatch ho
    · rw [hann] at hno
      exact nomatch hno
  | ok r =>
    cases r with
    | some o =>
      have hhandled : pkt.Handled := .inl ⟨o, hann⟩
      cases hsrc : WfsId.ofByte? pkt.src with
      | none => exact .inr ⟨rfl, hhandled, recvAnnounce_error inp adapter o hsrc⟩
      | some src =>
        exact .inl ⟨.inl (Option.some_ne_none src), .inl (recvAnnounce_ok h inp adapter o hsrc)⟩
    | none =>
      obtain ⟨raps, hraps⟩ : ∃ r, wfspktGetopt pkt wfsoptRaps = .ok r := getoptLoop_of_none hann
      obtain ⟨bert, hbert⟩ : ∃ r, wfspktGetopt pkt wfsoptBert = .ok r := getoptLoop_of_none hann
      rw [hraps, hbert]
      cases raps with
      | some o =>
        have hhandled : pkt.Handled := .inr ⟨hann, .inl ⟨o, hraps⟩⟩
        cases hsrc : WfsId.ofByte? pkt.src with
        | none => exact .inr ⟨rfl, hhandled, recvRaps_error inp adapter o hsrc⟩
        | some src =>
          exact .inl ⟨.inl (Option.some_ne_none src), .inl (recvRaps_ok h inp adapter o hsrc)⟩
      | none =>
        cases bert with
        | some o =>
          have hhandled : pkt.Handled := .inr ⟨hann, .inr ⟨o, hbert⟩⟩
          cases hsrc : WfsId.ofByte? pkt.src with
          | none =>
            refine .inr ⟨rfl, hhandled, ?_⟩
            simp only [bind, Except.bind,
              wfsProcessBert_error inp.bert st.iwa.core st.wfsbert o hsrc]
          | some src =>
            obtain ⟨r, hr⟩ := wfsProcessBert_ok inp.bert st.iwa.core st.wfsbert o hsrc
            refine .inl ⟨.inl (Option.some_ne_none src), .inl
              ⟨{ st with wfsbert := r.1 }, r.2, ?_, .refl _ _⟩⟩
            simp only [bind, Except.bind, hr]
            rfl
        | none =>
          refine .inl ⟨.inr ?_, .inl ⟨st, pkt, rfl, .refl _ _⟩⟩
          rintro (⟨o, ho⟩ | ⟨_, ⟨o, ho⟩ | ⟨o, ho⟩⟩)
          · rw [hann] at ho
            exact nomatch ho
          · rw [hraps] at ho
            exact nomatch ho
          · rw [hbert] at ho
            exact nomatch ho

/-! ## All frames -/

/-- What must not happen does not: no `BUG_ON` and no other crash, no index outside the
    tables, and no event of a station other than the one named by the source. -/
def RxSafe (st : Station EvBufPool) (skb : Skb) :
    Except Fault (Station EvBufPool × List (Port × Skb) × Bool) → Prop
  | .ok (st', _, _) => StartsFor skb.src st.iwa st'.iwa
  | .error f => f = .diverges

/-- The frame is dropped or no more than forwarded, or it is a control frame from a station or
    one that no handler is reached for, or a data frame the forwarding table can take. -/
def RxSound (inp : RxInputs) (st : Station EvBufPool) (skb : Skb) : Prop :=
  ixgbeWfsDecap skb = false ∨ skb.src = st.iwa.core.wfsId.byte ∨ ¬skb.isFor st.iwa.core.wfsId ∨
    (skb.isCtrl ∧ (WfsId.ofByte? skb.src ≠ none ∨ ¬skb.Handled)) ∨
    (¬skb.isCtrl ∧ st.fib.Takes inp.key inp.kmalloc inp.kmalloc' skb.src)

theorem rxSafe_iff_rxSound (rb : Balancer Nat) (hrep : IwaRep st.iwa t) (hok : Fib.FibOk st.fib)
    (inp : RxInputs) (adapter : Port) (skb : Skb) :
    RxSafe st skb (ixgbeProcessSkbFields rb inp adapter st skb) ↔ RxSound inp st skb := by
  unfold ixgbeProcessSkbFields RxSound
  by_cases hdecap : ixgbeWfsDecap skb = false
  · rw [if_pos hdecap]
    exact iff_of_true (.refl _ _) (.inl hdecap)
  · rw [if_neg hdecap, or_iff_right hdecap]
    by_cases hloop : skb.src = st.iwa.core.wfsId.byte
    · rw [if_pos hloop]
      exact iff_of_true (.refl _ _) (.inl hloop)
    · rw [if_neg hloop, or_iff_right hloop]
      by_cases hfor : skb.isFor st.iwa.core.wfsId
      · rw [if_neg (not_not.mpr hfor), or_iff_right (not_not.mpr hfor)]
        by_cases hctrl : skb.isCtrl
        · rw [if_pos hctrl, or_iff_left (fun hno => hno.1 hctrl), and_iff_right hctrl]
          rcases recvControl_spec hrep inp adapter skb with
            ⟨hsound, ⟨st', pkt', hrun, hstarts⟩ | hrun⟩ | ⟨hsrc, hhandled, hrun⟩
          · rw [hrun]
            exact iff_of_true hstarts hsound
          · rw [hrun]
            exact iff_of_true rfl hsound
          · rw [hrun]
            refine iff_of_false (fun hno => nomatch hno) ?_
            rintro (hno | hno)
            · exact hno hsrc
            · exact hno hhandled
        · rw [if_neg hctrl, or_iff_right (fun hno => hctrl hno.1), and_iff_right hctrl]
          rcases Fib.update_takes rb hok inp.key inp.kmalloc inp.kmalloc' skb.vlanTci
            (macAt skb.inner 6) (innerIp skb.inner) skb.src with
            ⟨htakes, fib, hupd, _⟩ | ⟨htakes, f, hf, hupd⟩
          · rw [hupd]
            exact iff_of_true (.refl _ _) htakes
          · rw [hupd]
            exact iff_of_false hf htakes
      · rw [if_pos hfor]
        exact iff_of_true (.refl _ _) (.inl hfor)

/-- **Received frames.** In every state a station can be in, a received frame is safe if and
    only if it is dropped or no more than forwarded, or is a control frame from a station or one
    that no handler is reached for, or a data frame the forwarding table can take. -/
theorem rx_safe_iff (rb : Balancer Nat) {kmalloc kmalloc' : Nat → Bool} {wfsId : WfsId}
    {macAddr : Mac} {wfsPort : Port → Int} {ops : List RapsOp} {fibOps : List FibOp}
    {st : Station EvBufPool}
    (hiwa : Run RapsStep (.probed wfsId macAddr wfsPort (EvBufPool.ixgbeWfsFsmInit kmalloc).1)
      ops st.iwa)
    (hinit : (Fib.ixgbeWfsFibInit kmalloc').2 = true)
    (hfib : Run (FibStep rb) (Fib.ixgbeWfsFibInit kmalloc').1 fibOps st.fib)
    (inp : RxInputs) (adapter : Port) (skb : Skb) :
    RxSafe st skb (ixgbeProcessSkbFields rb inp adapter st skb) ↔ RxSound inp st skb := by
  obtain ⟨q, t, _, hrep⟩ := iwaRep_of_run hiwa
  exact rxSafe_iff_rxSound rb hrep (Fib.fibOk_of_run rb hinit hfib) inp adapter skb

/-- A data frame for every station with an empty IP packet in it, from the id byte `src`. -/
def dataFrom (src : UInt8) : Skb :=
  { hDest := Mac.broadcast
    hSource := Vector.replicate 6 2
    hProto := wfspktEthertype
    type := wfspktTypeDataBroadcast
    dest := wfsidAll
    src
    len := 24
    opts := fun i => [1, 6, 0, 0, 0, 0].getD i 0
    skbLen := 84
    vlanTci := 0 }

/-- An announce from the id byte `src`. -/
def announceFrom (src : UInt8) : Skb :=
  { dataFrom src with
    type := 0xC1
    len := 31
    opts := fun i => [2, 13, 2, 2, 2, 2, 2, 2, 0, 0, 0, 7, 1].getD i 0 }

def stationWith (iwa : Iwa EvBufPool) : Station EvBufPool :=
  { iwa, fib := (Fib.ixgbeWfsFibInit fun _ => true).1 }

theorem rx_safe_discoverRun :
    ∃ s, Run RapsStep stationOne discoverRun s ∧
      RxSafe (stationWith s) (dataFrom 2)
        (ixgbeProcessSkbFields .plain {} .primary (stationWith s) (dataFrom 2)) := by
  have hdone : (Run.exec RapsOp.next? stationOne discoverRun).isSome = true := by
    decide +kernel
  obtain ⟨s, hs⟩ := Option.isSome_iff_exists.mp hdone
  have hrun : Run RapsStep stationOne discoverRun s := rapsRun_iff_exec.mp hs
  refine ⟨s, hrun, ?_⟩
  have hhead : (Fib.ixgbeWfsFibInit fun _ => true).1.fibnHead ≠ none := by decide +kernel
  refine (@rx_safe_iff .plain _ _ _ _ _ _ _ (stationWith s) hrun Fib.init_of_kmalloc (.nil _) {} .primary
    (dataFrom 2)).mpr ?_
  exact .inr (.inr (.inr (.inr ⟨by decide, by decide, .inr (.inl (.inl hhead))⟩)))

/-- A data frame from id 9 stops station 1, and so does an announce from id 0. -/
theorem rx_crash_discoverRun :
    ∃ s, Run RapsStep stationOne discoverRun s ∧
      ¬RxSafe (stationWith s) (dataFrom 9)
        (ixgbeProcessSkbFields .plain {} .primary (stationWith s) (dataFrom 9)) ∧
      ¬RxSafe (stationWith s) (announceFrom 0)
        (ixgbeProcessSkbFields .plain {} .primary (stationWith s) (announceFrom 0)) := by
  have hdone : ((Run.exec RapsOp.next? stationOne discoverRun).map fun s => s.core.wfsId) =
      some 0 := by
    decide +kernel
  obtain ⟨s, hs, hid⟩ := Option.map_eq_some_iff.mp hdone
  have hrun : Run RapsStep stationOne discoverRun s := rapsRun_iff_exec.mp hs
  obtain ⟨q, t, _, hrep⟩ := iwaRep_of_run hrun
  have hok : Fib.FibOk (stationWith s).fib := (Fib.init_spec (Prod.ext rfl Fib.init_of_kmalloc)).1
  refine ⟨s, hrun, ?_, ?_⟩
  · rw [rxSafe_iff_rxSound .plain hrep hok]
    rintro (h | h | h | h | h)
    · exact absurd h (by decide)
    · rw [show (stationWith s).iwa.core.wfsId = 0 from hid] at h
      exact absurd h (by decide)
    · exact h (.inl rfl)
    · exact absurd h.1 (by decide)
    · exact absurd h.2.1 (by decide)
  · rw [rxSafe_iff_rxSound .plain hrep hok]
    have hhandled : (announceFrom 0).Handled := .inl ⟨0, rfl⟩
    rintro (h | h | h | h | h)
    · exact absurd h (by decide)
    · rw [show (stationWith s).iwa.core.wfsId = 0 from hid] at h
      exact absurd h (by decide)
    · exact h (.inl rfl)
    · rcases h.2 with h | h
      · exact absurd h (by decide)
      · exact h hhandled
    · exact h.1 (by decide)

end VmkDrivers.Wfs
