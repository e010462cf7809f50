/-
  VmkDrivers.Wfs.SkbCustody

  Who frees an `sk_buff`.

  `ixgbe_wfs_send_announce`, `ixgbe_wfs_send_raps`, `ixgbe_wfs_send_bert`,
  `ixgbe_xmit_frame` and `ixgbe_process_skb_fields` again, this time with what
  they do to the `sk_buff`s: each one is taken, read, and freed, put on a
  transmit ring or passed to the network stack.  After `ixgbe_xmit_wfs_frame`
  returned NETDEV_TX_OK it is gone.

  All exits of four of them but one release each `sk_buff` once and leave it
  alone then: `ixgbe_xmit_frame` reads the length of the frame it sent, to warn
  that the copy was not.  `ixgbe_wfs_send_bert` does so only when the ring is
  full: it reads the frame it has sent, and forgets the copy it made for a peer
  without a channel (`skbs_released_iff`).
-/

import VmkDrivers.Lib.Custody
import VmkDrivers.Wfs.BertTest

namespace VmkDrivers.Wfs

open VmkDrivers.Lib

/-! ## The log -/

/-- What is done to an `sk_buff`. -/
inductive SkbAct where
  /-- Taken from the caller or allocated. -/
  | take
  /-- A field of it or of its data is read or written. -/
  | read
  | free
  | hand (adapter : Port)
  /-- Returned to the caller, for the network stack. -/
  | up
deriving DecidableEq, Repr

def SkbAct.handling : SkbAct → Handling
  | .take => .acquire
  | .read => .use
  | .free => .release
  | .hand _ => .release
  | .up => .release

/-- `iwa->xmit_err`, and what was done to which `sk_buff`. -/
structure SkbLog where
  xmitErr : UInt32
  acts : List (Nat × SkbAct) := []
deriving DecidableEq, Repr

namespace SkbLog

def act (s : SkbLog) (skb : Nat) (a : SkbAct) : SkbLog := { s with acts := s.acts ++ [(skb, a)] }

def handed (s : SkbLog) : List Port :=
  s.acts.filterMap fun
    | (_, .hand adapter) => some adapter
    | _ => none

def trace (s : SkbLog) : List (Nat × Handling) := s.acts.map fun e => (e.1, e.2.handling)

end SkbLog

/-! ## Transmission -/

/-- What `ixgbe_xmit_frame_ring` does with a frame. -/
inductive RingOutcome where
  | taken
  /-- NETDEV_TX_BUSY. -/
  | busy
  /-- `out_drop`: freed, and NETDEV_TX_OK. -/
  | dropped
deriving DecidableEq, Repr

/-- What `ixgbe_xmit_wfs_frame` depends on: `skb_pad` for a short frame, and the ring. -/
structure XmitOutcome where
  pad : Bool := true
  ring : RingOutcome := .taken
deriving DecidableEq, Repr

section Functions

variable {π : Type}

/-- `ixgbe_xmit_wfs_frame` of `skb` with `len` bytes, and whether it returns NETDEV_TX_OK. -/
def logXmitWfsFrame (iwa : Iwa π) (out : XmitOutcome) (adapter : Port) (skb len : Nat)
    (s : SkbLog) : SkbLog × Bool :=
  if !iwa.link adapter || !iwa.carrier then (s.act skb .free, true)
  else
    let s := s.act skb .read
    if len < 17 ∧ out.pad = false then (s.act skb .free, true)
    else
      match out.ring with
      | .taken => (s.act skb (.hand adapter), true)
      | .dropped => (s.act skb .free, true)
      | .busy => ({ s with xmitErr := s.xmitErr + 1 }, false)

/-- `log_warn` for a frame that was not sent, "reduce error message output"; it reads the
    length of `skb`. -/
def logWarn (skb : Nat) (s : SkbLog) : SkbLog :=
  if s.xmitErr % 1000 = 0 then s.act skb .read else s

/-- Transmit `skb`, and free it if that fails; the warning is about `warned`. -/
def logSend (iwa : Iwa π) (out : XmitOutcome) (adapter : Port) (skb len warned : Nat)
    (s : SkbLog) : SkbLog :=
  match logXmitWfsFrame iwa out adapter skb len s with
  | (s, true) => s
  | (s, false) => (logWarn warned s).act skb .free

/-! ## Control frames -/

/-- What sending one control frame on a port takes from the outside: the allocation, and the
    outcome of the transmission. -/
structure CtrlOutcome where
  alloc : Bool := true
  xmit : XmitOutcome := {}

/-- The `sk_buff` of a port. -/
def Port.skb : Port → Nat
  | .primary => 0
  | .secondary => 1

/-- A round of the loops over the ports, for a frame of `len` bytes. -/
def logCtrlOn (iwa : Iwa π) (len : Nat) (out : CtrlOutcome) (adapter : Port) (s : SkbLog) :
    SkbLog :=
  if !iwa.link adapter then s
  else if !out.alloc then s
  else
    let s := (s.act adapter.skb .take).act adapter.skb .read
    logSend iwa out.xmit adapter adapter.skb len adapter.skb s

def logCtrl (iwa : Iwa π) (len : Nat) (out : Port → CtrlOutcome) (s : SkbLog) : SkbLog :=
  if !iwa.carrier then s
  else logCtrlOn iwa len (out .secondary) .secondary (logCtrlOn iwa len (out .primary) .primary s)

/-- `ixgbe_wfs_send_announce`. -/
def logSendAnnounce (iwa : Iwa π) (out : Port → CtrlOutcome) (s : SkbLog) : SkbLog :=
  logCtrl iwa 31 out s

/-- `ixgbe_wfs_send_raps`. -/
def logSendRaps (iwa : Iwa π) (out : Port → CtrlOutcome) (s : SkbLog) : SkbLog :=
  logCtrl iwa 22 out s

/-- The end of `ixgbe_wfs_send_bert`, with the copy in 0. -/
def logBertOn (iwa : Iwa π) (out : XmitOutcome) (adapter : Port) (len : Nat) (s : SkbLog) :
    SkbLog :=
  match logXmitWfsFrame iwa out adapter 0 len (s.act 0 .read) with
  | (s, false) => (logWarn 0 s).act 0 .free
  -- `wfsopt->val.bert.type` decides whether the frame is counted
  | (s, true) => s.act 0 .read

/-- `ixgbe_wfs_send_bert`; `copy` is the outcome of `skb_copy`. -/
def logSendBert (copy : Bool) (out : XmitOutcome) (wfsid : WfsId) (rq : Requester π)
    (s : SkbLog) : Except Fault SkbLog :=
  match rq.skb with
  | none => .ok s
  | some prepared =>
    if !copy then .ok s
    else
      let peer := rq.station.iwa.core.peer wfsid
      let s := s.act 0 .take
      if peer.fsmState = .init then .ok s
      else
        match peer.activeChannel with
        | none => .error .nullDeref
        | some adapter => .ok (logBertOn rq.station.iwa out adapter prepared.skbLen s)

/-! ## Data frames -/

/-- Transmit on a port whose link is up.  The warning is about the frame also where `skb` is the
    copy. -/
def logDataOn (iwa : Iwa π) (out : XmitOutcome) (adapter : Port) (skb len : Nat) (s : SkbLog) :
    SkbLog :=
  if !iwa.link adapter then s.act skb .free else logSend iwa out adapter skb len 0 s

/-- `ixgbe_xmit_frame`; the frame and its copy go to different ports. -/
def logXmitFrame (inp : TxInputs) (out : Port → XmitOutcome) (st : Station π) (skb : EthSkb)
    (s : SkbLog) : Except Fault SkbLog :=
  let s := s.act 0 .take
  if st.iwa.state ≠ .opened ∨ st.iwa.linkUp = false ∨ st.iwa.carrier = false then
    .ok (s.act 0 .free)
  else do
    let pkt? ← ixgbeWfsEncap st.iwa.core st.fib inp.key st.dataSeqno inp.pktbuf inp.headroom skb
    let s := s.act 0 .read
    match pkt? with
    | none => pure (s.act 0 .free)
    | some pkt => do
      let nskb : Bool := pkt.dest = wfsidAll ∧ inp.copy = true
      let s := if nskb then s.act 1 .take else s
      -- determine egress adapter
      let adapter? ←
        if pkt.dest = wfsidAll then .ok (some Port.primary)
        else match WfsId.ofByte? pkt.dest with
          | some id => .ok (st.iwa.core.peer id).activeChannel
          | none => .error .tableIndex
      match adapter? with
      | none => pure (s.act 0 .free)
      | some adapter =>
        let s := logDataOn st.iwa (out adapter) adapter 0 pkt.skbLen s
        pure (if nskb then logDataOn st.iwa (out adapter.other) adapter.other 1 pkt.skbLen s
          else s)

/-! ## Received frames -/

/-- The outcomes of what `ixgbe_process_skb_fields` does with a copy and with the frame of a
    control handler; `tag` is the one of `vlan_put_tag`, which frees the `sk_buff` it fails
    on. -/
structure RxOutcome where
  tag : Bool := true
  fwd : XmitOutcome := {}
  ctrl : XmitOutcome := {}

/-- "forward packet if not destined to me only". -/
def logForward (inp : RxInputs) (out : RxOutcome) (adapter : Port) (iwa : Iwa π) (skb : Skb)
    (s : SkbLog) : SkbLog :=
  if skb.dest ≠ iwa.core.wfsId.byte ∧ iwa.link adapter.other = true then
    if inp.copy then
      let s := (s.act 1 .take).act 1 .read
      if skb.vlanTci ≠ 0 ∧ out.tag = false then logWarn 0 (s.act 1 .free)
      else logSend iwa out.fwd adapter.other 1 skb.skbLen 0 s
    else s
  else s

def logSendCtrl (out : XmitOutcome) (adapter : Port) (iwa : Iwa π) (pkt : Skb) (s : SkbLog) :
    SkbLog :=
  if pkt.type = wfspktTypeCtrlNone then s.act 0 .free
  else if pkt.type = wfspktTypeCtrlRaps ∧ iwa.link adapter.other = true then
    logSend iwa out adapter.other 0 pkt.skbLen 0 s
  else if pkt.type = wfspktTypeCtrlBert ∧ iwa.link adapter = true then
    logSend iwa out adapter 0 pkt.skbLen 0 s
  else s.act 0 .free

variable [EventStore π]

/-- `ixgbe_process_skb_fields`. -/
def logProcessSkbFields (rb : Balancer Nat) (inp : RxInputs) (out : RxOutcome) (adapter : Port)
    (st : Station π) (skb : Skb) (s : SkbLog) : Except Fault SkbLog :=
  let s := (s.act 0 .take).act 0 .read
  if ixgbeWfsDecap skb = false then .ok (s.act 0 .free)
  -- drop loop packet
  else if skb.src = st.iwa.core.wfsId.byte then .ok (s.act 0 .free)
  else
    let s := (logForward inp out adapter st.iwa skb s).act 0 .read
    -- drop unicast for other workstation
    if ¬skb.isFor st.iwa.core.wfsId then .ok (s.act 0 .free)
    else if skb.isCtrl then do
      let (st, pkt) ← ixgbeWfsRecvControl inp adapter st skb
      pure (logSendCtrl out.ctrl adapter st.iwa pkt (s.act 0 .read))
    else do
      let _ ← st.fib.ixgbeWfsFibUpdate rb inp.key inp.kmalloc inp.kmalloc' skb.vlanTci
        (macAt skb.inner 6) (innerIp skb.inner) skb.src
      pure ((s.act 0 .read).act 0 .up)

end Functions

/-! ## Lives -/

namespace SkbLog

/-- Where the life of an `sk_buff` is. -/
def life (s : SkbLog) (skb : Nat) : Life := Lib.life skb s.trace

variable {s : SkbLog} {x y : Nat}

theorem trace_act (s : SkbLog) (x : Nat) (a : SkbAct) :
    (s.act x a).trace = s.trace ++ [(x, a.handling)] := by
  simp only [trace, act, List.map_append, List.map_cons, List.map_nil]

@[simp] theorem life_act_self (s : SkbLog) (x : Nat) (a : SkbAct) :
    (s.act x a).life x = (s.life x).step a.handling := by
  rw [life, trace_act, life_concat_self]
  rfl

theorem life_act_of_ne (hne : x ≠ y) (s : SkbLog) (a : SkbAct) : (s.act x a).life y = s.life y := by
  rw [life, trace_act, life_concat_of_ne hne]
  rfl

@[simp] theorem xmitErr_act (s : SkbLog) (x : Nat) (a : SkbAct) :
    (s.act x a).xmitErr = s.xmitErr := rfl

/-- All that `s` had of other `sk_buff`s, `t` has. -/
def SameBut (x : Nat) (s t : SkbLog) : Prop := ∀ y ≠ x, t.life y = s.life y

theorem SameBut.refl (x : Nat) (s : SkbLog) : SameBut x s s := fun _ _ => rfl

theorem SameBut.act {t : SkbLog} (h : SameBut x s t) (a : SkbAct) : SameBut x s (t.act x a) :=
  fun y hy => (life_act_of_ne (Ne.symm hy) t a).trans (h y hy)

/-- The `sk_buff` is released, and nothing happened to the others. -/
structure Gone (x : Nat) (s t : SkbLog) : Prop where
  released : t.life x = .released
  others : SameBut x s t

end SkbLog

/-! ## What a transmission does -/

open SkbLog

section Transmission

variable {π : Type} {iwa : Iwa π} {out : XmitOutcome} {adapter : Port} {x len warned : Nat}
  {s : SkbLog}

/-- `ixgbe_xmit_wfs_frame` finds the ring full. -/
def Refused (iwa : Iwa π) (out : XmitOutcome) (adapter : Port) (len : Nat) : Prop :=
  iwa.link adapter = true ∧ iwa.carrier = true ∧ (17 ≤ len ∨ out.pad = true) ∧ out.ring = .busy

instance (iwa : Iwa π) (out : XmitOutcome) (adapter : Port) (len : Nat) :
    Decidable (Refused iwa out adapter len) :=
  inferInstanceAs (Decidable (_ ∧ _ ∧ (_ ∨ _) ∧ _))

/-- `iwa->xmit_err` after a transmission. -/
def xmitErrAfter (iwa : Iwa π) (out : XmitOutcome) (adapter : Port) (len : Nat)
    (xmitErr : UInt32) : UInt32 :=
  if Refused iwa out adapter len then xmitErr + 1 else xmitErr

/-- **`ixgbe_xmit_wfs_frame`** takes the frame if it returns NETDEV_TX_OK, and leaves it to the
    caller otherwise. -/
theorem logXmitWfsFrame_spec (hlive : s.life x = .live) :
    (¬Refused iwa out adapter len ∧ ∃ t, logXmitWfsFrame iwa out adapter x len s = (t, true) ∧
        SkbLog.Gone x s t ∧ t.xmitErr = s.xmitErr) ∨
      (Refused iwa out adapter len ∧ ∃ t, logXmitWfsFrame iwa out adapter x len s = (t, false) ∧
        t.life x = .live ∧ SkbLog.SameBut x s t ∧ t.xmitErr = s.xmitErr + 1) := by
  have hsame := SkbLog.SameBut.refl x s
  unfold logXmitWfsFrame Refused
  -- only a ring that is busy leaves the frame with the caller
  by_cases hdown : (!iwa.link adapter || !iwa.carrier) = true
  · rw [if_pos hdown]
    refine .inl ⟨?_, _, rfl, ⟨by simp [hlive]; rfl, hsame.act _⟩, rfl⟩
    rintro ⟨hlink, hcarrier, -⟩
    rw [hlink, hcarrier] at hdown
    cases hdown
  · rw [if_neg hdown]
    have hread : (s.act x .read).life x = .live := by
      rw [life_act_self, hlive]
      rfl
    by_cases hpad : len < 17 ∧ out.pad = false
    · rw [if_pos hpad]
      refine .inl ⟨?_, _, rfl, ⟨by rw [life_act_self, hread]; rfl, (hsame.act _).act _⟩,
        rfl⟩
      rintro ⟨-, -, hlong | hok, -⟩
      · omega
      · rw [hpad.2] at hok
        cases hok
    · rw [if_neg hpad]
      have hup : iwa.link adapter = true ∧ iwa.carrier = true := by
        simpa using hdown
      have hlong : 17 ≤ len ∨ out.pad = true := by
        by_cases h17 : 17 ≤ len
        · exact .inl h17
        · exact .inr (by
            cases hp : out.pad with
            | true => rfl
            | false => exact absurd ⟨by omega, hp⟩ hpad)
      cases hring : out.ring with
      | taken =>
        exact .inl ⟨fun h => (nomatch h.2.2.2), _, rfl,
          ⟨by rw [life_act_self, hread]; rfl, (hsame.act _).act _⟩, rfl⟩
      | dropped =>
        exact .inl ⟨fun h => (nomatch h.2.2.2), _, rfl,
          ⟨by rw [life_act_self, hread]; rfl, (hsame.act _).act _⟩, rfl⟩
      | busy => exact .inr ⟨⟨hup.1, hup.2, hlong, rfl⟩, _, rfl, hread, hsame.act _, rfl⟩

theorem life_logWarn (hlive : s.life warned = .live) (y : Nat) :
    (logWarn warned s).life y = s.life y := by
  unfold logWarn
  split
  · by_cases hy : warned = y
    · subst hy
      rw [life_act_self, hlive]
      rfl
    · exact life_act_of_ne hy s .read
  · rfl

/-- **Transmit or free**, with a warning about an `sk_buff` that is there. -/
theorem gone_of_logSend (hlive : s.life x = .live) (hwarned : s.life warned = .live) :
    SkbLog.Gone x s (logSend iwa out adapter x len warned s) := by
  unfold logSend
  rcases logXmitWfsFrame_spec hlive with
    ⟨-, t, ht, hgone, -⟩ | ⟨-, t, ht, hkept, hothers, -⟩
  · rw [ht]
    exact hgone
  · rw [ht]
    have hwarned' : t.life warned = .live := by
      by_cases hx : warned = x
      · rw [hx]
        exact hkept
      · rw [hothers warned hx, hwarned]
    have hwarn := life_logWarn hwarned'
    refine ⟨?_, fun y hy => ?_⟩
    · rw [life_act_self, hwarn, hkept]
      rfl
    · rw [life_act_of_ne (Ne.symm hy), hwarn, hothers y hy]

end Transmission

/-! ## The exits -/

/-- No `sk_buff` is left over, and none was touched after its release. -/
def SkbLog.Settled (s : SkbLog) : Prop := ReleasedOnce s.trace

variable {s : SkbLog} {x : Nat}

theorem SkbLog.settled_iff : s.Settled ↔ ∀ x, (s.life x).Over :=
  releasedOnce_iff

theorem SkbLog.Gone.settled {t : SkbLog} (h : SkbLog.Gone x s t)
    (hothers : ∀ y ≠ x, (s.life y).Over) : t.Settled := by
  rw [SkbLog.settled_iff]
  intro y
  by_cases hy : y = x
  · rw [hy, h.released]
    trivial
  · rw [h.others y hy]
    exact hothers y hy

theorem SkbLog.gone_act {a : SkbAct} (hlive : s.life x = .live) (ha : a.handling = .release) :
    SkbLog.Gone x s (s.act x a) :=
  ⟨by rw [life_act_self, hlive, ha]; rfl, (SkbLog.SameBut.refl x s).act a⟩

theorem SkbLog.life_take (habsent : s.life x = .absent) :
    ((s.act x .take).act x .read).life x = .live := by
  rw [life_act_self, life_act_self, habsent]
  rfl

section Exits

variable {π : Type} {iwa : Iwa π} {s t : SkbLog} {len : Nat} {adapter : Port} {inp : RxInputs}
  {out : RxOutcome}

theorem logCtrlOn_over {out : CtrlOutcome} (habsent : s.life adapter.skb = .absent) :
    ((logCtrlOn iwa len out adapter s).life adapter.skb).Over ∧
      SkbLog.SameBut adapter.skb s (logCtrlOn iwa len out adapter s) := by
  have hnone : (s.life adapter.skb).Over ∧ SkbLog.SameBut adapter.skb s s := by
    rw [habsent]
    exact ⟨trivial, .refl _ _⟩
  unfold logCtrlOn
  split
  · exact hnone
  · split
    · exact hnone
    · have hlive := life_take habsent
      have hsame := ((SkbLog.SameBut.refl adapter.skb s).act .take).act .read
      have hgone : SkbLog.Gone adapter.skb _
          (logSend iwa out.xmit adapter adapter.skb len adapter.skb _) :=
        gone_of_logSend hlive hlive
      refine ⟨?_, fun y hy => (hgone.others y hy).trans (hsame y hy)⟩
      rw [hgone.released]
      trivial

theorem logCtrl_settled (out : Port → CtrlOutcome) (xmitErr : UInt32) :
    (logCtrl iwa len out { xmitErr }).Settled := by
  have hstart : ∀ y, ({ xmitErr } : SkbLog).life y = .absent := fun _ => rfl
  rw [settled_iff]
  intro y
  unfold logCtrl
  split
  · rw [hstart]
    trivial
  · obtain ⟨t, ht⟩ : ∃ t, t = logCtrlOn iwa len (out .primary) .primary { xmitErr } := ⟨_, rfl⟩
    obtain ⟨u, hu⟩ : ∃ u, u = logCtrlOn iwa len (out .secondary) .secondary t := ⟨_, rfl⟩
    obtain ⟨hfirst, hothers⟩ : (t.life Port.primary.skb).Over ∧ SkbLog.SameBut _ _ t :=
      ht ▸ logCtrlOn_over (hstart Port.primary.skb)
    have habsent : t.life Port.secondary.skb = .absent := (hothers 1 (by decide)).trans (hstart 1)
    obtain ⟨hsecond, hothers'⟩ : (u.life Port.secondary.skb).Over ∧ SkbLog.SameBut _ t u :=
      hu ▸ logCtrlOn_over habsent
    rw [← ht, ← hu]
    -- each port has a frame of its own, which the other port leaves alone
    by_cases hsec : y = Port.secondary.skb
    · rw [hsec]
      exact hsecond
    · rw [hothers' y hsec]
      by_cases hpri : y = Port.primary.skb
      · rw [hpri]
        exact hfirst
      · rw [hothers y hpri, hstart]
        trivial

/-! ### Received frames -/

theorem logForward_spec {skb : Skb} (hlive : s.life 0 = .live) (habsent : s.life 1 = .absent) :
    (logForward inp out adapter iwa skb s).life 0 = .live ∧
      ((logForward inp out adapter iwa skb s).life 1).Over ∧
      SkbLog.SameBut 1 s (logForward inp out adapter iwa skb s) := by
  have hnone : s.life 0 = .live ∧ (s.life 1).Over ∧ SkbLog.SameBut 1 s s := by
    rw [habsent]
    exact ⟨hlive, trivial, .refl _ _⟩
  have hcopy := life_take habsent
  have hsame := ((SkbLog.SameBut.refl 1 s).act .take).act .read
  have hkept : ((s.act 1 .take).act 1 .read).life 0 = .live := (hsame 0 (by decide)).trans hlive
  have hdone {u : SkbLog} (hgone : SkbLog.Gone 1 ((s.act 1 .take).act 1 .read) u) :
      u.life 0 = .live ∧ (u.life 1).Over ∧ SkbLog.SameBut 1 s u := by
    refine ⟨(hgone.others 0 (by decide)).trans hkept, by rw [hgone.released]; trivial, ?_⟩
    exact fun y hy => (hgone.others y hy).trans (hsame y hy)
  unfold logForward
  split
  · split
    · split
      · -- `vlan_put_tag` has freed the copy
        have hgone := gone_act (a := .free) hcopy rfl
        have hwarn := life_logWarn ((hgone.others 0 (by decide)).trans hkept)
        apply hdone
        exact ⟨(hwarn 1).trans hgone.released, fun y hy => (hwarn y).trans (hgone.others y hy)⟩
      · exact hdone (gone_of_logSend hcopy hkept)
    · exact hnone
  · exact hnone

theorem logSendCtrl_gone {out : XmitOutcome} {pkt : Skb} (hlive : s.life 0 = .live) :
    SkbLog.Gone 0 s (logSendCtrl out adapter iwa pkt s) := by
  have hfree := gone_act (a := .free) hlive rfl
  unfold logSendCtrl
  split
  · exact hfree
  · split
    · exact gone_of_logSend hlive hlive
    · split
      · exact gone_of_logSend hlive hlive
      · exact hfree

/-- **`ixgbe_process_skb_fields`** settles everything. -/
theorem logProcessSkbFields_settled [EventStore π] {rb : Balancer Nat} {st : Station π} {skb : Skb}
    {xmitErr : UInt32} (h : logProcessSkbFields rb inp out adapter st skb { xmitErr } = .ok t) :
    t.Settled := by
  have hstart : ∀ y, ({ xmitErr } : SkbLog).life y = .absent := fun _ => rfl
  have hlive := life_take (hstart 0)
  have hsame := ((SkbLog.SameBut.refl 0 { xmitErr }).act .take).act .read
  have habsent : ∀ y ≠ 0, ((act { xmitErr } 0 .take).act 0 .read).life y = .absent :=
    fun y hy => (hsame y hy).trans (hstart y)
  have hfirst : ∀ y ≠ 0, (((act { xmitErr } 0 .take).act 0 .read).life y).Over := by
    intro y hy
    rw [habsent y hy]
    trivial
  unfold logProcessSkbFields at h
  split at h
  · cases h
    exact (gone_act hlive rfl).settled hfirst
  · split at h
    · cases h
      exact (gone_act hlive rfl).settled hfirst
    · obtain ⟨hkept, hcopy, hothers⟩ := logForward_spec hlive (habsent 1 (by decide))
      -- the frame after the copy is out of the way
      set u := (logForward inp out adapter st.iwa skb
        ((act { xmitErr } 0 .take).act 0 .read)).act 0 .read with hu
      have hread : u.life 0 = .live := by
        rw [hu, life_act_self, hkept]
        rfl
      have hrest : ∀ y ≠ 0, (u.life y).Over := by
        intro y hy
        rw [hu, life_act_of_ne (Ne.symm hy)]
        by_cases hone : y = 1
        · rw [hone]
          exact hcopy
        · rw [hothers y hone]
          exact hfirst y hy
      have hread' : (u.act 0 .read).life 0 = .live := by
        rw [life_act_self, hread]
        rfl
      have hrest' : ∀ y ≠ 0, ((u.act 0 .read).life y).Over := by
        intro y hy
        rw [life_act_of_ne (Ne.symm hy)]
        exact hrest y hy
      split at h
      · cases h
        exact (gone_act hread rfl).settled hrest
      · split at h
        · obtain ⟨⟨st', pkt⟩, -, h⟩ := bind_eq_ok.mp h
          cases h
          exact (logSendCtrl_gone hread').settled hrest'
        · obtain ⟨fib, -, h⟩ := bind_eq_ok.mp h
          cases h
          exact (gone_act hread' rfl).settled hrest'

end Exits

/-! ## The frames that are sent -/

/-- The outcome is the one that `ring` stands for where frames are looked at only: the ring takes
    the frame, or nothing is sent. -/
def XmitOutcome.Agrees (out : XmitOutcome) (ring : Bool) : Prop :=
  out.pad = true ∧ (out.ring = .taken ↔ ring = true)

namespace SkbLog

theorem handed_act (s : SkbLog) (x : Nat) (adapter : Port) :
    (s.act x (.hand adapter)).handed = s.handed ++ [adapter] := by
  simp [handed, act]

theorem handed_act_of_ne (s : SkbLog) (x : Nat) {a : SkbAct} (ha : ∀ adapter, a ≠ .hand adapter) :
    (s.act x a).handed = s.handed := by
  cases a with
  | hand adapter => exact absurd rfl (ha adapter)
  | _ => simp [handed, act]

@[simp] theorem handed_act_take (s : SkbLog) (x : Nat) : (s.act x .take).handed = s.handed :=
  s.handed_act_of_ne x nofun

@[simp] theorem handed_act_read (s : SkbLog) (x : Nat) : (s.act x .read).handed = s.handed :=
  s.handed_act_of_ne x nofun

@[simp] theorem handed_act_free (s : SkbLog) (x : Nat) : (s.act x .free).handed = s.handed :=
  s.handed_act_of_ne x nofun

@[simp] theorem handed_act_up (s : SkbLog) (x : Nat) : (s.act x .up).handed = s.handed :=
  s.handed_act_of_ne x nofun

end SkbLog

section Frames

variable {π : Type} {iwa : Iwa π} {out : XmitOutcome} {ring : Bool} {adapter : Port}
  {x warned : Nat} {skb : Skb} {s t : SkbLog} {frames : List (Port × Skb)}

/-- **The log of a transmission** names the ports of the frames that are handed over. -/
theorem handed_logXmitWfsFrame (hring : out.Agrees ring) :
    (logXmitWfsFrame iwa out adapter x skb.skbLen s).1.handed =
      s.handed ++ (ixgbeXmitWfsFrame iwa ring adapter skb).map Prod.fst := by
  obtain ⟨hpad, hring⟩ := hring
  unfold logXmitWfsFrame ixgbeXmitWfsFrame
  by_cases hdown : (!iwa.link adapter || !iwa.carrier) = true
  · simp [hdown]
  · have hlong : ¬(skb.skbLen < 17 ∧ out.pad = false) := by
      rw [hpad]
      exact fun h => nomatch h.2
    rw [if_neg hdown, if_neg hdown]
    rw [if_neg hlong]
    cases hout : out.ring with
    | taken =>
      rw [if_pos (hring.mp hout)]
      simp [handed_act]
    -- a frame that is not taken is in neither list
    | busy =>
      rw [if_neg fun h => by rw [hring.mpr h] at hout; cases hout]
      simp [handed, act]
    | dropped =>
      rw [if_neg fun h => by rw [hring.mpr h] at hout; cases hout]
      simp

theorem handed_logSend (hring : out.Agrees ring) :
    (logSend iwa out adapter x skb.skbLen warned s).handed =
      s.handed ++ (ixgbeXmitWfsFrame iwa ring adapter skb).map Prod.fst := by
  rw [← handed_logXmitWfsFrame (x := x) hring]
  unfold logSend
  cases logXmitWfsFrame iwa out adapter x skb.skbLen s with
  | mk t ok =>
    cases ok with
    | true => rfl
    | false =>
      rw [handed_act_free]
      unfold logWarn
      split
      · rw [handed_act_read]
      · rfl

theorem handed_logProcessSkbFields [EventStore π] {rb : Balancer Nat} {inp : RxInputs}
    {out : RxOutcome} {st st' : Station π} {up : Bool} (htag : out.tag = true)
    (hfwd : out.fwd.Agrees inp.ringFwd) (hctrl : out.ctrl.Agrees inp.ringCtrl)
    (h : ixgbeProcessSkbFields rb inp adapter st skb = .ok (st', frames, up)) :
    ∃ t, logProcessSkbFields rb inp out adapter st skb s = .ok t ∧
      t.handed = s.handed ++ frames.map Prod.fst := by
  have hforward (u : SkbLog) : (logForward inp out adapter st.iwa skb u).handed =
      u.handed ++ (forwardSkb inp adapter st.iwa skb).map Prod.fst := by
    unfold logForward forwardSkb
    split
    · split
      · simp [htag, handed_logSend hfwd]
      · simp
    · simp
  -- the two that send, each with the frames that the model sends
  have hsent (iwa : Iwa π) (pkt : Skb) (u : SkbLog) :
      (logSendCtrl out.ctrl adapter iwa pkt u).handed =
        u.handed ++ (sendCtrl inp adapter iwa pkt).map Prod.fst := by
    unfold logSendCtrl sendCtrl
    split
    · simp
    · split
      · exact handed_logSend hctrl
      · split
        · exact handed_logSend hctrl
        · simp
  unfold ixgbeProcessSkbFields at h
  unfold logProcessSkbFields
  split at h
  · next hdecap =>
    cases h
    exact ⟨_, if_pos hdecap, by simp⟩
  · next hdecap =>
    rw [if_neg hdecap]
    split at h
    · next hloop =>
      cases h
      exact ⟨_, if_pos hloop, by simp⟩
    · next hloop =>
      rw [if_neg hloop]
      split at h
      · next hfor =>
        cases h
        exact ⟨_, if_pos hfor, by simp [hforward]⟩
      · next hfor =>
        rw [if_neg hfor]
        split at h
        · next hctl =>
          obtain ⟨⟨st₁, pkt⟩, hrecv, h⟩ := bind_eq_ok.mp h
          cases h
          rw [if_pos hctl, hrecv]
          exact ⟨_, rfl, by simp [hforward, hsent]⟩
        · next hctl =>
          obtain ⟨fib, hfib, h⟩ := bind_eq_ok.mp h
          cases h
          rw [if_neg hctl, hfib]
          exact ⟨_, rfl, by simp [hforward]⟩

theorem handed_logXmitFrame {inp : TxInputs} {out : Port → XmitOutcome} {st st' : Station π}
    {skb : EthSkb} (hring : ∀ adapter, (out adapter).Agrees (inp.ring adapter))
    (h : ixgbeXmitFrame inp st skb = .ok (st', frames)) :
    ∃ t, logXmitFrame inp out st skb s = .ok t ∧ t.handed = s.handed ++ frames.map Prod.fst := by
  have hsent (pkt : Skb) (adapter : Port) (x : Nat) (u : SkbLog) :
      (logDataOn st.iwa (out adapter) adapter x pkt.skbLen u).handed =
        u.handed ++ (if st.iwa.link adapter then
          ixgbeXmitWfsFrame st.iwa (inp.ring adapter) adapter pkt else []).map Prod.fst := by
    unfold logDataOn
    cases st.iwa.link adapter with
    | false => simp
    | true => exact handed_logSend (hring adapter)
  unfold ixgbeXmitFrame at h
  unfold logXmitFrame
  split at h
  · next hclosed =>
    cases h
    exact ⟨_, if_pos hclosed, by simp⟩
  · next hclosed =>
    rw [if_neg hclosed]
    obtain ⟨pkt?, hencap, h⟩ := bind_eq_ok.mp h
    rw [hencap]
    cases pkt? with
    | none =>
      cases h
      exact ⟨_, rfl, by simp⟩
    | some pkt =>
      -- a frame for all stations goes out on both ports, the second time as a copy
      by_cases hall : pkt.dest = wfsidAll
      · by_cases hcopy : inp.copy = true
        · simp only [hall, hcopy, and_self, decide_true, if_true, ok_bind] at h ⊢
          cases h
          exact ⟨_, rfl, by simp [hsent]⟩
        · simp only [hall, hcopy, if_true, ok_bind] at h ⊢
          cases h
          exact ⟨_, rfl, by simp [hsent]⟩
      · simp only [hall, false_and, decide_false, if_false, ok_bind] at h ⊢
        cases hid : WfsId.ofByte? pkt.dest with
        | none =>
          rw [hid] at h
          cases h
        | some id =>
          rw [hid] at h
          dsimp only at h ⊢
          cases hchannel : (st.iwa.core.peer id).activeChannel with
          | none =>
            rw [hchannel] at h
            cases h
            exact ⟨_, rfl, by simp⟩
          | some adapter =>
            rw [hchannel] at h
            cases h
            exact ⟨_, rfl, by simp [hsent]⟩

theorem handed_logSendBert {inp : BertSendInputs} {wfsid : WfsId} {rq : Requester π}
    (hring : out.Agrees ring) (h : logSendBert inp.copy out wfsid rq s = .ok t) :
    t.handed = s.handed ++ (ixgbeWfsSendBert inp ring wfsid rq).2.map Prod.fst := by
  have hsent (adapter : Port) (prepared pkt : Skb) (hlen : pkt.skbLen = prepared.skbLen)
      (u : SkbLog) : (logBertOn rq.station.iwa out adapter prepared.skbLen u).handed =
        u.handed ++ (ixgbeXmitWfsFrame rq.station.iwa ring adapter pkt).map Prod.fst := by
    have hone : (logXmitWfsFrame rq.station.iwa out adapter 0 pkt.skbLen (u.act 0 .read)).1.handed
        = _ ++ (ixgbeXmitWfsFrame rq.station.iwa ring adapter pkt).map Prod.fst :=
      handed_logXmitWfsFrame hring
    rw [hlen, handed_act_read] at hone
    rw [← hone]
    unfold logBertOn
    cases logXmitWfsFrame rq.station.iwa out adapter 0 prepared.skbLen (u.act 0 .read) with
    | mk v ok =>
      cases ok with
      | true => exact v.handed_act_read 0
      | false =>
        rw [handed_act_free]
        unfold logWarn
        split
        · rw [handed_act_read]
        · rfl
  unfold logSendBert at h
  unfold ixgbeWfsSendBert
  cases hskb : rq.skb with
  | none =>
    rw [hskb] at h
    cases h
    simp
  | some prepared =>
    rw [hskb] at h
    dsimp only at h ⊢
    cases hcopy : inp.copy with
    | false =>
      rw [hcopy] at h
      cases h
      simp
    | true =>
      rw [hcopy, if_neg (by decide)] at h
      rw [if_neg (by decide)]
      split at h
      · -- a station that is not there has no channel either
        next hinit =>
        cases h
        have hnone : (rq.station.iwa.core.peer wfsid).activeChannel = none := by
          rw [WfsPeer.activeChannel, hinit]
        rw [hnone]
        simp
      · cases hchannel : (rq.station.iwa.core.peer wfsid).activeChannel with
        | none =>
          rw [hchannel] at h
          cases h
        | some adapter =>
          rw [hchannel] at h
          cases h
          have hone := hsent adapter prepared (setBertSend prepared
            (bertSendType (rq.bertSeqno + 1)) (rq.bertSeqno + 1) inp.now) rfl (s.act 0 .take)
          rw [hone, handed_act_take]

end Frames

/-! ## The exits that go wrong -/

section Sound

variable {π : Type} {rq : Requester π} {st : Station π} {t : SkbLog} {xmitErr : UInt32} {s : SkbLog}
  {iwa : Iwa π} {out : XmitOutcome} {adapter : Port} {len : Nat} {inp : TxInputs}

/-- There is no copy of the test frame to send, or the ring of the active channel is full. -/
def BertSound (copy : Bool) (out : XmitOutcome) (wfsid : WfsId) (rq : Requester π) : Prop :=
  ∀ prepared, rq.skb = some prepared → copy = true →
    ∃ adapter, (rq.station.iwa.core.peer wfsid).activeChannel = some adapter ∧
      Refused rq.station.iwa out adapter prepared.skbLen

theorem SkbLog.Gone.not_settled_read {x : Nat} (h : SkbLog.Gone x s t) :
    ¬(t.act x .read).Settled := by
  rw [SkbLog.settled_iff]
  intro hover
  have hx := hover x
  rw [SkbLog.life_act_self, h.released] at hx
  exact hx

theorem settled_start (xmitErr : UInt32) : ({ xmitErr } : SkbLog).Settled :=
  settled_iff.mpr fun _ => trivial

theorem logBertOn_settled_iff :
    (logBertOn iwa out adapter len (act { xmitErr } 0 .take)).Settled ↔
      Refused iwa out adapter len := by
  have hlive := life_take (x := 0) (s := { xmitErr }) rfl
  have hothers : ∀ y ≠ 0, (((act { xmitErr } 0 .take).act 0 .read).life y).Over := by
    intro y hy
    rw [life_act_of_ne (Ne.symm hy), life_act_of_ne (Ne.symm hy)]
    trivial
  unfold logBertOn
  rcases logXmitWfsFrame_spec hlive with
    ⟨hok, u, hu, hgone, -⟩ | ⟨hfull, u, hu, hkept, hsame, -⟩
  · rw [hu]
    exact iff_of_false hgone.not_settled_read hok
  · rw [hu]
    have hwarn := life_logWarn hkept
    refine iff_of_true ((gone_act ((hwarn 0).trans hkept) rfl).settled fun y hy => ?_) hfull
    rw [hwarn, hsame y hy]
    exact hothers y hy

/-- **`ixgbe_wfs_send_bert`** settles everything only if there is nothing to send or the ring is
    full. -/
theorem logSendBert_settled_iff {copy : Bool} {wfsid : WfsId}
    (h : logSendBert copy out wfsid rq { xmitErr } = .ok t) :
    t.Settled ↔ BertSound copy out wfsid rq := by
  unfold logSendBert at h
  unfold BertSound
  cases hskb : rq.skb with
  | none =>
    rw [hskb] at h
    cases h
    exact iff_of_true (settled_start xmitErr) fun _ h => nomatch h
  | some prepared =>
    rw [hskb] at h
    dsimp only at h
    cases copy with
    | false =>
      cases h
      exact iff_of_true (settled_start xmitErr) fun _ _ h => nomatch h
    | true =>
      rw [if_neg (by decide)] at h
      split at h
      · next hinit =>
        -- the copy is forgotten
        cases h
        refine iff_of_false (fun hsettled => settled_iff.mp hsettled 0) fun hsound => ?_
        obtain ⟨adapter, hchannel, -⟩ := hsound prepared rfl rfl
        rw [WfsPeer.activeChannel, hinit] at hchannel
        cases hchannel
      · split at h
        · cases h
        · next adapter hadapter =>
          cases h
          rw [logBertOn_settled_iff]
          constructor
          · rintro hfull prepared' heq -
            cases heq
            exact ⟨adapter, hadapter, hfull⟩
          · intro hsound
            obtain ⟨adapter', hadapter', hfull⟩ := hsound prepared rfl rfl
            obtain rfl := Option.some.inj (hadapter.symm.trans hadapter')
            exact hfull

/-- `ixgbe_xmit_frame` does not warn that the copy of a frame for every station was not sent: the
    ring takes the copy, or the warning is left out this time. -/
def DataSound (inp : TxInputs) (out : Port → XmitOutcome) (skb : EthSkb) (xmitErr : UInt32)
    (st : Station π) : Prop :=
  ¬(st.iwa.state = .opened ∧ st.iwa.linkUp = true ∧ ∃ pkt,
    ixgbeWfsEncap st.iwa.core st.fib inp.key st.dataSeqno inp.pktbuf inp.headroom skb =
        .ok (some pkt) ∧ pkt.dest = wfsidAll ∧ inp.copy = true ∧
      Refused st.iwa (out .secondary) .secondary pkt.skbLen ∧
      (xmitErrAfter st.iwa (out .primary) .primary pkt.skbLen xmitErr + 1) % 1000 = 0)

theorem logFrame_gone (hlive : s.life 0 = .live) :
    SkbLog.Gone 0 s (logDataOn iwa out adapter 0 len s) ∧
      (logDataOn iwa out adapter 0 len s).xmitErr = xmitErrAfter iwa out adapter len s.xmitErr := by
  unfold xmitErrAfter logDataOn
  by_cases hdown : (!iwa.link adapter) = true
  · rw [if_pos hdown]
    have hno : ¬Refused iwa out adapter len := by
      rintro ⟨hlink, -⟩
      rw [hlink] at hdown
      cases hdown
    rw [if_neg hno]
    exact ⟨gone_act hlive rfl, rfl⟩
  · rw [if_neg hdown]
    refine ⟨gone_of_logSend hlive hlive, ?_⟩
    unfold logSend
    rcases logXmitWfsFrame_spec hlive
      with ⟨hok, u, hu, -, herr⟩ | ⟨hfull, u, hu, -, -, herr⟩
    · rw [hu, if_neg hok]
      exact herr
    · rw [hu, if_pos hfull, ← herr]
      dsimp only
      unfold logWarn
      split <;> rfl

theorem logCopy_settled_iff (hlive : s.life 1 = .live) (hgone : s.life 0 = .released)
    (hothers : ∀ y ≠ 0, y ≠ 1 → (s.life y).Over) :
    (logSend iwa out adapter 1 len 0 s).Settled ↔
      ¬(Refused iwa out adapter len ∧ (s.xmitErr + 1) % 1000 = 0) := by
  have hrest : ∀ y ≠ 1, (s.life y).Over := by
    intro y hy
    by_cases hzero : y = 0
    · rw [hzero, hgone]
      trivial
    · exact hothers y hzero hy
  unfold logSend
  rcases logXmitWfsFrame_spec hlive with
    ⟨hok, u, hu, hsent, -⟩ | ⟨hfull, u, hu, hkept, hsame, herr⟩
  · rw [hu]
    exact iff_of_true (hsent.settled hrest) fun h => hok h.1
  · rw [hu]
    dsimp only
    unfold logWarn
    rw [herr]
    -- the warning reads the frame that was copied, and that one is gone
    by_cases hwarn : (s.xmitErr + 1) % 1000 = 0
    · rw [if_pos hwarn]
      refine iff_of_false (fun hsettled => ?_) (not_not.mpr ⟨hfull, hwarn⟩)
      have hzero := settled_iff.mp hsettled 0
      rw [life_act_of_ne (by decide), life_act_self, hsame 0 (by decide),
        hgone] at hzero
      exact hzero
    · rw [if_neg hwarn]
      refine iff_of_true ((gone_act hkept rfl).settled fun y hy => ?_) fun h => hwarn h.2
      rw [hsame y hy]
      exact hrest y hy

theorem logBoth_settled_iff (iwa : Iwa π) (out : Port → XmitOutcome) (len : Nat)
    (hlive : s.life 0 = .live) (habsent : ∀ y ≠ 0, s.life y = .absent) :
    let u := logDataOn iwa (out .primary) .primary 0 len (s.act 1 .take)
    (logDataOn iwa (out .secondary) .secondary 1 len u).Settled ↔
      ¬(Refused iwa (out .secondary) .secondary len ∧
        (xmitErrAfter iwa (out .primary) .primary len s.xmitErr + 1) % 1000 = 0) := by
  intro u
  have hlive' : (s.act 1 .take).life 0 = .live := (life_act_of_ne (by decide) s .take).trans hlive
  have htwo : (s.act 1 .take).life 1 = .live := by
    rw [life_act_self, habsent 1 (by decide)]
    rfl
  obtain ⟨hgone, herr⟩ : SkbLog.Gone 0 (s.act 1 .take) u ∧
      u.xmitErr = xmitErrAfter iwa (out .primary) .primary len s.xmitErr := logFrame_gone hlive'
  have hkept : u.life 1 = .live := (hgone.others 1 (by decide)).trans htwo
  -- besides the frame, which is gone, and the copy there is no sk_buff
  have hrest : ∀ y ≠ 0, y ≠ 1 → (u.life y).Over := by
    intro y hzero hone
    rw [hgone.others y hzero, life_act_of_ne (Ne.symm hone), habsent y hzero]
    trivial
  rw [← herr]
  unfold logDataOn
  by_cases hdown : (!iwa.link .secondary) = true
  · rw [if_pos hdown]
    refine iff_of_true ((gone_act hkept rfl).settled fun y hone => ?_) ?_
    · by_cases hzero : y = 0
      · rw [hzero, hgone.released]
        trivial
      · exact hrest y hzero hone
    · rintro ⟨⟨hlink, -⟩, -⟩
      rw [hlink] at hdown
      cases hdown
  · rw [if_neg hdown]
    exact logCopy_settled_iff hkept hgone.released hrest

theorem logXmitFrame_cases {out : Port → XmitOutcome} {skb : EthSkb}
    (h : logXmitFrame inp out st skb s = .ok t) :
    ((st.iwa.state ≠ .opened ∨ st.iwa.linkUp = false ∨ st.iwa.carrier = false) ∧
        t = (s.act 0 .take).act 0 .free) ∨
      ∃ pkt?, ixgbeWfsEncap st.iwa.core st.fib inp.key st.dataSeqno inp.pktbuf inp.headroom skb =
          .ok pkt? ∧
        ((st.iwa.state = .opened ∧ st.iwa.linkUp = true ∧ ∃ pkt, pkt? = some pkt ∧
            pkt.dest = wfsidAll ∧ inp.copy = true ∧
            t = logDataOn st.iwa (out .secondary) .secondary 1 pkt.skbLen
              (logDataOn st.iwa (out .primary) .primary 0 pkt.skbLen
                (((s.act 0 .take).act 0 .read).act 1 .take))) ∨
          ((∀ pkt, pkt? = some pkt → ¬(pkt.dest = wfsidAll ∧ inp.copy = true)) ∧
            (t = ((s.act 0 .take).act 0 .read).act 0 .free ∨ ∃ adapter len,
              t = logDataOn st.iwa (out adapter) adapter 0 len
                ((s.act 0 .take).act 0 .read)))) := by
  unfold logXmitFrame at h
  split at h
  · next hclosed => exact .inl ⟨hclosed, (Except.ok.inj h).symm⟩
  · next hopen =>
    obtain ⟨hopened, hup, -⟩ : st.iwa.state = .opened ∧ st.iwa.linkUp = true ∧ _ := by
      simpa only [not_or, not_not, Bool.not_eq_false] using hopen
    obtain ⟨pkt?, hencap, h⟩ := bind_eq_ok.mp h
    refine .inr ⟨pkt?, hencap, ?_⟩
    cases pkt? with
    | none => exact .inr ⟨nofun, .inl (Except.ok.inj h).symm⟩
    | some pkt =>
      by_cases hboth : pkt.dest = wfsidAll ∧ inp.copy = true
      · simp only [hboth.1, hboth.2, and_self, decide_true, if_true, ok_bind] at h
        exact .inl ⟨hopened, hup, pkt, rfl, hboth.1, hboth.2, (Except.ok.inj h).symm⟩
      · -- without a copy the channel only says where the frame goes
        refine .inr ⟨fun _ heq => Option.some.inj heq ▸ hboth, ?_⟩
        simp only [hboth, decide_false, Bool.false_eq_true, if_false] at h
        split at h
        · exact .inr ⟨.primary, pkt.skbLen, (Except.ok.inj h).symm⟩
        · split at h
          · cases hchannel : (st.iwa.core.peer _).activeChannel with
            | none =>
              rw [hchannel] at h
              exact .inl (Except.ok.inj h).symm
            | some adapter =>
              rw [hchannel] at h
              exact .inr ⟨adapter, pkt.skbLen, (Except.ok.inj h).symm⟩
          · cases h

/-- **`ixgbe_xmit_frame`** settles everything unless it warns about the copy. -/
theorem logXmitFrame_settled_iff {out : Port → XmitOutcome} {skb : EthSkb}
    (h : logXmitFrame inp out st skb { xmitErr } = .ok t) :
    t.Settled ↔ DataSound inp out skb xmitErr st := by
  have hread : ((act { xmitErr } 0 .take).act 0 .read).life 0 = .live := rfl
  have habsent : ∀ y ≠ 0, ((act { xmitErr } 0 .take).act 0 .read).life y = .absent := by
    intro y hy
    rw [life_act_of_ne (Ne.symm hy), life_act_of_ne (Ne.symm hy)]
    rfl
  have hover : ∀ y ≠ 0, (((act { xmitErr } 0 .take).act 0 .read).life y).Over := by
    intro y hy
    rw [habsent y hy]
    trivial
  unfold DataSound
  rcases logXmitFrame_cases h with ⟨hclosed, rfl⟩ | ⟨pkt?, hencap, hcase⟩
  · refine iff_of_true ((gone_act rfl rfl).settled fun y hy => ?_) ?_
    · rw [life_act_of_ne (Ne.symm hy)]
      trivial
    · rintro ⟨hopened, hup, pkt, -, -, -, hfull, -⟩
      rcases hclosed with hstate | hlink | hcarrier
      · exact hstate hopened
      · rw [hup] at hlink
        cases hlink
      · rw [hfull.2.1] at hcarrier
        cases hcarrier
  -- only a frame that goes out on both ports can be read after it is gone
  · rcases hcase with ⟨hopened, hup, pkt, rfl, hall, hcopy, rfl⟩ | ⟨hnot, hone⟩
    · refine (logBoth_settled_iff st.iwa out pkt.skbLen hread habsent).trans ?_
      simp only [hencap, hopened, hup, true_and, Except.ok.injEq, Option.some.injEq,
        exists_eq_left', hall, hcopy]
      rfl
    · refine iff_of_true ?_ ?_
      · rcases hone with rfl | ⟨adapter, len, rfl⟩
        · exact (gone_act hread rfl).settled hover
        · exact (logFrame_gone hread).1.settled hover
      · rintro ⟨-, -, pkt, hsome, hall, hcopy, -⟩
        exact hnot pkt (Except.ok.inj (hencap.symm.trans hsome)) ⟨hall, hcopy⟩

end Sound

/-! ## Every skb is released exactly once -/

inductive SkbCall where
  | announce (out : Port → CtrlOutcome)
  | raps (out : Port → CtrlOutcome)
  | bert (copy : Bool) (out : XmitOutcome) (wfsid : WfsId)
  | xmit (inp : TxInputs) (out : Port → XmitOutcome) (skb : EthSkb)
  | receive (rb : Balancer Nat) (inp : RxInputs) (out : RxOutcome) (adapter : Port) (skb : Skb)

namespace SkbCall

variable {π : Type} [EventStore π]

/-- What the call does to `sk_buff`s. -/
def run (rq : Requester π) (s : SkbLog) : SkbCall → Except Fault SkbLog
  | announce out => .ok (logSendAnnounce rq.station.iwa out s)
  | raps out => .ok (logSendRaps rq.station.iwa out s)
  | bert copy out wfsid => logSendBert copy out wfsid rq s
  | xmit inp out skb => logXmitFrame inp out rq.station skb s
  | receive rb inp out adapter skb => logProcessSkbFields rb inp out adapter rq.station skb s

/-- The call keeps away from the exits that go wrong. -/
def Sound (rq : Requester π) (xmitErr : UInt32) : SkbCall → Prop
  | bert copy out wfsid => BertSound copy out wfsid rq
  | xmit inp out skb => DataSound inp out skb xmitErr rq.station
  | _ => True

end SkbCall

/-- **Every `sk_buff` is released exactly once and not touched afterwards** if and only if
    `ixgbe_wfs_send_bert` has no copy to send or finds the ring of the active channel full, and
    `ixgbe_xmit_frame` does not warn about a copy. -/
theorem skbs_released_iff {π : Type} [EventStore π] (rq : Requester π) (xmitErr : UInt32)
    (call : SkbCall) {s : SkbLog} (h : call.run rq { xmitErr } = .ok s) :
    ReleasedOnce s.trace ↔ call.Sound rq xmitErr := by
  cases call with
  | announce out =>
    cases h
    exact iff_of_true (logCtrl_settled out xmitErr) trivial
  | raps out =>
    cases h
    exact iff_of_true (logCtrl_settled out xmitErr) trivial
  | bert copy out wfsid => exact logSendBert_settled_iff h
  | xmit inp out skb => exact logXmitFrame_settled_iff h
  | receive rb inp out adapter skb => exact iff_of_true (logProcessSkbFields_settled h) trivial

def preparedRequester : Requester EvBufPool :=
  { station := testStation 0, on := true, skb := some (usedBuffer 0) }

def broadcastCall : SkbCall :=
  .xmit { key := ⟨0, Vector.replicate 6 0⟩, pktbuf := usedBuffer 0 }
    (fun adapter => if adapter = .primary then {} else { ring := .busy })
    { data := fun _ => 0xFF, len := 60, vlanTci := 0 }

theorem skbs_released_fullRing :
    ReleasedOnce (trace
        { xmitErr := 1, acts := [(0, .take), (0, .read), (0, .read), (0, .free)] }) ↔
      (SkbCall.bert true { ring := .busy } 1).Sound preparedRequester 0 :=
  skbs_released_iff preparedRequester 0 (.bert true { ring := .busy } 1) (by decide +kernel)

/-- A test frame that was sent is read, the one for a station without a channel is kept, and the
    thousandth failure is reported with a frame that is gone. -/
theorem skbs_not_released :
    (∃ s, (SkbCall.bert true {} 1).run preparedRequester { xmitErr := 0 } = .ok s ∧
        ¬ReleasedOnce s.trace) ∧
      (∃ s, (SkbCall.bert true {} 1).run
          { station := { testStation 0 with iwa := { (testStation 0).iwa with
              core := { (testStation 0).iwa.core with peer := fun _ => {} } } }
            skb := some (usedBuffer 0) } { xmitErr := 0 } = .ok s ∧ ¬ReleasedOnce s.trace) ∧
      ∃ s, broadcastCall.run preparedRequester { xmitErr := 999 } = .ok s ∧
        ¬ReleasedOnce s.trace := by
  have hsent : (SkbCall.bert true {} 1).run preparedRequester { xmitErr := 0 } =
      .ok { xmitErr := 0, acts := [(0, .take), (0, .read), (0, .read), (0, .hand .primary),
        (0, .read)] } := by decide +kernel
  have hkept : (SkbCall.bert true {} 1).run
      { station := { testStation 0 with iwa := { (testStation 0).iwa with
          core := { (testStation 0).iwa.core with peer := fun _ => {} } } }
        skb := some (usedBuffer 0) } { xmitErr := 0 } =
      .ok { xmitErr := 0, acts := [(0, .take)] } := by decide +kernel
  have hwarned : broadcastCall.run preparedRequester { xmitErr := 999 } =
      .ok { xmitErr := 1000, acts := [(0, .take), (0, .read), (1, .take), (0, .read),
        (0, .hand .primary), (1, .read), (0, .read), (1, .free)] } := by decide +kernel
  refine ⟨⟨_, hsent, ?_⟩, ⟨_, hkept, ?_⟩, _, hwarned, ?_⟩ <;>
  · rw [releasedOnce_iff]
    intro h
    exact absurd (h 0) (by decide)

end VmkDrivers.Wfs
