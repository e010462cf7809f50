/-
  VmkDrivers.Wfs.FibPeers

  The forwarding table and the states of the stations it names.

  The actions that put a peer into `S_init` remove it from the table, but the
  receive path enters the source of every data frame, known or not.  So a
  station in `S_init` can be named, and traffic to it goes nowhere although
  it could still be flooded.  This happens only if a data frame is learned
  from such a station without a discover of it in time (`fib_names_known`).
-/

import VmkDrivers.Wfs.FibNames
import VmkDrivers.Wfs.ReceiveSafety

namespace VmkDrivers.Wfs

open VmkDrivers.Lib WfsFsmState

/-! ## Steps of a station with its table -/

def FibOp.call? : FibOp → Option FibCall
  | .update _ _ _ vid mac ip wfsid => some (.update vid mac ip wfsid)
  | .deleteWfsid wfsid => some (.deleteWfsid wfsid)
  | _ => none

/-- What happens at a started station: a frame is received, the link watchdog or a tick works
    on it with the calls `calls` into the table, or the timer of the table fires. -/
inductive StationOp where
  | receive (adapter : Port) (skb : Skb) (inp : RxInputs)
  | raps (op : RapsOp) (calls : List FibOp)
  | fibTimer

def RapsOp.local : RapsOp → Bool
  | .updateLink .. | .linkIsDown .. | .linkIsUp .. | .fsmEvent _ | .timers | .peerTtl _
  | .misc _ => true
  | _ => false

section Steps

variable {π : Type} [EventStore π]

def StationStep (rb : Balancer Nat) (st : Station π) : StationOp → Station π → Prop
  | .receive adapter skb inp, st' => ∃ sent passed,
      ixgbeProcessSkbFields rb inp adapter st skb = .ok (st', sent, passed)
  | .raps op calls, st' => ∃ iwa eff fib, op.local = true ∧ op.enabled st.iwa ∧
      op.step st.iwa = .ok (iwa, eff) ∧ calls.map FibOp.call? = eff.fib.map some ∧
      Run (FibStep rb) st.fib calls fib ∧ st' = { st with iwa, fib }
  | .fibTimer, st' => ∃ fib, st.fib.fibTimer = true ∧ FibStep rb st.fib .timer fib ∧
      st' = { st with fib }

/-- When no event is pending, the table names no other station in `S_init`. -/
def NamesKnown (st : Station π) : Prop :=
  pendingEvents st.iwa.pool = [] → ∀ id, id ≠ st.iwa.core.wfsId →
    (st.iwa.core.peer id).fsmState = init → ¬st.fib.Names id.byte

def Skb.Learned (skb : Skb) (id : WfsId) : Prop :=
  ixgbeWfsDecap skb = true ∧ skb.src ≠ id.byte ∧ skb.isFor id ∧ ¬skb.isCtrl

/-- A data frame learned while no event is pending comes from a station that is not in `S_init`;
    and when the queue is run, an `E_discover` is pending of every station in `S_init` the
    table names. -/
def StationOp.Known (st : Station π) : StationOp → Prop
  | .receive _ skb _ => pendingEvents st.iwa.pool = [] → skb.Learned st.iwa.core.wfsId →
      ∀ id : WfsId, id.byte = skb.src → (st.iwa.core.peer id).fsmState ≠ init
  | .raps (.fsmEvent _) _ => st.iwa.core.ctrl.flag.fsmEvent = true →
      ∀ id, id ≠ st.iwa.core.wfsId → (st.iwa.core.peer id).fsmState = init →
        st.fib.Names id.byte → HasEvent .discover id (pendingEvents st.iwa.pool)
  | _ => True

end Steps

/-! ## The calls of one event -/

def FibCall.wfsid : FibCall → UInt8
  | .update _ _ _ w => w
  | .deleteWfsid w => w

/-- Whether `w` may be named after the calls if `b` says whether it may be before. -/
def namedAfter (w : UInt8) (calls : List FibCall) (b : Prop) : Prop :=
  calls.foldl (fun b c => if c = .deleteWfsid w then False else c.wfsid = w ∨ b) b

theorem namedAfter_append (w : UInt8) (calls calls' : List FibCall) (b : Prop) :
    namedAfter w (calls ++ calls') b = namedAfter w calls' (namedAfter w calls b) :=
  List.foldl_append

theorem namedAfter_cons (w : UInt8) (c : FibCall) (calls : List FibCall) (b : Prop) :
    namedAfter w (c :: calls) b =
      namedAfter w calls (if c = .deleteWfsid w then False else c.wfsid = w ∨ b) := rfl

variable {w : UInt8} {calls : List FibCall}

theorem namedAfter_other (h : ∀ c ∈ calls, c.wfsid ≠ w) {b : Prop} (hb : namedAfter w calls b) :
    b := by
  induction calls generalizing b with
  | nil => exact hb
  | cons c calls ih =>
    rw [namedAfter_cons] at hb
    have hc := h c (by simp)
    have hrest := ih (fun c' h' => h c' (by simp [h'])) hb
    split at hrest
    · exact hrest.elim
    · exact hrest.resolve_left hc

theorem namedAfter_mono {b b' : Prop} (hbb : b → b') (hb : namedAfter w calls b) :
    namedAfter w calls b' := by
  induction calls generalizing b b' with
  | nil => exact hbb hb
  | cons c calls ih =>
    rw [namedAfter_cons] at hb ⊢
    refine ih ?_ hb
    split
    · exact id
    · exact Or.imp_right hbb

theorem names_of_calls {rb : Balancer Nat} {s t : Fib} {ops : List FibOp} (hs : Fib.FibOk s)
    (hops : ops.map FibOp.call? = calls.map some) (hrun : Run (FibStep rb) s ops t)
    (h : t.Names w) : namedAfter w calls (s.Names w) := by
  induction hrun generalizing calls with
  | nil s =>
    obtain rfl : calls = [] := List.map_eq_nil_iff.mp hops.symm
    exact h
  | @cons s u t op ops hstep _ ih =>
    cases calls with
    | nil => cases hops
    | cons c calls =>
      obtain ⟨hop, hrest⟩ := List.cons.inj hops
      rw [namedAfter_cons]
      refine namedAfter_mono (fun hu => ?_) (ih (hs.of_step rb hstep) hrest h)
      -- the step enters the name, or the name was there and the step does not delete it
      rcases names_of_step hs hstep hu with henter | ⟨hnames, hne⟩
      · cases op with
        | update key k k' vid mac ip wfsid =>
          cases hop
          obtain rfl : wfsid = w := henter
          rw [if_neg (fun h => by cases h)]
          exact .inl rfl
        | lookup | delete | deleteWfsid | timer => exact henter.elim
      · rw [if_neg ?_]
        · exact .inr hnames
        · rintro rfl
          cases op with
          | deleteWfsid wfsid =>
            cases hop
            exact hne rfl
          | lookup | delete | update | timer => cases hop

section Events

variable {link : Port → Bool} {core core' : RapsCore} {eb : EventRec} {fib : List FibCall}
  {e : WfsFsmEvent} {evdata : WfsFsmEventData} {r : ActionResult} {l : List EventRec}

theorem action_wfsid {myId wfsid : WfsId} {ctrl : RapsCtrl} {peer : WfsPeer}
    (h : e.action myId link wfsid evdata ctrl peer = .ok r) :
    ∀ c ∈ r.fib, c.wfsid = wfsid.byte := by
  have hflush (state : WfsFsmState) : ∀ c ∈ flushIfInit wfsid state, c.wfsid = wfsid.byte := by
    intro c hc
    unfold flushIfInit at hc
    split at hc
    · obtain rfl := List.mem_singleton.mp hc
      rfl
    · exact absurd hc List.not_mem_nil
  have hupdate (state : WfsFsmState) (mac : Mac) (ip : UInt32) :
      ∀ c ∈ if state = init then [] else [FibCall.update 0 mac ip wfsid.byte],
        c.wfsid = wfsid.byte := by
    intro c hc
    split at hc
    · exact absurd hc List.not_mem_nil
    · obtain rfl := List.mem_singleton.mp hc
      rfl
  cases e with
  | discover =>
    cases h
    exact hupdate _ _ _
  | expire =>
    simp only [WfsFsmEvent.action, wfsFsmActionExpire] at h
    split at h
    · cases h
    · cases h
      exact hflush _
  | localSF =>
    cases h
    exact hflush _
  | clearLocalSF =>
    simp only [WfsFsmEvent.action, wfsFsmActionClearLocalSF] at h
    split at h
    · cases h
    · cases h
      exact fun c hc => absurd hc List.not_mem_nil
  | rapsSF =>
    simp only [WfsFsmEvent.action, wfsFsmActionRapsSF] at h
    split at h
    · cases h
    · cases h
      exact hflush _
  | rapsNR =>
    cases h
    exact fun c hc => absurd hc List.not_mem_nil

/-- **Flush.** An action that leaves another station in `S_init` removes it from the table. -/
theorem action_flush {myId wfsid : WfsId} {ctrl : RapsCtrl} {peer : WfsPeer} (hid : wfsid ≠ myId)
    (hrecv : e = .discover → evdata.announce.recvChannel ≠ none)
    (hvalid : validEntry peer.fsmState e false = true)
    (h : e.action myId link wfsid evdata ctrl peer = .ok r) (hinit : r.peer.fsmState = init) :
    e ≠ .discover ∧ r.fib = [.deleteWfsid wfsid.byte] := by
  cases e with
  | discover =>
    -- the channel it was received on is known
    cases h
    simp only [if_neg hid] at hinit
    have hknown := discoverChannels_known peer (hrecv rfl)
    have hroute := (discover_state hknown).symm.trans hinit
    cases hp : (discoverChannels peer evdata.announce).channelPri <;>
      cases hs : (discoverChannels peer evdata.announce).channelSec <;>
      simp [hp, hs, routeState] at hroute hknown
  | expire =>
    simp only [WfsFsmEvent.action, wfsFsmActionExpire, if_neg hid] at h
    cases h
    exact ⟨by decide, if_pos hinit⟩
  | localSF =>
    cases h
    exact ⟨by decide, if_pos hinit⟩
  | clearLocalSF => exact absurd rfl (validEntry_remote hvalid)
  | rapsSF =>
    simp only [WfsFsmEvent.action, wfsFsmActionRapsSF, if_neg hid] at h
    cases h
    exact ⟨by decide, if_pos hinit⟩
  | rapsNR =>
    cases h
    cases hs : peer.fsmState <;> simp [validEntry, fsm, hs] at hvalid
    simp only [hs] at hinit
    split at hinit <;> cases hinit

theorem runEvent_known {id : WfsId} (hid : id ≠ core.wfsId) (hev : EventOk core.wfsId eb)
    (hrun : runEvent link core eb = .ok (core', fib)) {b : Prop}
    (hb : b → (core.peer id).fsmState ≠ init ∨ HasEvent .discover id (eb :: l)) :
    namedAfter id.byte fib b → (core'.peer id).fsmState ≠ init ∨ HasEvent .discover id l := by
  intro hnamed
  by_cases heb : eb.wfsid = id
  · subst heb
    rcases runEvent_ok hrun with ⟨hacc, rfl, rfl⟩ | ⟨hacc, r, hact, rfl, rfl⟩
    · -- a discover would have been accepted in `S_init`
      rcases hb hnamed with hne | ⟨eb', hmem, hid', he⟩
      · exact .inl hne
      · rcases List.mem_cons.mp hmem with rfl | hmem
        · refine .inl fun hinit => ?_
          rw [RapsCore.accepts, decide_eq_false hid, hinit, he] at hacc
          cases hacc
        · exact .inr ⟨eb', hmem, hid', he⟩
    · refine .inl fun hinit => ?_
      rw [RapsCore.accepts, decide_eq_false hid] at hacc
      simp only [RapsCore.acted, Function.update_self] at hinit
      obtain ⟨-, hfib⟩ := action_flush hid (fun hd => hev hd hid) hacc hact hinit
      rw [hfib, namedAfter_cons, if_pos rfl] at hnamed
      exact hnamed
  · have hother : ∀ c ∈ fib, c.wfsid ≠ id.byte := by
      rcases runEvent_ok hrun with ⟨-, -, rfl⟩ | ⟨-, r, hact, -, rfl⟩
      · exact fun c hc => absurd hc List.not_mem_nil
      · intro c hc hw
        exact heb (WfsId.byte_inj.mp ((action_wfsid hact c hc).symm.trans hw))
    rw [runEvent_peer_ne hrun (Ne.symm heb)]
    rcases hb (namedAfter_other hother hnamed) with hne | ⟨eb', hmem, hid', he⟩
    · exact .inl hne
    · rcases List.mem_cons.mp hmem with rfl | hmem
      · exact absurd hid' heb
      · exact .inr ⟨eb', hmem, hid', he⟩

theorem foldlM_known {view : Nat → Port → Bool} {r r' : RunState}
    {id : WfsId} (hid : id ≠ r.core.wfsId) (hroutes : RoutesOk r.core)
    (hev : ∀ eb ∈ l, EventOk r.core.wfsId eb) (h : l.foldlM (runBody view) r = .ok r') {b : Prop}
    (hb : namedAfter id.byte r.fib b → (r.core.peer id).fsmState ≠ init ∨ HasEvent .discover id l) :
    namedAfter id.byte r'.fib b → (r'.core.peer id).fsmState ≠ init := by
  induction l generalizing r with
  | nil =>
    cases h
    intro hnamed
    rcases hb hnamed with hne | ⟨eb, hmem, -⟩
    · exact hne
    · exact absurd hmem List.not_mem_nil
  | cons eb l ih =>
    obtain ⟨core', fib', hrun, hroutes'⟩ := hroutes.runEvent (view r.done) (hev eb (by simp))
    have hwfs := runEvent_wfsId hrun
    rw [List.foldlM_cons, runBody_of_runEvent hrun] at h
    refine ih (r := { core := core', fib := r.fib ++ fib', done := r.done + 1 })
      (by rw [hwfs]; exact hid) hroutes'
      (by rw [hwfs]; exact fun eb' h' => hev eb' (by simp [h'])) h ?_
    rw [namedAfter_append]
    exact runEvent_known hid (hev eb (by simp)) hrun hb

end Events

/-! ## One step -/

def RapsOp.received : RapsOp → Bool
  | .announce .. | .raps .. => true
  | _ => false

inductive Receives (rb : Balancer Nat) (st : Station EvBufPool) (skb : Skb) :
    Station EvBufPool → Prop
  | same {st' : Station EvBufPool} : st'.iwa = st.iwa → st'.fib = st.fib → Receives rb st skb st'
  | control {st' : Station EvBufPool} (op : RapsOp) : op.received = true →
      RapsStep st.iwa op st'.iwa → st'.fib = st.fib → Receives rb st skb st'
  | learn {st' : Station EvBufPool} (key : FibKey) (k k' : Bool) (vid : UInt16) (mac : Mac)
      (ip : UInt32) : skb.Learned st.iwa.core.wfsId → st'.iwa = st.iwa →
      FibStep rb st.fib (.update key k k' vid mac ip skb.src) st'.fib → Receives rb st skb st'

section Receive

variable {rb : Balancer Nat} {st st' : Station EvBufPool} {skb pkt pkt' : Skb} {inp : RxInputs}
  {adapter : Port} {sent : List (Port × Skb)}

theorem recvControl_receives (hsrc : skb.src ≠ st.iwa.core.wfsId.byte)
    (h : ixgbeWfsRecvControl inp adapter st skb = .ok (st', pkt')) : Receives rb st skb st' := by
  have hother {src : WfsId} (hof : WfsId.ofByte? skb.src = some src) : src ≠ st.iwa.core.wfsId := by
    rintro rfl
    exact hsrc (WfsId.ofByte?_eq_some_iff.mp hof).symm
  unfold ixgbeWfsRecvControl at h
  cases hann : wfspktGetopt skb wfsoptAnnounce with
  | error f => simp [hann, bind, Except.bind] at h
  | ok r =>
    cases r with
    | some o =>
      simp only [hann, bind, Except.bind, recvAnnounce] at h
      cases hof : WfsId.ofByte? skb.src with
      | none => simp [hof] at h
      | some src =>
        simp only [hof, Except.ok.injEq, Prod.mk.injEq] at h
        obtain ⟨rfl, -⟩ := h
        exact .control (.announce inp.k adapter src (announceAt skb.opts o)) rfl
          ⟨hother hof, _, rfl⟩ rfl
    | none =>
      -- the options were walked to the end once, so the other two searches end as well
      obtain ⟨raps, hraps⟩ : ∃ r, wfspktGetopt skb wfsoptRaps = .ok r := getoptLoop_of_none hann
      obtain ⟨bert, hbert⟩ : ∃ r, wfspktGetopt skb wfsoptBert = .ok r := getoptLoop_of_none hann
      simp only [hann, hraps, hbert, bind, Except.bind] at h
      cases raps with
      | some o =>
        simp only [recvRaps] at h
        cases hof : WfsId.ofByte? skb.src with
        | none => simp [hof] at h
        | some src =>
          simp only [hof] at h
          have hstep : RapsStep st.iwa (.raps inp.k adapter src (rapsAt skb.opts o))
              (wfsProcessRaps inp.k adapter src (rapsAt skb.opts o) st.iwa).1 :=
            ⟨hother hof, _, rfl⟩
          split at h <;> obtain ⟨rfl, -⟩ := Prod.mk.inj (Except.ok.inj h)
          · exact .control _ rfl hstep rfl
          · exact .control _ rfl hstep rfl
      | none =>
        cases bert with
        | some o =>
          simp only at h
          split at h
          · cases h
          · obtain ⟨rfl, -⟩ := Prod.mk.inj (Except.ok.inj h)
            exact .same rfl rfl
        | none =>
          obtain ⟨rfl, -⟩ := Prod.mk.inj (Except.ok.inj h)
          exact .same rfl rfl

theorem processSkbFields_learned {passed : Bool} (hlearned : skb.Learned st.iwa.core.wfsId)
    (h : ixgbeProcessSkbFields rb inp adapter st skb = .ok (st', sent, passed)) :
    st'.iwa = st.iwa ∧ ∃ key k k' vid mac ip,
      FibStep rb st.fib (.update key k k' vid mac ip skb.src) st'.fib := by
  obtain ⟨hdecap, hsrc, hfor, hctrl⟩ := hlearned
  rw [ixgbeProcessSkbFields, if_neg (ne_false_of_eq_true hdecap), if_neg hsrc] at h
  rw [if_neg (not_not.mpr hfor), if_neg hctrl] at h
  cases hupd : st.fib.ixgbeWfsFibUpdate rb inp.key inp.kmalloc inp.kmalloc' skb.vlanTci
      (macAt skb.inner 6) (innerIp skb.inner) skb.src with
  | error f => simp [hupd, bind, Except.bind] at h
  | ok fib =>
    simp only [hupd, bind, Except.bind, pure, Except.pure] at h
    obtain ⟨rfl, -⟩ := Prod.mk.inj (Except.ok.inj h)
    refine ⟨rfl, inp.key, inp.kmalloc, inp.kmalloc', skb.vlanTci, macAt skb.inner 6,
      innerIp skb.inner, none, ?_⟩
    rw [FibOp.step, hupd]
    rfl

theorem processSkbFields_receives {passed : Bool}
    (h : ixgbeProcessSkbFields rb inp adapter st skb = .ok (st', sent, passed)) :
    Receives rb st skb st' := by
  have h' := h
  unfold ixgbeProcessSkbFields at h
  split at h
  · obtain ⟨rfl, -⟩ := Prod.mk.inj (Except.ok.inj h)
    exact .same rfl rfl
  · next hdecap =>
    split at h
    · obtain ⟨rfl, -⟩ := Prod.mk.inj (Except.ok.inj h)
      exact .same rfl rfl
    · next hsrc =>
      split at h
      · obtain ⟨rfl, -⟩ := Prod.mk.inj (Except.ok.inj h)
        exact .same rfl rfl
      · next hfor =>
        split at h
        · cases hctrl : ixgbeWfsRecvControl inp adapter st skb with
          | error f => simp [hctrl, bind, Except.bind] at h
          | ok r =>
            simp only [hctrl, bind, Except.bind, pure, Except.pure] at h
            obtain ⟨rfl, -⟩ := Prod.mk.inj (Except.ok.inj h)
            exact recvControl_receives hsrc hctrl
        · next hctrl =>
          have hlearned : skb.Learned st.iwa.core.wfsId :=
            ⟨Bool.eq_true_of_not_eq_false hdecap, hsrc, not_not.mp hfor, hctrl⟩
          obtain ⟨hiwa, key, k, k', vid, mac, ip, hfib⟩ := processSkbFields_learned hlearned h'
          exact .learn key k k' vid mac ip hlearned hiwa hfib

end Receive

structure Started (st : Station EvBufPool) (t : Iwa EvQueue) : Prop where
  rep : IwaRep st.iwa t
  station : StationOk t
  fib : Fib.FibOk st.fib

section Steps

variable {rb : Balancer Nat} {st st' : Station EvBufPool} {t : Iwa EvQueue}

theorem Started.waits {op : RapsOp} (h : Started st t) (hw : op.waits = true)
    (hstep : RapsStep st.iwa op st'.iwa) (hfib : st'.fib = st.fib) :
    (∃ t', Started st' t') ∧ (NamesKnown st → NamesKnown st') := by
  obtain ⟨t', ht, hrep⟩ := rapsStep_refines h.rep hstep
  obtain ⟨-, eff, hok⟩ := id ht
  have hwait := RapsOp.step_waited hw hok
  refine ⟨⟨t', hrep, h.station.of_step ht, hfib ▸ h.fib⟩, fun hknown hempty id hid hinit => ?_⟩
  rw [hrep.pendingEvents_eq] at hempty
  rw [← hrep.core_eq] at hid hinit
  rw [hwait.wfsId, h.rep.core_eq] at hid
  rw [hwait.fsmState, h.rep.core_eq] at hinit
  have hpending : pendingEvents st.iwa.pool = [] := by
    rw [h.rep.pendingEvents_eq]
    exact List.prefix_nil.mp (hempty ▸ hwait.pending)
  rw [hfib]
  exact hknown hpending id hid hinit

theorem Started.of_fib {op : FibOp} (h : Started st t) (hiwa : st'.iwa = st.iwa)
    (hfib : FibStep rb st.fib op st'.fib) : Started st' t :=
  ⟨hiwa ▸ h.rep, h.station, h.fib.of_step rb hfib⟩

/-- **`wfs_fsm_run`** with the calls it makes into the table. -/
theorem Started.fsmEvent {view : Nat → Port → Bool} {iwa : Iwa EvBufPool} {eff : Effects}
    {calls : List FibOp} {fib : Fib} (h : Started st t)
    (hok : (RapsOp.fsmEvent view).step st.iwa = .ok (iwa, eff))
    (hcalls : calls.map FibOp.call? = eff.fib.map some)
    (hrun : Run (FibStep rb) st.fib calls fib) (hknown : NamesKnown st)
    (hguard : StationOp.Known st (.raps (.fsmEvent view) calls)) :
    NamesKnown { st with iwa, fib } := by
  have hout := RapsOp.step_rep (.fsmEvent view) h.rep
  rw [hok] at hout
  cases ht : (RapsOp.fsmEvent view).step t with
  | error f => rw [ht] at hout; exact hout.elim
  | ok r =>
    obtain ⟨t', eff'⟩ := r
    rw [ht] at hout
    obtain ⟨hrep, rfl : eff = eff'⟩ := hout
    simp only [RapsOp.step, rapsFsmEvent] at ht
    intro hempty id hid hinit hnames
    rw [← show t'.core = iwa.core from hrep.core_eq] at hid hinit
    by_cases hflag : t.core.ctrl.flag.fsmEvent = true
    · rw [if_pos hflag, wfsFsmRun_eq] at ht
      obtain ⟨r, hloop, -, hwfs⟩ := RoutesOk.foldlM_runBody view (r := { core := t.core })
        h.station.routes h.station.events
      rw [hloop] at ht
      cases ht
      have hid' : id ≠ t.core.wfsId := fun heq => hid (heq.trans hwfs.symm)
      -- what the table names at the end was entered, or named before and not removed
      refine foldlM_known (b := st.fib.Names id.byte) hid' h.station.routes h.station.events hloop
        (fun hnamed => ?_) (names_of_calls h.fib hcalls hrun hnames) hinit
      rw [or_iff_not_imp_left, not_not]
      intro hbefore
      rw [h.rep.core_eq] at hflag hid' hbefore
      rw [← h.rep.pendingEvents_eq]
      exact hguard hflag id hid' hbefore hnamed
    · rw [if_neg hflag] at ht
      cases ht
      obtain rfl : calls = [] := List.map_eq_nil_iff.mp hcalls
      cases hrun
      rw [h.rep.core_eq] at hid hinit
      rw [show pendingEvents iwa.pool = _ from hrep.pendingEvents_eq,
        ← h.rep.pendingEvents_eq] at hempty
      exact hknown hempty id hid hinit hnames

theorem fib_of_local {π : Type} [EventStore π] {op : RapsOp} {s t : Iwa π} {eff : Effects}
    (hlocal : op.local = true) (hno : ∀ view, op ≠ .fsmEvent view)
    (h : op.step s = .ok (t, eff)) : op.waits = true ∧ eff.fib = [] := by
  cases op with
  | fsmEvent view => exact absurd rfl (hno view)
  | updateLink | linkIsDown | linkIsUp | timers | peerTtl | misc =>
    obtain ⟨-, rfl⟩ := Prod.mk.inj (Except.ok.inj h)
    exact ⟨rfl, rfl⟩
  | setEvent | announce | raps | openPorts | rapsStart | rapsStop | closePorts => cases hlocal

theorem Started.of_step {op : StationOp} (h : Started st t) (hstep : StationStep rb st op st') :
    (∃ t', Started st' t') ∧ (NamesKnown st → op.Known st → NamesKnown st') := by
  cases op with
  | receive adapter skb inp =>
    obtain ⟨sent, passed, hrecv⟩ := hstep
    cases processSkbFields_receives hrecv with
    | same hiwa hfib =>
      refine ⟨⟨t, hiwa ▸ h.rep, h.station, hfib ▸ h.fib⟩, fun hknown _ => ?_⟩
      unfold NamesKnown
      rw [hiwa, hfib]
      exact hknown
    | control op hop hraps hfib =>
      have hw : op.waits = true := by cases op <;> first | rfl | cases hop
      exact (h.waits hw hraps hfib).imp_right fun hk hknown _ => hk hknown
    -- the name is the one the frame enters, or one from before
    | learn key k k' vid mac ip hlearned hiwa hfib =>
      refine ⟨⟨t, h.of_fib hiwa hfib⟩, fun hknown hguard hempty id hid hinit hnames => ?_⟩
      rw [hiwa] at hempty hid hinit
      rcases names_of_step h.fib hfib hnames with henter | ⟨hbefore, -⟩
      · exact hguard hempty hlearned id (Eq.symm henter) hinit
      · exact hknown hempty id hid hinit hbefore
  | raps op calls =>
    obtain ⟨iwa, eff, fib, hlocal, hen, hok, hcalls, hrun, rfl⟩ := hstep
    have hraps : RapsStep st.iwa op iwa := ⟨hen, eff, hok⟩
    have hfib : Fib.FibOk fib := hrun.invariant (fun _ _ _ hs hst => hs.of_step rb hst) h.fib
    -- only an event of the machine calls into the table
    by_cases hview : ∃ view, op = .fsmEvent view
    · obtain ⟨view, rfl⟩ := hview
      obtain ⟨t', ht, hrep⟩ := rapsStep_refines h.rep hraps
      exact ⟨⟨t', hrep, h.station.of_step ht, hfib⟩, h.fsmEvent hok hcalls hrun⟩
    · obtain ⟨hw, hnil⟩ := fib_of_local hlocal (not_exists.mp hview) hok
      rw [hnil] at hcalls
      obtain rfl : calls = [] := List.map_eq_nil_iff.mp hcalls
      cases hrun
      have hwaits : (∃ t', Started { st with iwa, fib := st.fib } t') ∧
          (NamesKnown st → NamesKnown { st with iwa, fib := st.fib }) := h.waits hw hraps rfl
      exact hwaits.imp_right fun hk hknown _ => hk hknown
  | fibTimer =>
    obtain ⟨fib, -, hfib, rfl⟩ := hstep
    refine ⟨⟨t, h.of_fib rfl hfib⟩, fun hknown _ hempty id hid hinit hnames => ?_⟩
    rcases names_of_step h.fib hfib hnames with henter | ⟨hbefore, -⟩
    · exact henter
    · exact hknown hempty id hid hinit hbefore

theorem not_namesKnown_of_learned {adapter : Port} {skb : Skb} {inp : RxInputs}
    (h : Started st t) (hstep : StationStep rb st (.receive adapter skb inp) st')
    (hguard : ¬StationOp.Known st (.receive adapter skb inp)) : ¬NamesKnown st' := by
  obtain ⟨sent, passed, hrecv⟩ := hstep
  simp only [StationOp.Known, Classical.not_imp, not_forall, not_not] at hguard
  obtain ⟨hempty, hlearned, id, hid, hinit⟩ := hguard
  obtain ⟨hiwa, key, k, k', vid, mac, ip, hfib⟩ := processSkbFields_learned hlearned hrecv
  intro hknown
  have hne : id ≠ st.iwa.core.wfsId := fun heq => hlearned.2.1 (by rw [← hid, heq])
  have hnames := names_of_update h.fib hfib
  rw [← hid] at hnames
  unfold NamesKnown at hknown
  rw [hiwa] at hknown
  exact hknown hempty id hne hinit hnames

end Steps

/-! ## Runs -/

theorem StationStep.unique {π : Type} [EventStore π] {rb : Balancer Nat} {st y y' : Station π}
    {op : StationOp} (h : StationStep rb st op y) (h' : StationStep rb st op y') : y = y' := by
  cases op with
  | receive adapter skb inp =>
    obtain ⟨sent, passed, h⟩ := h
    obtain ⟨sent', passed', h'⟩ := h'
    exact congrArg Prod.fst (Except.ok.inj (h.symm.trans h'))
  | raps op calls =>
    obtain ⟨iwa, eff, fib, -, -, hok, -, hrun, rfl⟩ := h
    obtain ⟨iwa', eff', fib', -, -, hok', -, hrun', rfl⟩ := h'
    obtain rfl : iwa = iwa' := congrArg Prod.fst (Except.ok.inj (hok.symm.trans hok'))
    obtain rfl := hrun.unique (fun _ _ _ _ h₁ h₂ => h₁.unique h₂) hrun'
    rfl
  | fibTimer =>
    obtain ⟨fib, -, hfib, rfl⟩ := h
    obtain ⟨fib', -, hfib', rfl⟩ := h'
    rw [hfib.unique hfib']

/-- The step learns from no station in `S_init` while no event is pending. -/
def StationOp.KnownFrame {π : Type} [EventStore π] (st : Station π) (op : StationOp) : Prop :=
  ∀ adapter skb inp, op = .receive adapter skb inp → op.Known st

section Runs

variable {rb : Balancer Nat} {st st' : Station EvBufPool} {t : Iwa EvQueue}
  {ops : List StationOp}

theorem Started.always (h : Started st t) (hknown : NamesKnown st)
    (hrun : Run (Guarded (StationStep rb) fun st op => op.Known st) st ops st') :
    Always (StationStep rb) NamesKnown st ops := by
  induction hrun generalizing t with
  | nil st => exact always_nil.mpr hknown
  | cons hstep _ ih =>
    obtain ⟨⟨t', h'⟩, hkeep⟩ := h.of_step hstep.2
    rw [always_cons (fun _ _ _ _ h₁ h₂ => h₁.unique h₂) hstep.2]
    exact ⟨hknown, ih h' (hkeep hknown hstep.1)⟩

theorem Started.knownFrame (h : Started st t) (hrun : Run (StationStep rb) st ops st')
    (halways : Always (StationStep rb) NamesKnown st ops) :
    Run (Guarded (StationStep rb) fun st op => op.KnownFrame st) st ops st' := by
  induction hrun generalizing t with
  | nil st => exact .nil st
  | @cons st y st' op ops hstep _ ih =>
    obtain ⟨⟨t', h'⟩, -⟩ := h.of_step hstep
    rw [always_cons (fun _ _ _ _ h₁ h₂ => h₁.unique h₂) hstep] at halways
    refine .cons ⟨fun adapter skb inp heq => ?_, hstep⟩ (ih h' halways.2)
    by_contra hguard
    rw [heq] at hstep hguard
    exact not_namesKnown_of_learned h hstep hguard (halways.2 [] y List.nil_prefix (.nil y))

end Runs

/-- **Stations of the table.** From `ixgbe_wfs_raps_start` on let frames, reports of the link
    watchdog, parts of ticks and the timer of the table come in any order.  If the table names
    no station in `S_init` at the start, and a discover is in time for every data frame from such
    a station, then it names none whenever no event is pending; and it is never right to
    learn from such a station while none is. -/
theorem fib_names_known {rb : Balancer Nat} {kmalloc kmalloc' : Nat → Bool} {wfsId : WfsId}
    {macAddr : Mac} {wfsPort : Port → Int} {before : List RapsOp} {fibOps : List FibOp}
    {ops : List StationOp} {s₀ : Iwa EvBufPool} {st st' : Station EvBufPool} {k : Kmalloc}
    {ip : UInt32}
    (h₀ : Run RapsStep (.probed wfsId macAddr wfsPort (EvBufPool.ixgbeWfsFsmInit kmalloc).1)
      before s₀)
    (h₁ : RapsStep s₀ (.rapsStart k ip) st.iwa)
    (hinit : (Fib.ixgbeWfsFibInit kmalloc').2 = true)
    (hfib : Run (FibStep rb) (Fib.ixgbeWfsFibInit kmalloc').1 fibOps st.fib)
    (h₂ : Run (StationStep rb) st ops st') :
    (NamesKnown st → Run (Guarded (StationStep rb) fun st op => op.Known st) st ops st' →
      Always (StationStep rb) NamesKnown st ops) ∧
    (Always (StationStep rb) NamesKnown st ops → NamesKnown st ∧
      Run (Guarded (StationStep rb) fun st op => op.KnownFrame st) st ops st') := by
  obtain ⟨t, hrep, hok⟩ := stationOk_of_run h₀ h₁ (.nil _)
  have hstarted : Started st t := ⟨hrep, hok, Fib.fibOk_of_run rb hinit hfib⟩
  exact ⟨fun hknown hguarded => hstarted.always hknown hguarded,
    fun halways => ⟨halways [] st List.nil_prefix (.nil st), hstarted.knownFrame h₂ halways⟩⟩

/-! ## A data frame before and after the first announce -/

instance (skb : Skb) (id : WfsId) : Decidable (skb.Learned id) :=
  inferInstanceAs (Decidable (_ ∧ _ ∧ _ ∧ _))

instance {π : Type} [EventStore π] (st : Station π) : Decidable (NamesKnown st) :=
  inferInstanceAs (Decidable (_ = [] → ∀ id, id ≠ _ → _ = _ → ¬st.fib.Names _))

instance {π : Type} [EventStore π] (st : Station π) : (op : StationOp) → Decidable (op.Known st)
  | .receive _ skb _ => inferInstanceAs (Decidable (pendingEvents st.iwa.pool = [] →
      skb.Learned st.iwa.core.wfsId →
        ∀ id : WfsId, id.byte = skb.src → (st.iwa.core.peer id).fsmState ≠ init))
  | .raps (.fsmEvent _) _ => inferInstanceAs (Decidable (_ = true → ∀ id : WfsId,
      id ≠ st.iwa.core.wfsId → (st.iwa.core.peer id).fsmState = init →
        st.fib.Names id.byte → HasEvent .discover id (pendingEvents st.iwa.pool)))
  | .raps (.setEvent ..) _ | .raps (.updateLink ..) _ | .raps (.linkIsDown ..) _
  | .raps (.linkIsUp ..) _ | .raps (.announce ..) _ | .raps (.raps ..) _ | .raps .timers _
  | .raps (.peerTtl _) _ | .raps (.misc _) _ | .raps .openPorts _ | .raps (.rapsStart ..) _
  | .raps .rapsStop _ | .raps .closePorts _ | .fibTimer => inferInstanceAs (Decidable True)

def FibOp.next? (rb : Balancer Nat) (s : Fib) (op : FibOp) : Option Fib :=
  match op.step rb s with
  | .ok (t, _) => some t
  | .error _ => none

variable {rb : Balancer Nat}

theorem FibOp.next?_sound (s : Fib) (op : FibOp) (t : Fib) (h : op.next? rb s = some t) :
    FibStep rb s op t := by
  unfold FibOp.next? at h
  split at h
  · next u res hok =>
    cases h
    exact ⟨res, hok⟩
  · cases h

def Station.next? {π : Type} [EventStore π] (rb : Balancer Nat) (st : Station π) :
    StationOp → Option (Station π)
  | .receive adapter skb inp =>
    match ixgbeProcessSkbFields rb inp adapter st skb with
    | .ok (st', _) => some st'
    | .error _ => none
  | .raps op calls =>
    if op.local = true ∧ op.enabled st.iwa then
      match op.step st.iwa with
      | .ok (iwa, eff) =>
        if calls.map FibOp.call? = eff.fib.map some then
          (Run.exec (fun s op => FibOp.next? rb s op) st.fib calls).map fun fib =>
            { st with iwa, fib }
        else none
      | .error _ => none
    else none
  | .fibTimer =>
    if st.fib.fibTimer = true then
      (FibOp.next? rb st.fib .timer).map fun fib => { st with fib }
    else none

theorem Station.next?_sound {π : Type} [EventStore π] (st : Station π) (op : StationOp)
    (st' : Station π) (h : st.next? rb op = some st') : StationStep rb st op st' := by
  cases op with
  | receive adapter skb inp =>
    simp only [Station.next?] at h
    split at h
    · next y r hok =>
      cases h
      exact ⟨r.1, r.2, hok⟩
    · cases h
  | raps op calls =>
    simp only [Station.next?] at h
    split at h
    · next hen =>
      split at h
      · next iwa eff hok =>
        split at h
        · next hcalls =>
          obtain ⟨fib, hfib, rfl⟩ := Option.map_eq_some_iff.mp h
          exact ⟨iwa, eff, fib, hen.1, hen.2, hok, hcalls, Run.of_exec FibOp.next?_sound hfib, rfl⟩
        · cases h
      · cases h
    · cases h
  | fibTimer =>
    simp only [Station.next?] at h
    split at h
    · next htimer =>
      obtain ⟨fib, hfib, rfl⟩ := Option.map_eq_some_iff.mp h
      exact ⟨fib, htimer, FibOp.next?_sound _ _ _ hfib, rfl⟩
    · cases h

def entryOf (mac : Mac) (ip : UInt32) (wfsid : UInt8) : FibOp :=
  .update ⟨0, mac⟩ true true 0 mac ip wfsid

def announcedRun : List StationOp :=
  [.raps (.fsmEvent fun _ _ => true) [entryOf (Vector.replicate 6 1) 0 1],
    .receive .primary (announceFrom 2) {},
    .raps (.fsmEvent fun _ _ => true) [entryOf (Vector.replicate 6 2) 7 2],
    .receive .primary (dataFrom 2) {}]

def unannouncedRun : List StationOp :=
  [.raps (.fsmEvent fun _ _ => true) [entryOf (Vector.replicate 6 1) 0 1],
    .receive .primary (dataFrom 2) {}]

theorem fib_names_known_announcedRun :
    ∃ s₀ st, Run RapsStep stationOne [.openPorts] s₀ ∧
      RapsStep s₀ (.rapsStart (fun _ => true) 0) (Station.iwa st) ∧
      Always (StationStep .plain) NamesKnown st announcedRun := by
  have hdone : ((RapsOp.next? stationOne .openPorts).bind fun s₀ =>
      (RapsOp.next? s₀ (.rapsStart (fun _ => true) 0)).bind fun s₁ =>
        if NamesKnown (stationWith s₁) then
          Run.exec (fun st op => if op.Known st then Station.next? .plain st op else none)
            (stationWith s₁) announcedRun
        else none).isSome = true := by
    decide +kernel
  obtain ⟨y, hy⟩ := Option.isSome_iff_exists.mp hdone
  obtain ⟨s₀, hs₀, hrest⟩ := Option.bind_eq_some_iff.mp hy
  obtain ⟨s₁, hs₁, hrest⟩ := Option.bind_eq_some_iff.mp hrest
  split at hrest
  · next hknown =>
    have h₀ : Run RapsStep stationOne [.openPorts] s₀ :=
      .single ((RapsOp.next?_eq_some_iff _ _ _).mp hs₀)
    have h₁ : RapsStep s₀ (.rapsStart (fun _ => true) 0) (stationWith s₁).iwa :=
      (RapsOp.next?_eq_some_iff _ _ _).mp hs₁
    have hguarded : Run (Guarded (StationStep .plain) fun st op => op.Known st) (stationWith s₁)
        announcedRun y := by
      refine Run.of_exec (fun st op z hz => ?_) hrest
      split at hz
      · next hk => exact ⟨hk, Station.next?_sound _ _ _ hz⟩
      · cases hz
    exact ⟨s₀, stationWith s₁, h₀, h₁,
      (fib_names_known h₀ h₁ Fib.init_of_kmalloc (.nil _) (hguarded.mono fun _ _ _ h => h.2)).1 hknown hguarded⟩
  · cases hrest

/-- The table names station 2, which is in `S_init`: a frame to it is neither sent nor flooded. -/
theorem fib_names_init_of_unannouncedRun :
    ∃ s₀ st y, Run RapsStep stationOne [.openPorts] s₀ ∧
      RapsStep s₀ (.rapsStart (fun _ => true) 0) (Station.iwa st) ∧
      st = stationWith st.iwa ∧ NamesKnown st ∧
      Run (StationStep .plain) st unannouncedRun y ∧ pendingEvents y.iwa.pool = [] ∧
      1 ≠ y.iwa.core.wfsId ∧ (y.iwa.core.peer 1).fsmState = init ∧ y.fib.Names (1 : WfsId).byte ∧
      ¬NamesKnown y := by
  have hdone : ((RapsOp.next? stationOne .openPorts).bind fun s₀ =>
      (RapsOp.next? s₀ (.rapsStart (fun _ => true) 0)).bind fun s₁ =>
        (Run.exec (fun st op => Station.next? .plain st op) (stationWith s₁) unannouncedRun).map
          fun y => decide (NamesKnown (stationWith s₁) ∧ pendingEvents y.iwa.pool = [] ∧
            1 ≠ y.iwa.core.wfsId ∧ (y.iwa.core.peer 1).fsmState = init ∧
            y.fib.Names (1 : WfsId).byte)) = some true := by
    decide +kernel
  obtain ⟨s₀, hs₀, hrest⟩ := Option.bind_eq_some_iff.mp hdone
  obtain ⟨s₁, hs₁, hrest⟩ := Option.bind_eq_some_iff.mp hrest
  obtain ⟨y, hy, hprop⟩ := Option.map_eq_some_iff.mp hrest
  obtain ⟨hknown, hempty, hid, hinit, hnames⟩ := of_decide_eq_true hprop
  exact ⟨s₀, stationWith s₁, y, .single ((RapsOp.next?_eq_some_iff _ _ _).mp hs₀),
    (RapsOp.next?_eq_some_iff _ _ _).mp hs₁, rfl, hknown, Run.of_exec Station.next?_sound hy,
    hempty, hid, hinit, hnames, fun h => h hempty 1 hid hinit hnames⟩

end VmkDrivers.Wfs
