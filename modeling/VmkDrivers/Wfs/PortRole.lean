/-
  VmkDrivers.Wfs.PortRole

  The role a run of the queue leaves a port in.

  Two channels of a remote peer are entered, exchanged and dropped by the
  events of the queue.  Whether the run ends with a given port in a given
  role can be read off the pending events (`exchangedBy`): some `E_discover`
  says so, and no later event takes it back.  A port that had the role
  before the run only matters while nothing is bound to take it away, which
  is the parameter `doomed` of `Stands`.
-/

import VmkDrivers.Wfs.PeerState

namespace VmkDrivers.Wfs

open VmkDrivers.Lib WfsFsmState

/-! ## Roles of a port -/

/-- The channel of a peer in a role, its primary one for `true`. -/
def WfsPeer.channel (peer : WfsPeer) (pri : Bool) : Option Port :=
  if pri then peer.channelPri else peer.channelSec

def WfsPeer.ttl (peer : WfsPeer) (pri : Bool) : Int :=
  if pri then peer.ttlPri else peer.ttlSec

/-- Whether port `a` is left discovered in the role `pri` by an event, given whether it was
    before it. -/
def standsAfter (link : Port → Bool) (p : WfsId) (a : Port) (pri : Bool) (stands : Bool)
    (eb : EventRec) : Bool :=
  if eb.wfsid ≠ p then stands
  else
    match eb.event with
    | .discover =>
      if eb.data.announce.isPrimaryAnnouce = pri then
        decide (eb.data.announce.recvChannel = some a)
      else stands && decide (eb.data.announce.recvChannel ≠ some a)
    | .localSF => stands && link a
    | .rapsSF => stands && decide (eb.data.raps.failureOnPrimary ≠ pri)
    | _ => stands

/-- The events leave port `a` discovered in the role `pri`: an `E_discover` among them says
    so, and none after it takes it back. -/
def exchangedBy (view : Nat → Port → Bool) (p : WfsId) (a : Port) (pri : Bool) :
    Nat → List EventRec → Bool → Bool
  | _, [], stands => stands
  | i, eb :: l, stands =>
    exchangedBy view p a pri (i + 1) l (standsAfter (view i) p a pri stands eb)

/-- Port `a` has the role `pri` if `stands`, and only then unless it is `doomed` to lose it.
    A port that got its role in this run has time left. -/
structure Stands (a : Port) (pri stands : Bool) (doomed : Prop) (peer : WfsPeer) : Prop where
  role : peer.channel pri = some a → stands = true ∨ doomed
  given : stands = true → peer.channel pri = some a ∧ 0 < peer.ttl pri

theorem Stands.role_iff {a : Port} {pri stands : Bool} {peer : WfsPeer}
    (h : Stands a pri stands False peer) : peer.channel pri = some a ↔ stands = true :=
  ⟨fun ha => (h.role ha).resolve_right id, fun hs => (h.given hs).1⟩

/-! ## One event -/

variable (peer : WfsPeer)

open WfsPeer

theorem discoverChannels_channel (d : AnnounceEventData) (pri : Bool) :
    (discoverChannels peer d).channel pri =
      if d.isPrimaryAnnouce = pri then d.recvChannel
      else if peer.channel pri = d.recvChannel then none else peer.channel pri := by
  cases hd : d.isPrimaryAnnouce <;> cases pri <;>
    simp [discoverChannels, channel, dropPri, dropSec, hd]

theorem discoverChannels_ttl (d : AnnounceEventData) (pri : Bool) :
    (discoverChannels peer d).ttl pri =
      if d.isPrimaryAnnouce = pri then rapsPeerTimeout else peer.ttl pri := by
  cases hd : d.isPrimaryAnnouce <;> cases pri <;>
    simp [discoverChannels, ttl, dropPri, dropSec, hd]

theorem expireChannels_channel (pri : Bool) :
    (expireChannels peer).channel pri = if peer.ttl pri ≤ 0 then none else peer.channel pri := by
  cases pri <;>
    simp [expireChannels, channel, ttl, dropPri, dropSec]

theorem localSFChannels_channel (link : Port → Bool) (peer : WfsPeer) (pri : Bool) :
    (localSFChannels link peer).channel pri =
      if channelUp link (peer.channel pri) then peer.channel pri else none := by
  cases pri
  · cases h : channelUp link peer.channelSec <;>
      simp [localSFChannels, channel, dropPri, dropSec, h]
  · cases h : channelUp link peer.channelPri <;>
      simp [localSFChannels, channel, dropPri, dropSec, h]

theorem dropChannel_channel (r : RapsEventData) (pri : Bool) :
    (dropChannel peer r).channel pri =
      if r.failureOnPrimary = pri then none else peer.channel pri := by
  cases hr : r.failureOnPrimary <;> cases pri <;>
    simp [dropChannel, channel, dropPri, dropSec, hr]

theorem dropChannel_ttl (r : RapsEventData) (pri : Bool) :
    (dropChannel peer r).ttl pri = peer.ttl pri := by
  unfold dropChannel
  split <;> rfl

theorem PeerOk.ne_init {peer : WfsPeer} (h : PeerOk peer) {a : Port} {pri : Bool}
    (ha : peer.channel pri = some a) : peer.fsmState ≠ init := by
  intro hinit
  obtain ⟨hp, hs⟩ := h.init_iff.mp hinit
  cases pri
  · exact absurd (ha.symm.trans hs) (by simp)
  · exact absurd (ha.symm.trans hp) (by simp)

section Actions

variable {myId : WfsId} {link : Port → Bool} {ctrl : RapsCtrl} {peer : WfsPeer} {a : Port}
  {pri stands : Bool} {doomed doomed' : Prop} {eb : EventRec} {r : ActionResult}

theorem channel_of_action (pri : Bool) (hid : eb.wfsid ≠ myId)
    (hr : eb.event.action myId link eb.wfsid eb.data ctrl peer = .ok r)
    (hevent : eb.event ≠ .clearLocalSF) :
    r.peer.channel pri = (match eb.event with
      | .discover => (discoverChannels peer eb.data.announce).channel pri
      | .expire => (expireChannels peer).channel pri
      | .localSF => (localSFChannels link peer).channel pri
      | .rapsSF => (dropChannel peer eb.data.raps).channel pri
      | _ => peer.channel pri) ∧
    r.peer.ttl pri = (match eb.event with
      | .discover => (discoverChannels peer eb.data.announce).ttl pri
      | _ => peer.ttl pri) := by
  cases he : eb.event with
  | discover =>
    simp only [he, WfsFsmEvent.action, wfsFsmActionDiscover, if_neg hid, Except.ok.injEq] at hr
    subst hr
    exact ⟨rfl, rfl⟩
  | expire =>
    simp only [he, WfsFsmEvent.action, wfsFsmActionExpire, if_neg hid, Except.ok.injEq] at hr
    subst hr
    exact ⟨rfl, rfl⟩
  | localSF =>
    simp only [he, WfsFsmEvent.action, wfsFsmActionLocalSF, if_neg hid, Except.ok.injEq] at hr
    subst hr
    exact ⟨rfl, rfl⟩
  | clearLocalSF => exact absurd he hevent
  | rapsSF =>
    simp only [he, WfsFsmEvent.action, wfsFsmActionRapsSF, if_neg hid, Except.ok.injEq] at hr
    subst hr
    exact ⟨rfl, dropChannel_ttl peer _ pri⟩
  | rapsNR =>
    simp only [he, WfsFsmEvent.action, wfsFsmActionRapsNR, Except.ok.injEq] at hr
    subst hr
    exact ⟨rfl, rfl⟩

theorem Stands.action (h : Stands a pri stands doomed peer) (hid : eb.wfsid ≠ myId)
    (hvalid : validEntry peer.fsmState eb.event false = true)
    (hr : eb.event.action myId link eb.wfsid eb.data ctrl peer = .ok r)
    (hdoomed : doomed → (eb.event = .localSF ∧ link a = false) ∨ doomed') :
    Stands a pri (standsAfter link eb.wfsid a pri stands eb) doomed' r.peer := by
  obtain ⟨hchannel, httl⟩ := channel_of_action pri hid hr (validEntry_remote hvalid)
  have htimeout : 0 < rapsPeerTimeout := by decide
  have hstill : eb.event ≠ .localSF → doomed → doomed' :=
    fun hne hd => (hdoomed hd).resolve_left fun hh => hne hh.1
  -- first the role, event by event
  constructor
  · rw [hchannel]
    cases he : eb.event with
    | discover =>
      simp only [standsAfter, he, ne_eq, not_true, if_false, discoverChannels_channel]
      split
      · exact fun ha => .inl (decide_eq_true ha)
      · split
        · exact fun ha => nomatch ha
        · next hother =>
          intro ha
          refine (h.role ha).imp (fun hs => ?_) (hstill (by simp [he]))
          rw [hs, Bool.true_and, decide_eq_true_eq]
          exact fun hd => hother (ha.trans hd.symm)
    | expire =>
      simp only [standsAfter, he, ne_eq, not_true, if_false, expireChannels_channel]
      split
      · exact fun ha => nomatch ha
      · exact fun ha => (h.role ha).imp_right (hstill (by simp [he]))
    | localSF =>
      simp only [standsAfter, he, ne_eq, not_true, if_false, localSFChannels_channel]
      split
      · next hup =>
        intro ha
        have hlink : link a = true := by rw [ha] at hup; exact hup
        refine (h.role ha).imp (fun hs => ?_) fun hd => ?_
        · rw [hs, hlink, Bool.and_self]
        · refine (hdoomed hd).resolve_left fun hh => ?_
          exact absurd (hlink.symm.trans hh.2) (by decide)
      · exact fun ha => nomatch ha
    | clearLocalSF => exact absurd he (validEntry_remote hvalid)
    | rapsSF =>
      simp only [standsAfter, he, ne_eq, not_true, if_false, dropChannel_channel]
      split
      · exact fun ha => nomatch ha
      · next hother =>
        intro ha
        refine (h.role ha).imp (fun hs => ?_) (hstill (by simp [he]))
        rw [hs, Bool.true_and, decide_eq_true_eq]
        exact hother
    | rapsNR =>
      simp only [standsAfter, he, ne_eq, not_true, if_false]
      exact fun ha => (h.role ha).imp_right (hstill (by simp [he]))
  -- then that a port which was given stays given, with time left
  · rw [hchannel, httl]
    cases he : eb.event with
    | discover =>
      simp only [standsAfter, he, ne_eq, not_true, if_false, discoverChannels_channel,
        discoverChannels_ttl]
      split
      · exact fun ha => ⟨of_decide_eq_true ha, htimeout⟩
      · intro hs
        obtain ⟨hold, hother⟩ := Bool.and_eq_true_iff.mp hs
        obtain ⟨ha, hpos⟩ := h.given hold
        rw [if_neg fun hd => of_decide_eq_true hother (hd.symm.trans ha)]
        exact ⟨ha, hpos⟩
    | expire =>
      simp only [standsAfter, he, ne_eq, not_true, if_false, expireChannels_channel]
      intro hs
      obtain ⟨ha, hpos⟩ := h.given hs
      rw [if_neg (not_le.mpr hpos)]
      exact ⟨ha, hpos⟩
    | localSF =>
      simp only [standsAfter, he, ne_eq, not_true, if_false, localSFChannels_channel]
      intro hs
      obtain ⟨hold, hlink⟩ := Bool.and_eq_true_iff.mp hs
      obtain ⟨ha, hpos⟩ := h.given hold
      have hup : channelUp link (peer.channel pri) = true := by rw [ha]; exact hlink
      rw [if_pos hup]
      exact ⟨ha, hpos⟩
    | clearLocalSF => exact absurd he (validEntry_remote hvalid)
    | rapsSF =>
      simp only [standsAfter, he, ne_eq, not_true, if_false, dropChannel_channel]
      intro hs
      obtain ⟨hold, hother⟩ := Bool.and_eq_true_iff.mp hs
      rw [if_neg (of_decide_eq_true hother)]
      exact h.given hold
    | rapsNR =>
      simp only [standsAfter, he, ne_eq, not_true, if_false]
      exact h.given

theorem standsAfter_of_skip (link : Port → Bool) (stands : Bool) (hok : PeerOk peer)
    (ha : peer.channel pri = some a)
    (hvalid : validEntry peer.fsmState eb.event false = false) :
    standsAfter link eb.wfsid a pri stands eb = stands ∧ eb.event ≠ .localSF := by
  have hinit := hok.ne_init ha
  cases hst : peer.fsmState with
  | init => exact absurd hst hinit
  | idle =>
    cases he : eb.event <;> simp [hst, he, validEntry, fsm] at hvalid <;>
      simp [standsAfter, he]
  | protect =>
    cases he : eb.event <;> simp [hst, he, validEntry, fsm] at hvalid
    simp [standsAfter, he]

theorem Stands.skip (h : Stands a pri stands doomed peer) (hok : PeerOk peer)
    (hvalid : validEntry peer.fsmState eb.event false = false)
    (hdoomed : doomed → (eb.event = .localSF ∧ link a = false) ∨ doomed') :
    Stands a pri (standsAfter link eb.wfsid a pri stands eb) doomed' peer := by
  constructor
  · intro ha
    obtain ⟨hstands, hne⟩ := standsAfter_of_skip link stands hok ha hvalid
    rw [hstands]
    exact (h.role ha).imp_right fun hd => (hdoomed hd).resolve_left fun hh => hne hh.1
  · intro hs
    have hdiscover : eb.event ≠ .discover := by
      intro he
      rw [he] at hvalid
      cases hst : peer.fsmState <;> simp [hst, validEntry, fsm] at hvalid
    -- nothing but a discover gives a role
    have hold : stands = true := by
      cases he : eb.event <;> simp [standsAfter, he] at hs hdiscover ⊢ <;> simp [hs]
    exact h.given hold

end Actions

/-- **One event** leaves port `a` in the role the scan says. -/
theorem Stands.runEvent {link : Port → Bool} {core core' : RapsCore} {eb : EventRec}
    {fib : List FibCall} {p : WfsId} {a : Port} {pri stands : Bool} {doomed doomed' : Prop}
    (hrun : runEvent link core eb = .ok (core', fib)) (hp : p ≠ core.wfsId)
    (hok : PeerOk (core.peer p)) (h : Stands a pri stands doomed (core.peer p))
    (hdoomed : doomed → (eb.wfsid = p ∧ eb.event = .localSF ∧ link a = false) ∨ doomed') :
    Stands a pri (standsAfter link p a pri stands eb) doomed' (core'.peer p) := by
  by_cases hother : p = eb.wfsid
  · subst hother
    have hdoomed' : doomed → (eb.event = .localSF ∧ link a = false) ∨ doomed' :=
      fun hd => (hdoomed hd).imp_left fun hh => hh.2
    rcases runEvent_ok hrun with ⟨hacc, rfl, _⟩ | ⟨hacc, r, hr, rfl, _⟩
    · simp only [RapsCore.accepts, decide_eq_false hp] at hacc
      exact h.skip hok hacc hdoomed'
    · simp only [RapsCore.accepts, decide_eq_false hp] at hacc
      have hpeer : (core.acted eb.wfsid r).peer eb.wfsid = r.peer := by simp [RapsCore.acted]
      rw [hpeer]
      exact h.action hp hacc hr hdoomed'
  · rw [runEvent_peer_ne hrun hother, standsAfter, if_pos (Ne.symm hother)]
    refine ⟨fun ha => (h.role ha).imp_right fun hd => ?_, h.given⟩
    exact (hdoomed hd).resolve_left fun hh => hother hh.1.symm

/-! ## Runs of the queue -/

/-- **A run of the queue** leaves port `a` in the role the scan says. -/
theorem Stands.foldlM {view : Nat → Port → Bool} {l : List EventRec} {r r' : RunState}
    {p : WfsId} {a : Port} {pri stands : Bool} (doomed : List EventRec → Prop)
    (hloop : l.foldlM (runBody view) r = .ok r') (hroutes : RoutesOk r.core)
    (hev : ∀ eb ∈ l, EventOk r.core.wfsId eb) (hp : p ≠ r.core.wfsId)
    (hdoomed : ∀ i eb rest, i < r.done + l.length → doomed (eb :: rest) →
      (eb.wfsid = p ∧ eb.event = .localSF ∧ view i a = false) ∨ doomed rest)
    (h : Stands a pri stands (doomed l) (r.core.peer p)) :
    Stands a pri (exchangedBy view p a pri r.done l stands) (doomed []) (r'.core.peer p) := by
  induction l generalizing r stands with
  | nil =>
    have hrr : r = r' := by simpa [pure, Except.pure] using hloop
    exact hrr ▸ h
  | cons eb l ih =>
    obtain ⟨r₁, hbody, hrest⟩ := foldlM_cons_ok.mp hloop
    obtain ⟨core, fib, hrun, rfl⟩ := runBody_ok hbody
    obtain ⟨core', fib', hrun', hroutes'⟩ := hroutes.runEvent (view r.done)
      (hev eb (by simp))
    rw [hrun] at hrun'
    simp only [Except.ok.injEq, Prod.mk.injEq] at hrun'
    have hwfs : core.wfsId = r.core.wfsId := runEvent_wfsId hrun
    have hstep := h.runEvent hrun hp (hroutes.remote p hp)
      (hdoomed r.done eb l (by rw [List.length_cons]; omega))
    refine ih hrest (hrun'.1 ▸ hroutes') (fun e he => hwfs ▸ hev e (by simp [he]))
      (hwfs ▸ hp) ?_ hstep
    intro i e rest hi
    have hi' : i < r.done + 1 + l.length := hi
    exact hdoomed i e rest (by rw [List.length_cons]; omega)

end VmkDrivers.Wfs
