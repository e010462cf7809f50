/-
  VmkDrivers.Wfs.PeerExpiry

  When a silent peer is torn down.

  A peer that left `S_init` is watched by two counters that run while
  `RAPS_CTRL_PEER_TTL` is set; the tick on which a counter crosses zero asks
  once for an `E_expire`.  `Watched` says that every channel of the peer is
  either alive or doomed by a pending `E_expire`.  Events keep it
  (`Watched.runEvent`), and so does a tick as long as the requests it makes
  find a buffer (`TornDown.aged_iff`); a refused request is never repeated,
  so the condition is exact.
-/

import VmkDrivers.Wfs.EventBuffers

namespace VmkDrivers.Wfs

open VmkDrivers.Lib WfsFsmState RapsCore WfsFsmEvent

/-! ## Watched peers -/

/-- A channel with its time to live: unknown, alive under a running timer, or `doomed`. -/
def ChannelWatched (running : Bool) (doomed : Prop) (channel : Option Port) (ttl : Int) : Prop :=
  channel ≠ none → (0 < ttl ∧ running = true) ∨ doomed

/-- Both channels of a peer that left `S_init` are watched. -/
structure Watched (running : Bool) (doomed : Prop) (peer : WfsPeer) : Prop where
  pri : peer.fsmState ≠ init → ChannelWatched running doomed peer.channelPri peer.ttlPri
  sec : peer.fsmState ≠ init → ChannelWatched running doomed peer.channelSec peer.ttlSec

def TornDown (core : RapsCore) (pending : List EventRec) : Prop :=
  ∀ id, id ≠ core.wfsId →
    Watched core.ctrl.flag.peerTtl (HasEvent .expire id pending) (core.peer id)

def TimerRuns (core : RapsCore) : Prop :=
  ∀ id, id ≠ core.wfsId → (core.peer id).fsmState ≠ init → core.ctrl.flag.peerTtl = true

variable {running : Bool} {peer : WfsPeer} {link : Port → Bool} {evdata : WfsFsmEventData}
  {e : WfsFsmEvent} {r : ActionResult} {core : RapsCore} {eb : EventRec} {fib : List FibCall}
  {rest : List EventRec} {k : Kmalloc} {needs : WfsId → Bool} {ids : List WfsId} {q : EvQueue}
  {s t : Iwa EvQueue}

theorem Watched.mono {p q : Prop} (h : Watched running p peer) (hpq : p → q) :
    Watched running q peer :=
  ⟨fun hs hc => (h.pri hs hc).imp_right hpq, fun hs hc => (h.sec hs hc).imp_right hpq⟩

theorem Watched.congr {p : Prop} {a b : WfsPeer} (h : Watched running p b) (hab : a.SameRoute b) :
    Watched running p a := by
  constructor
  · rw [hab.fsmState, hab.channelPri, hab.ttlPri]; exact h.pri
  · rw [hab.fsmState, hab.channelSec, hab.ttlSec]; exact h.sec

/-! ## One event -/

structure ChannelStep (e : WfsFsmEvent) (c c' : Option Port) (ttl ttl' : Int) : Prop where
  known : c' ≠ none → 0 < ttl' ∨ (e ≠ .expire ∧ c ≠ none ∧ ttl' = ttl)

structure WatchStep (e : WfsFsmEvent) (ctrl : RapsCtrl) (peer : WfsPeer) (r : ActionResult) :
    Prop where
  pri : ChannelStep e peer.channelPri r.peer.channelPri peer.ttlPri r.peer.ttlPri
  sec : ChannelStep e peer.channelSec r.peer.channelSec peer.ttlSec r.peer.ttlSec
  flag : r.ctrl.flag.peerTtl = true ∨
    (r.ctrl.flag.peerTtl = ctrl.flag.peerTtl ∧ peer.fsmState ≠ init)

theorem WatchStep.of_action {myId wfsid : WfsId} {ctrl : RapsCtrl} (hid : wfsid ≠ myId)
    (hvalid : validEntry peer.fsmState e false = true)
    (hr : e.action myId link wfsid evdata ctrl peer = .ok r) : WatchStep e ctrl peer r := by
  have hdrop : ∀ (b : Bool) (c : Option Port), (if b then none else c) ≠ none → c ≠ none := by
    intro b c h
    cases b <;> simp_all
  cases e with
  | discover =>
    simp only [action, wfsFsmActionDiscover, if_neg hid, Except.ok.injEq] at hr
    subst hr
    have htimeout : 0 < rapsPeerTimeout := by decide
    refine ⟨⟨?_⟩, ⟨?_⟩, .inl rfl⟩
    · unfold discoverChannels
      split
      · exact fun _ => .inl htimeout
      · exact fun hc => .inr ⟨by decide, hdrop _ _ hc, rfl⟩
    · unfold discoverChannels
      split
      · exact fun hc => .inr ⟨by decide, hdrop _ _ hc, rfl⟩
      · exact fun _ => .inl htimeout
  | expire =>
    simp only [action, wfsFsmActionExpire, if_neg hid, Except.ok.injEq] at hr
    subst hr
    -- a channel that survives has time left
    refine ⟨⟨fun hc => .inl ?_⟩, ⟨fun hc => .inl ?_⟩,
      .inr ⟨rfl, validEntry_init hvalid (by decide)⟩⟩
    · by_contra hle
      exact hc (if_pos (decide_eq_true (not_lt.mp hle)))
    · by_contra hle
      exact hc (if_pos (decide_eq_true (not_lt.mp hle)))
  | localSF =>
    simp only [action, wfsFsmActionLocalSF, if_neg hid, Except.ok.injEq] at hr
    subst hr
    exact ⟨⟨fun hc => .inr ⟨by decide, hdrop _ _ hc, rfl⟩⟩,
      ⟨fun hc => .inr ⟨by decide, hdrop _ _ hc, rfl⟩⟩,
      .inr ⟨rfl, validEntry_init hvalid (by decide)⟩⟩
  | clearLocalSF => exact absurd rfl (validEntry_remote hvalid)
  | rapsSF =>
    simp only [action, wfsFsmActionRapsSF, if_neg hid, Except.ok.injEq] at hr
    subst hr
    refine ⟨?_, ?_, .inr ⟨rfl, validEntry_init hvalid (by decide)⟩⟩
    · unfold dropChannel
      split
      · exact ⟨fun hc => absurd rfl hc⟩
      · exact ⟨fun hc => .inr ⟨by decide, hc, rfl⟩⟩
    · unfold dropChannel
      split
      · exact ⟨fun hc => .inr ⟨by decide, hc, rfl⟩⟩
      · exact ⟨fun hc => absurd rfl hc⟩
  | rapsNR =>
    simp only [action, wfsFsmActionRapsNR, Except.ok.injEq] at hr
    subst hr
    exact ⟨⟨fun hc => .inr ⟨by decide, hc, rfl⟩⟩, ⟨fun hc => .inr ⟨by decide, hc, rfl⟩⟩,
      .inr ⟨rfl, validEntry_init hvalid (by decide)⟩⟩

theorem peerTtl_of_own_action {myId : WfsId} {ctrl : RapsCtrl}
    (hvalid : validEntry peer.fsmState e true = true)
    (hr : e.action myId link myId evdata ctrl peer = .ok r) :
    r.ctrl.flag.peerTtl = ctrl.flag.peerTtl := by
  rcases validEntry_local hvalid with rfl | rfl | rfl
  · simp only [action, wfsFsmActionDiscover, if_true, Except.ok.injEq] at hr
    subst hr
    rfl
  · simp only [action, wfsFsmActionLocalSF, if_true, Except.ok.injEq] at hr
    subst hr
    rfl
  · simp only [action, wfsFsmActionClearLocalSF, ne_eq, not_true, if_false, Except.ok.injEq] at hr
    subst hr
    rfl

theorem ChannelStep.watched {c c' : Option Port} {ttl ttl' : Int} (h : ChannelStep e c c' ttl ttl')
    {running' : Bool} {p q : Prop} (hrun : running = true → running' = true)
    (hrun' : running' = true) (hpq : e ≠ .expire → p → q)
    (hw : c ≠ none → (0 < ttl ∧ running = true) ∨ p) : ChannelWatched running' q c' ttl' := by
  intro hc
  rcases h.known hc with hpos | ⟨he, hold, httl⟩
  · exact .inl ⟨hpos, hrun'⟩
  · rcases hw hold with ⟨hpos, hr⟩ | hp
    · exact .inl ⟨httl ▸ hpos, hrun hr⟩
    · exact .inr (hpq he hp)

/-- The invariant of the loop of `wfs_fsm_run`. -/
structure ExpiryInv (rest : List EventRec) (core : RapsCore) : Prop where
  routes : RoutesOk core
  events : ∀ eb ∈ rest, EventOk core.wfsId eb
  timer : TimerRuns core
  torn : TornDown core rest

theorem peerTtl_of_runEvent {core' : RapsCore} (hrun : runEvent link core eb = .ok (core', fib))
    (h : core.ctrl.flag.peerTtl = true) : core'.ctrl.flag.peerTtl = true := by
  rcases runEvent_ok hrun with ⟨_, rfl, _⟩ | ⟨hacc, r, hr, rfl, _⟩
  · exact h
  · simp only [accepts] at hacc
    by_cases hid : eb.wfsid = core.wfsId
    · rw [decide_eq_true hid] at hacc
      simp only [act, hid] at hr hacc
      exact (peerTtl_of_own_action hacc hr).trans h
    · rw [decide_eq_false hid] at hacc
      rcases (WatchStep.of_action hid hacc hr).flag with hon | ⟨hsame, _⟩
      · exact hon
      · exact hsame.trans h

theorem TimerRuns.runEvent {core' : RapsCore} (hrun : runEvent link core eb = .ok (core', fib))
    (h : TimerRuns core) : TimerRuns core' := by
  intro id hid hs
  have hwfs := runEvent_wfsId hrun
  rw [hwfs] at hid
  by_cases hother : id = eb.wfsid
  · subst hother
    rcases runEvent_ok hrun with ⟨_, rfl, _⟩ | ⟨hacc, r, hr, rfl, _⟩
    · exact h _ hid hs
    · simp only [accepts, decide_eq_false hid] at hacc
      rcases (WatchStep.of_action hid hacc hr).flag with hon | ⟨hsame, hold⟩
      · exact hon
      · exact hsame.trans (h _ hid hold)
  · rw [runEvent_peer_ne hrun hother] at hs
    exact peerTtl_of_runEvent hrun (h id hid hs)

/-- **One event** keeps the peers watched. -/
theorem TornDown.runEvent {core' : RapsCore} (hrun : runEvent link core eb = .ok (core', fib))
    (hroutes : RoutesOk core) (htimer : TimerRuns core) (h : TornDown core (eb :: rest)) :
    TornDown core' rest := by
  have htimer' := htimer.runEvent hrun
  intro id hid'
  have hid : id ≠ core.wfsId := runEvent_wfsId hrun ▸ hid'
  -- a pending `E_expire` is either this event or still ahead
  have hpend : HasEvent .expire id (eb :: rest) → (eb.wfsid = id ∧ eb.event = .expire) ∨
      HasEvent .expire id rest := by
    rintro ⟨e, hmem, he⟩
    rcases List.mem_cons.mp hmem with rfl | hmem
    · exact .inl he
    · exact .inr ⟨e, hmem, he⟩
  by_cases hother : id = eb.wfsid
  · subst hother
    rcases runEvent_ok hrun with ⟨hacc, rfl, _⟩ | ⟨hacc, r, hr, rfl, _⟩
    · simp only [accepts, decide_eq_false hid] at hacc
      have hskip : (core'.peer eb.wfsid).fsmState ≠ init → HasEvent .expire eb.wfsid (eb :: rest) →
          HasEvent .expire eb.wfsid rest := by
        intro hs hexp
        rcases hpend hexp with ⟨_, he⟩ | hexp
        · rw [he, validEntry_expire hs] at hacc
          exact absurd hacc (by decide)
        · exact hexp
      have hw := h _ hid
      exact ⟨fun hs hc => (hw.pri hs hc).imp_right (hskip hs),
        fun hs hc => (hw.sec hs hc).imp_right (hskip hs)⟩
    · simp only [accepts, decide_eq_false hid] at hacc
      have hstep := WatchStep.of_action hid hacc hr
      have hw := h _ hid
      have hok := hroutes.remote _ hid
      have hpeer : (core.acted eb.wfsid r).peer eb.wfsid = r.peer := by simp [acted]
      have hmono : core.ctrl.flag.peerTtl = true → r.ctrl.flag.peerTtl = true :=
        peerTtl_of_runEvent hrun
      have hexp : eb.event ≠ .expire → HasEvent .expire eb.wfsid (eb :: rest) →
          HasEvent .expire eb.wfsid rest :=
        fun he hp => (hpend hp).resolve_left fun hh => he hh.2
      have hrunning : r.peer.fsmState ≠ init → r.ctrl.flag.peerTtl = true := by
        intro hs
        exact htimer' _ hid' (hpeer ▸ hs)
      rw [hpeer]
      constructor
      · intro hs
        refine hstep.pri.watched hmono (hrunning hs) hexp fun hc => hw.pri ?_ hc
        exact fun hinit => hc (hok.init_iff.mp hinit).1
      · intro hs
        refine hstep.sec.watched hmono (hrunning hs) hexp fun hc => hw.sec ?_ hc
        exact fun hinit => hc (hok.init_iff.mp hinit).2
  · have hw := h id hid
    rw [runEvent_peer_ne hrun hother]
    have hexp : HasEvent .expire id (eb :: rest) → HasEvent .expire id rest :=
      fun hp => (hpend hp).resolve_left fun hh => hother hh.1.symm
    have hup : ∀ {c : Option Port} {ttl : Int},
        ChannelWatched core.ctrl.flag.peerTtl (HasEvent .expire id (eb :: rest)) c ttl →
        ChannelWatched core'.ctrl.flag.peerTtl (HasEvent .expire id rest) c ttl := by
      intro c ttl hcw hc
      exact (hcw hc).imp (fun hl => ⟨hl.1, peerTtl_of_runEvent hrun hl.2⟩) hexp
    exact ⟨fun hs => hup (hw.pri hs), fun hs => hup (hw.sec hs)⟩

theorem ExpiryInv.runEvent (link : Port → Bool) (h : ExpiryInv (eb :: rest) core) :
    ∃ core' fib, runEvent link core eb = .ok (core', fib) ∧ ExpiryInv rest core' := by
  obtain ⟨core', fib, hrun, hok⟩ := h.routes.runEvent link (h.events eb (by simp))
  refine ⟨core', fib, hrun, hok, ?_, h.timer.runEvent hrun, h.torn.runEvent hrun h.routes h.timer⟩
  intro e he
  rw [runEvent_wfsId hrun]
  exact h.events e (by simp [he])

/-! ## One tick -/

/-- The requests of a tick that are needed find a buffer; a refused one that is not needed
    does no harm. -/
def expireServed {π : Type} [EventStore π] (k : Kmalloc) (needs : WfsId → Bool) :
    List WfsId → π → Bool
  | [], _ => true
  | id :: ids, q =>
    match EventStore.enqueue q (k id) ⟨id, .expire, {}⟩ with
    | some q => expireServed k needs ids q
    | none => !needs id && expireServed k needs ids q

/-- A channel of the peer runs out of time with the next tick, and no `E_expire` is on its
    way yet. -/
def needsExpire {π : Type} [EventStore π] (s : Iwa π) (id : WfsId) : Bool :=
  ((s.core.peer id).channelPri.isSome && ttlCrosses (s.core.peer id).ttlPri ||
    (s.core.peer id).channelSec.isSome && ttlCrosses (s.core.peer id).ttlSec) &&
  !decide (HasEvent .expire id (pendingEvents s.pool))

theorem expireServed_iff (hnd : ids.Nodup)
    (hfresh : ∀ id ∈ ids, needs id = true → ¬HasEvent .expire id q.pending) :
    expireServed k needs ids q = true ↔
      ∀ id ∈ ids, needs id = true → HasEvent .expire id (requestExpire k ids q).pending := by
  induction ids generalizing q with
  | nil => simp [expireServed]
  | cons id ids ih =>
    rw [List.nodup_cons] at hnd
    obtain ⟨evs, happ, hevs⟩ := requestExpire_appended k (id :: ids) q
    have hrest : ∀ i ∈ ids, needs i = true → ¬HasEvent .expire i q.pending :=
      fun i hi => hfresh i (by simp [hi])
    cases henq : q.enqueue (k id) ⟨id, .expire, {}⟩ with
    | none =>
      have hrec : requestExpire k (id :: ids) q = requestExpire k ids q := by
        simp [requestExpire, henq]
      -- without its own request nothing dooms `id`
      have hno : needs id = true → ¬HasEvent .expire id (requestExpire k ids q).pending := by
        rintro hneeds ⟨eb, hmem, hid, he⟩
        obtain ⟨evs', happ', hevs'⟩ := requestExpire_appended k ids q
        rw [happ'.pending, List.mem_append] at hmem
        rcases hmem with hold | hnew
        · exact hfresh id (by simp) hneeds ⟨eb, hold, hid, he⟩
        · exact hnd.1 (hid ▸ (hevs' eb hnew).1)
      simp only [expireServed, EventStore.enqueue, henq, hrec, Bool.and_eq_true,
        Bool.not_eq_true', List.forall_mem_cons, ih hnd.2 hrest]
      refine and_congr_left fun _ => ?_
      cases hneeds : needs id with
      | false => simp
      | true => simpa using hno hneeds
    | some q' =>
      have happ' := EvQueue.enqueue_spec henq
      have hrec : requestExpire k (id :: ids) q = requestExpire k ids q' := by
        simp [requestExpire, henq]
      have hown : HasEvent .expire id (requestExpire k ids q').pending := by
        obtain ⟨evs', happ'', _⟩ := requestExpire_appended k ids q'
        rw [happ''.pending, happ'.pending]
        exact HasEvent.append_left ⟨⟨id, .expire, {}⟩, by simp, rfl, rfl⟩ evs'
      have hfresh' : ∀ i ∈ ids, needs i = true → ¬HasEvent .expire i q'.pending := by
        rintro i hi hneeds ⟨eb, hmem, hid, he⟩
        rw [happ'.pending, List.mem_append, List.mem_singleton] at hmem
        rcases hmem with hold | rfl
        · exact hrest i hi hneeds ⟨eb, hold, hid, he⟩
        · have hid' : id = i := hid
          exact hnd.1 (hid' ▸ hi)
      simp only [expireServed, EventStore.enqueue, henq, hrec, List.forall_mem_cons,
        ih hnd.2 hfresh']
      exact ⟨fun h => ⟨fun _ => hown, h⟩, fun h => h.2⟩

theorem ttlCrosses_iff {ttl : Int} : ttlCrosses ttl = true ↔ 0 < ttl ∧ tickTtl ttl ≤ 0 := by
  simp only [ttlCrosses, tickTtl, Bool.and_eq_true, decide_eq_true_eq]
  refine and_congr_right fun h => ?_
  rw [if_pos h]

theorem tickTtl_pos_or_crosses {ttl : Int} (h : 0 < ttl) :
    0 < tickTtl ttl ∨ ttlCrosses ttl = true := by
  rcases lt_or_ge 0 (tickTtl ttl) with hpos | hle
  · exact .inl hpos
  · exact .inr (ttlCrosses_iff.mpr ⟨h, hle⟩)

theorem sentExpired_of_needs {id : WfsId} (h : needsExpire s id = true) :
    sentExpired (s.core.peer id) = true := by
  simp only [needsExpire, Bool.and_eq_true, Bool.or_eq_true] at h
  simp only [sentExpired, Bool.or_eq_true]
  rcases h.1 with hp | hs
  · exact .inl hp.2
  · exact .inr hs.2

/-- **One tick** keeps the peers watched exactly when the requests it needs are served. -/
theorem TornDown.aged_iff (hopen : s.state = .opened) (ha : Aged k wfsIds s t)
    (htimer : TimerRuns s.core) (h : TornDown s.core s.pool.pending) :
    TornDown t.core t.pool.pending ↔
      expireServed k (needsExpire s) (s.core.expiring wfsIds) s.pool = true := by
  have hpool : t.pool = requestExpire k (s.core.expiring wfsIds) s.pool := by
    rw [ha.pool, if_pos hopen]
  have hnd : (s.core.expiring wfsIds).Nodup := wfsIds_nodup.filter _
  have hpend : ∀ id, HasEvent .expire id s.pool.pending → HasEvent .expire id t.pool.pending := by
    intro id hp
    obtain ⟨evs, happ, _⟩ := requestExpire_appended k (s.core.expiring wfsIds) s.pool
    rw [hpool, happ.pending]
    exact hp.append_left evs
  have hneeds : ∀ id, needsExpire s id = true → ¬HasEvent .expire id s.pool.pending := by
    intro id hn
    simp only [needsExpire, Bool.and_eq_true, EvQueue.pendingEvents_eq] at hn
    simpa using hn.2
  have hpeer : ∀ id, s.core.ages id = true → t.core.peer id = tickPeer (s.core.peer id) := by
    intro id hage
    rw [ha.peer id, if_pos ⟨mem_wfsIds id, hage⟩]
  rw [expireServed_iff hnd fun id _ => hneeds id, ← hpool]
  constructor
  · intro ht id hmem hn
    have hage : s.core.ages id = true := by
      have := (List.mem_filter.mp hmem).2
      simp only [Bool.and_eq_true] at this
      exact this.1
    obtain ⟨hs, hid⟩ : (s.core.peer id).fsmState ≠ init ∧ id ≠ s.core.wfsId := by
      simpa [ages] using hage
    have hw := ht id (ha.wfsId ▸ hid)
    rw [hpeer id hage] at hw
    simp only [needsExpire, Bool.and_eq_true, Bool.or_eq_true] at hn
    rcases hn.1 with ⟨hc, hx⟩ | ⟨hc, hx⟩
    · have hne : (s.core.peer id).channelPri ≠ none := Option.isSome_iff_ne_none.mp hc
      refine (hw.pri hs hne).resolve_left fun hpos => ?_
      have := (ttlCrosses_iff.mp hx).2
      exact absurd hpos.1 (not_lt.mpr this)
    · have hne : (s.core.peer id).channelSec ≠ none := Option.isSome_iff_ne_none.mp hc
      refine (hw.sec hs hne).resolve_left fun hpos => ?_
      have := (ttlCrosses_iff.mp hx).2
      exact absurd hpos.1 (not_lt.mpr this)
  · intro hserved id hid
    rw [ha.wfsId] at hid
    have hw := h id hid
    by_cases hs : (s.core.peer id).fsmState = init
    · have hage : s.core.ages id = false := by simp [ages, hs]
      rw [ha.peer id, if_neg (by simp [hage])]
      exact ⟨fun hne => absurd hs hne, fun hne => absurd hs hne⟩
    · have hage : s.core.ages id = true := by simp [ages, hs, hid]
      have hrunning : t.core.ctrl.flag.peerTtl = true := ha.peerTtl.trans (htimer id hid hs)
      -- a channel that runs out of time makes the request needed
      have hdoomed : ∀ {c : Option Port} {ttl : Int}, c ≠ none →
          (ttlCrosses ttl = true → ¬HasEvent .expire id s.pool.pending → needsExpire s id = true) →
          ((0 < ttl ∧ s.core.ctrl.flag.peerTtl = true) ∨ HasEvent .expire id s.pool.pending) →
          (0 < tickTtl ttl ∧ t.core.ctrl.flag.peerTtl = true) ∨ HasEvent .expire id t.pool.pending := by
        intro c ttl _ hneed hcase
        by_cases hexp : HasEvent .expire id s.pool.pending
        · exact .inr (hpend id hexp)
        · rcases hcase with ⟨hpos, _⟩ | hexp'
          · rcases tickTtl_pos_or_crosses hpos with hpos' | hx
            · exact .inl ⟨hpos', hrunning⟩
            · have hn := hneed hx hexp
              refine .inr (hserved id ?_ hn)
              exact List.mem_filter.mpr ⟨mem_wfsIds id, by simp [hage, sentExpired_of_needs hn]⟩
          · exact absurd hexp' hexp
      rw [hpeer id hage]
      constructor
      · intro _ hc
        refine hdoomed hc (fun hx hno => ?_) (hw.pri hs hc)
        have hsome : (s.core.peer id).channelPri.isSome = true := Option.isSome_iff_ne_none.mpr hc
        simp [needsExpire, hsome, hx, hno]
      · intro _ hc
        refine hdoomed hc (fun hx hno => ?_) (hw.sec hs hc)
        have hsome : (s.core.peer id).channelSec.isSome = true := Option.isSome_iff_ne_none.mpr hc
        simp [needsExpire, hsome, hx, hno]

/-! ## Steps of a station -/

structure ExpiryOk (s : Iwa EvQueue) : Prop where
  phased : Phased s
  timer : TimerRuns s.core
  torn : TornDown s.core s.pool.pending

theorem ExpiryOk.quiet {requests : List EventRec} {noBuffer : Bool} (h : ExpiryOk s) (ht : Phased t)
    (hq : QuietStep s t requests noBuffer) : ExpiryOk t := by
  obtain ⟨evs, happ, _⟩ := hq.queued
  refine ⟨ht, ?_, ?_⟩
  · intro id hid hs
    rw [hq.quiet.wfsId] at hid
    rw [(hq.quiet.peer id).fsmState] at hs
    exact hq.quiet.peerTtl.trans (h.timer id hid hs)
  · intro id hid
    rw [hq.quiet.wfsId] at hid
    rw [hq.quiet.peerTtl, happ.pending]
    exact ((h.torn id hid).congr (hq.quiet.peer id)).mono fun hp => hp.append_left evs

theorem ExpiryOk.fsmEvent {view : Nat → Port → Bool} (h : ExpiryOk s) (hok : StationOk s)
    (ht : Phased t) (hrun : rapsFsmEvent view s = .ok (t, fib)) : ExpiryOk t := by
  unfold rapsFsmEvent at hrun
  split at hrun
  · have hbody : ∀ eb rest (r : RunState), ExpiryInv (eb :: rest) r.core →
        ∃ r', runBody view r eb = .ok r' ∧ ExpiryInv rest r'.core := by
      intro eb rest r hinv
      obtain ⟨core, fib, hev, hinv'⟩ := hinv.runEvent (view r.done)
      exact ⟨_, runBody_of_runEvent hev, hinv'⟩
    obtain ⟨r, hloop, hinv⟩ := foldlM_total (I := fun l (r : RunState) => ExpiryInv l r.core)
      hbody (s := { core := s.core }) ⟨hok.routes, hok.events, h.timer, h.torn⟩
    rw [wfsFsmRun_eq, hloop] at hrun
    simp only [Except.map, Except.ok.injEq, Prod.mk.injEq] at hrun
    rw [← hrun.1] at ht ⊢
    exact ⟨ht, hinv.timer, hinv.torn⟩
  · simp only [Except.ok.injEq, Prod.mk.injEq] at hrun
    exact hrun.1 ▸ h

theorem ExpiryOk.peerTtl_iff (k : Kmalloc) (h : ExpiryOk s) (hopen : s.state = .opened) :
    (TornDown (rapsPeerTtl k s).1.core (rapsPeerTtl k s).1.pool.pending ↔
      (s.core.ctrl.flag.peerTtl = true →
        expireServed k (needsExpire s) (s.core.expiring wfsIds) s.pool = true)) ∧
    TimerRuns (rapsPeerTtl k s).1.core := by
  unfold rapsPeerTtl
  split
  · next hflag =>
    obtain ⟨t, ha, heq⟩ := wfsUpdatePeers_spec k s
    rw [heq]
    split
    · next hnone =>
      -- no peer is left to watch: the timer stops
      have hinit : ∀ id, id ≠ s.core.wfsId → (t.core.peer id).fsmState = init := by
        intro id hid
        have hage := hnone id
        rw [ha.peer id, if_neg (by simp [hage])]
        simpa [ages, hid] using hage
      have hexp : s.core.expiring wfsIds = [] := by
        rw [expiring, List.filter_eq_nil_iff]
        intro id _
        simp [hnone id]
      have hwfs : (t.setFlag { t.core.ctrl.flag with peerTtl := false }).core.wfsId =
          s.core.wfsId := ha.wfsId
      refine ⟨iff_of_true ?_ fun _ => by rw [hexp]; rfl, ?_⟩
      · intro id hid
        rw [hwfs] at hid
        exact ⟨fun hs => absurd (hinit id hid) hs, fun hs => absurd (hinit id hid) hs⟩
      · intro id hid hs
        rw [hwfs] at hid
        exact absurd (hinit id hid) hs
    · refine ⟨(h.torn.aged_iff hopen ha h.timer).trans ⟨fun hx _ => hx, fun hx => hx hflag⟩, ?_⟩
      intro id hid hs
      rw [ha.wfsId] at hid
      refine ha.peerTtl.trans (h.timer id hid ?_)
      rw [ha.peer id] at hs
      split at hs <;> exact hs
  · next hflag => exact ⟨iff_of_true h.torn fun hx => absurd hx hflag, h.timer⟩

theorem expiryOk_rapsStart {ip : UInt32} (ht : Phased (ixgbeWfsRapsStart k ip s).1) :
    ExpiryOk (ixgbeWfsRapsStart k ip s).1 := by
  obtain ⟨evs, pool, heq, _⟩ := ixgbeWfsRapsStart_spec k ip s
  have hinit : ∀ id, id ≠ (ixgbeWfsRapsStart k ip s).1.core.wfsId →
      ((ixgbeWfsRapsStart k ip s).1.core.peer id).fsmState = init := by
    rw [heq]
    intro id hid
    have hid' : id ≠ s.core.wfsId := hid
    have hpeer : (started s ip).peer id = {} := by
      simp [started, Function.update_of_ne hid']
    exact congrArg WfsPeer.fsmState hpeer
  exact ⟨ht, fun id hid hs => absurd (hinit id hid) hs, fun id hid =>
    ⟨fun hs => absurd (hinit id hid) hs, fun hs => absurd (hinit id hid) hs⟩⟩

/-- The requests a tick needs find a buffer. -/
def ExpireServed {π : Type} [EventStore π] (s : Iwa π) : RapsOp → Prop
  | .peerTtl k => s.core.ctrl.flag.peerTtl = true →
      expireServed k (needsExpire s) (s.core.expiring wfsIds) s.pool = true
  | _ => True

/-- **One step.** It keeps the peers watched exactly when it serves the requests needed. -/
theorem ExpiryOk.of_step {op : RapsOp} (h : ExpiryOk s) (hstep : RapsStep s op t) :
    (ExpireServed s op → ExpiryOk t) ∧ (TornDown t.core t.pool.pending → ExpireServed s op) := by
  have ht := h.phased.of_step hstep
  obtain ⟨hen, eff, hok⟩ := hstep
  cases hq : op.quiet with
  | true =>
    refine ⟨fun _ => h.quiet ht (RapsOp.step_quiet hq hok), fun _ => ?_⟩
    cases op with
    | fsmEvent | peerTtl | rapsStart => simp [RapsOp.quiet] at hq
    | setEvent | updateLink | linkIsDown | linkIsUp | announce | raps | timers | misc
    | openPorts | rapsStop | closePorts => trivial
  | false =>
    cases op with
    | fsmEvent view =>
      refine ⟨fun _ => ?_, fun _ => trivial⟩
      simp only [RapsOp.step] at hok
      cases hrun : rapsFsmEvent view s with
      | error f => simp [hrun, bind, Except.bind] at hok
      | ok r =>
        obtain ⟨u, fib⟩ := r
        simp only [hrun, bind, Except.bind, pure, Except.pure, Except.ok.injEq,
          Prod.mk.injEq] at hok
        have hstation : StationOk s := by
          refine h.phased.started.resolve_left fun hfresh => ?_
          exact absurd (hfresh.idle.symm.trans hen) (by decide)
        rw [← hok.1] at ht ⊢
        exact h.fsmEvent hstation ht hrun
    | peerTtl k =>
      simp only [RapsOp.step, Except.ok.injEq, Prod.mk.injEq] at hok
      rw [← hok.1] at ht ⊢
      obtain ⟨hiff, htimer⟩ := h.peerTtl_iff k (h.phased.opened hen)
      exact ⟨fun hserved => ⟨ht, htimer, hiff.mpr hserved⟩, hiff.mp⟩
    | rapsStart k ip =>
      simp only [RapsOp.step, Except.ok.injEq, Prod.mk.injEq] at hok
      rw [← hok.1] at ht ⊢
      exact ⟨fun _ => expiryOk_rapsStart ht, fun _ => trivial⟩
    | setEvent | updateLink | linkIsDown | linkIsUp | announce | raps | timers | misc
    | openPorts | rapsStop | closePorts => simp [RapsOp.quiet] at hq

/-! ## Runs -/

def OpenTornDown (s : Iwa EvBufPool) : Prop :=
  s.state = .opened → TornDown s.core (pendingEvents s.pool)

theorem expireServed_rep {p : EvBufPool} (h : PoolRep p q) :
    expireServed k needs ids p = expireServed k needs ids q := by
  induction ids generalizing p q with
  | nil => rfl
  | cons id ids ih =>
    have hrel := h.enqueue (k id) ⟨id, .expire, {}⟩
    simp only [expireServed, EventStore.enqueue]
    cases hp : p.enqueue (k id) ⟨id, .expire, {}⟩ <;>
      cases hq : q.enqueue (k id) ⟨id, .expire, {}⟩ <;> rw [hp, hq] at hrel
    · simp only [ih h]
    · cases hrel
    · cases hrel
    · cases hrel with
      | some hpq => exact ih hpq

theorem expireServed_iwaRep {s : Iwa EvBufPool} (h : IwaRep s t) (op : RapsOp) :
    ExpireServed s op ↔ ExpireServed t op := by
  have hneeds : needsExpire s = needsExpire t := by
    funext id
    simp only [needsExpire, h.core_eq, h.pendingEvents_eq, EvQueue.pendingEvents_eq]
  cases op <;> simp only [ExpireServed, h.core_eq, hneeds, expireServed_rep h.pool_rep]

theorem expiry_of_run {s s' : Iwa EvBufPool} {ops : List RapsOp} (hrun : Run RapsStep s ops s')
    (hrep : IwaRep s t) (h : ExpiryOk t) :
    Always RapsStep OpenTornDown s ops ↔ Run (Guarded RapsStep ExpireServed) s ops s' := by
  have htorn : ∀ {s : Iwa EvBufPool} {t : Iwa EvQueue}, IwaRep s t →
      TornDown t.core t.pool.pending → OpenTornDown s := by
    intro s t hrep ht _
    rw [← hrep.core_eq, hrep.pendingEvents_eq]
    exact ht
  apply always_iff_guarded (I := fun s => ∃ t, IwaRep s t ∧ ExpiryOk t) rapsStep_unique ?_ ?_ hrun
    ⟨t, hrep, h⟩
  · rintro s ⟨t, hrep, h⟩
    exact htorn hrep h.torn
  · rintro s op u ⟨t, hrep, h⟩ hstep
    obtain ⟨t', hstep', hrep'⟩ := rapsStep_refines hrep hstep
    obtain ⟨hkeep, hneed⟩ := h.of_step hstep'
    rw [expireServed_iwaRep hrep op]
    refine ⟨fun hserved => ⟨t', hrep', hkeep hserved⟩, fun hu => ?_⟩
    by_contra hserved
    -- a refused request shows in the next state
    have hpeer : ∃ k, op = .peerTtl k := by
      cases op <;> first | exact ⟨_, rfl⟩ | exact absurd trivial hserved
    obtain ⟨k, rfl⟩ := hpeer
    have hopen : u.state = .opened := by
      have hctl := congrArg Control.state (RapsOp.step_control hstep'.2.choose_spec)
      have htopen : t'.state = t.state := hctl
      rw [← hrep'.state_eq, htopen]
      exact h.phased.opened hstep'.1
    have hu := hu hopen
    rw [← hrep'.core_eq, hrep'.pendingEvents_eq] at hu
    exact hserved (hneed hu)

/-- **Peer expiry.** On a run from the probe a silent peer is always torn down, that is in
    every state with the adapter open each known channel of a remote peer has time left
    under a running timer or an `E_expire` pending, if and only if the requests the ticks
    of the run need find a buffer. -/
theorem silent_peer_torn_down_iff {kmalloc : Nat → Bool} {wfsId : WfsId} {macAddr : Mac}
    {wfsPort : Port → Int} {ops : List RapsOp} {s : Iwa EvBufPool}
    (hrun : Run RapsStep (.probed wfsId macAddr wfsPort (EvBufPool.ixgbeWfsFsmInit kmalloc).1)
      ops s) :
    Always RapsStep OpenTornDown
        (.probed wfsId macAddr wfsPort (EvBufPool.ixgbeWfsFsmInit kmalloc).1) ops ↔
      Run (Guarded RapsStep ExpireServed)
        (.probed wfsId macAddr wfsPort (EvBufPool.ixgbeWfsFsmInit kmalloc).1) ops s := by
  obtain ⟨q, hq, _⟩ := PoolRep.ixgbeWfsFsmInit kmalloc
  refine expiry_of_run hrun (iwaRep_probed hq) ⟨phased_probed wfsId macAddr wfsPort q, ?_, ?_⟩
  · exact fun _ _ hs => absurd rfl hs
  · exact fun _ _ => ⟨fun hs => absurd rfl hs, fun hs => absurd rfl hs⟩

instance {π : Type} [EventStore π] (s : Iwa π) : (op : RapsOp) → Decidable (ExpireServed s op)
  | .peerTtl _ => inferInstanceAs (Decidable (_ = true → _ = true))
  | .setEvent .. | .updateLink .. | .linkIsDown .. | .linkIsUp .. | .announce .. | .raps ..
  | .fsmEvent _ | .timers | .misc _ | .openPorts | .rapsStart .. | .rapsStop | .closePorts =>
    inferInstanceAs (Decidable True)

/-- A tick that nothing interrupts, with the ports in the state `up` and no memory. -/
def tickOps (up : Port → Bool) : List RapsOp :=
  [.fsmEvent fun _ => up, .timers, .peerTtl fun _ => false, .misc 0]

theorem silent_peer_torn_down_discoverRun :
    Always RapsStep OpenTornDown stationOne (discoverRun ++ tickOps fun _ => true) := by
  have hdone : (Run.exec (fun s op => if ExpireServed s op then RapsOp.next? s op else none)
      stationOne (discoverRun ++ tickOps fun _ => true)).isSome = true := by decide +kernel
  obtain ⟨s, hs⟩ := Option.isSome_iff_exists.mp hdone
  have hguarded : Run (Guarded RapsStep ExpireServed) stationOne
      (discoverRun ++ tickOps fun _ => true) s :=
    (Run.exec_eq_some_iff (guarded_eq_some_iff RapsOp.next?_eq_some_iff)).mp hs
  exact (silent_peer_torn_down_iff (hguarded.mono fun _ _ _ h => h.2)).mpr hguarded

def stationEight : Iwa EvBufPool :=
  .probed 7 (Vector.replicate 6 8) (fun _ => 0) (EvBufPool.ixgbeWfsFsmInit fun _ => false).1

/-- Station 8 has one event buffer.  It learns station 1 on its secondary port, loses that
    port, learns station 2 and then station 1 again on its primary port, and hears no
    more: the counter of the port lost expires together with that of station 2 and takes
    the buffer. -/
def silentRun : List RapsOp :=
  [.openPorts, .updateLink .primary true, .updateLink .secondary true,
    .rapsStart (fun _ => true) 0] ++ tickOps (fun _ => true) ++
  [.announce (fun _ => false) .secondary 0 (announceOf false)] ++ tickOps (fun _ => true) ++
  [.linkIsDown (fun _ => false) .secondary] ++ tickOps (· == .primary) ++
  [.announce (fun _ => false) .primary 1 (announceOf true)] ++ tickOps (· == .primary) ++
  [.announce (fun _ => false) .primary 0 (announceOf true)] ++ tickOps (· == .primary) ++
  (List.replicate 28 (tickOps (· == .primary))).flatten

/-- Station 2 keeps a channel whose time is up, and no `E_expire` is pending for it. -/
theorem silent_peer_kept_by_silentRun :
    ∃ s, Run RapsStep stationEight silentRun s ∧ ¬OpenTornDown s := by
  have hdone : ((Run.exec (fun s op => RapsOp.next? s op) stationEight silentRun).map fun s =>
      decide (s.state = .opened ∧ s.core.wfsId = 7 ∧ (s.core.peer 1).fsmState = idle ∧
        (s.core.peer 1).channelPri ≠ none ∧ (s.core.peer 1).ttlPri = 0 ∧
        ¬HasEvent .expire 1 (pendingEvents s.pool))) = some true := by
    decide +kernel
  obtain ⟨s, hs, hprop⟩ := Option.map_eq_some_iff.mp hdone
  obtain ⟨hopen, hid, hstate, hpri, httl, hexp⟩ := of_decide_eq_true hprop
  refine ⟨s, rapsRun_iff_exec.mp hs, fun htorn => ?_⟩
  have hw := htorn hopen 1 (by rw [hid]; decide)
  rcases hw.pri (by rw [hstate]; decide) hpri with ⟨hpos, _⟩ | hdoomed
  · rw [httl] at hpos
    exact absurd hpos (by decide)
  · exact hexp hdoomed

end VmkDrivers.Wfs
