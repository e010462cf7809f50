/-
  VmkDrivers.Wfs.RapsRefine

  The adapter over its linked event buffers refines the adapter over a
  bounded queue of events.

  `IwaRep` relates two adapters that differ in their event store only, the
  buffers of the one threading the queue of the other.  Every operation of
  `RapsOp` keeps the relation, with the same effects and the same faults
  (`RapsOp.step_rep`), so every run over buffers is a run over queues
  (`raps_refines`).  Invariants are proved over queues and hold of the
  buffers by this theorem.
-/

import VmkDrivers.Wfs.Raps
import VmkDrivers.Wfs.EventPoolRep

namespace VmkDrivers.Wfs

open VmkDrivers.Lib

def Iwa.withPool {π ρ : Type} (s : Iwa π) (pool : ρ) : Iwa ρ :=
  { state := s.state, core := s.core, link := s.link, wfsPort := s.wfsPort, linkUp := s.linkUp,
    carrier := s.carrier, rapsTimer := s.rapsTimer, pool }

/-- `t` is `s` with the queue its buffers thread. -/
def IwaRep (s : Iwa EvBufPool) (t : Iwa EvQueue) : Prop :=
  ∃ q, PoolRep s.pool q ∧ t = s.withPool q

def IwaRep.Out {β : Type} (r : Iwa EvBufPool × β) (r' : Iwa EvQueue × β) : Prop :=
  IwaRep r.1 r'.1 ∧ r.2 = r'.2

/-- Related outcomes: the same fault, or related adapters with the same result. -/
def IwaRep.Outcome {β : Type} :
    Except Fault (Iwa EvBufPool × β) → Except Fault (Iwa EvQueue × β) → Prop
  | .ok r, .ok r' => IwaRep.Out r r'
  | .error f, .error f' => f = f'
  | _, _ => False

theorem IwaRep.Out.noBuffer {r : Iwa EvBufPool × Bool} {r' : Iwa EvQueue × Bool}
    (h : IwaRep.Out r r') :
    IwaRep.Outcome (.ok (r.1, ({ noBuffer := r.2 } : Effects))) (.ok (r'.1, { noBuffer := r'.2 })) :=
  ⟨h.1, by simp only [h.2]⟩

namespace IwaRep

variable {s : Iwa EvBufPool} {t : Iwa EvQueue}

theorem core_eq (h : IwaRep s t) : t.core = s.core := by
  obtain ⟨q, _, rfl⟩ := h; rfl

theorem state_eq (h : IwaRep s t) : t.state = s.state := by
  obtain ⟨q, _, rfl⟩ := h; rfl

theorem link_eq (h : IwaRep s t) : t.link = s.link := by
  obtain ⟨q, _, rfl⟩ := h; rfl

theorem rapsTimer_eq (h : IwaRep s t) : t.rapsTimer = s.rapsTimer := by
  obtain ⟨q, _, rfl⟩ := h; rfl

theorem pool_rep (h : IwaRep s t) : PoolRep s.pool t.pool := by
  obtain ⟨q, hq, rfl⟩ := h; exact hq

theorem pendingEvents_eq (h : IwaRep s t) : pendingEvents s.pool = t.pool.pending :=
  h.pool_rep.pendingEvents_eq

theorem setCtrl (h : IwaRep s t) (ctrl : RapsCtrl) : IwaRep (s.setCtrl ctrl) (t.setCtrl ctrl) := by
  obtain ⟨q, hq, rfl⟩ := h; exact ⟨q, hq, rfl⟩

theorem setFlag (h : IwaRep s t) (flag : RapsFlag) : IwaRep (s.setFlag flag) (t.setFlag flag) := by
  obtain ⟨q, hq, rfl⟩ := h; exact ⟨q, hq, rfl⟩

theorem setPeer (h : IwaRep s t) (id : WfsId) (peer : WfsPeer) :
    IwaRep (s.setPeer id peer) (t.setPeer id peer) := by
  obtain ⟨q, hq, rfl⟩ := h; exact ⟨q, hq, rfl⟩

end IwaRep

open IwaRep

/-! ## Operations -/

variable {s : Iwa EvBufPool} {t : Iwa EvQueue} (k : Kmalloc)

theorem setEventLoop_rep (wfsid : UInt8) (e : WfsFsmEvent) (evdata : WfsFsmEventData)
    (ids : List WfsId) (h : IwaRep s t) :
    Out (setEventLoop k wfsid e evdata ids s) (setEventLoop k wfsid e evdata ids t) := by
  induction ids generalizing s t with
  | nil => exact ⟨h, rfl⟩
  | cons id ids ih =>
    simp only [setEventLoop, h.core_eq]
    split
    · exact ih h
    · split
      · exact ih h
      · have hrel := h.pool_rep.enqueue (k id) ⟨id, e, evdata⟩
        simp only [EventStore.enqueue]
        cases hp : s.pool.enqueue (k id) ⟨id, e, evdata⟩ with
        | none =>
          rw [hp] at hrel
          cases hq : t.pool.enqueue (k id) ⟨id, e, evdata⟩ with
          | none => exact ⟨h, rfl⟩
          | some q => rw [hq] at hrel; cases hrel
        | some p =>
          rw [hp] at hrel
          cases hq : t.pool.enqueue (k id) ⟨id, e, evdata⟩ with
          | none => rw [hq] at hrel; cases hrel
          | some q =>
            rw [hq] at hrel
            cases hrel with
            | some hpq =>
              refine ih ?_
              obtain ⟨q₀, _, rfl⟩ := h
              exact ⟨q, hpq, rfl⟩

theorem ixgbeWfsFsmSetEvent_rep (wfsid : UInt8) (e : WfsFsmEvent) (evdata : WfsFsmEventData)
    (h : IwaRep s t) :
    Out (ixgbeWfsFsmSetEvent k wfsid e evdata s) (ixgbeWfsFsmSetEvent k wfsid e evdata t) := by
  simp only [ixgbeWfsFsmSetEvent, h.state_eq]
  split
  · exact ⟨h, rfl⟩
  · exact setEventLoop_rep k wfsid e evdata wfsIds h

theorem wfsFsmRun_rep (view : Nat → Port → Bool) (h : IwaRep s t) :
    Outcome (wfsFsmRun view s) (wfsFsmRun view t) := by
  obtain ⟨q, hq, rfl⟩ := h
  obtain ⟨p', hp', hwalk⟩ := hq.walk
  simp only [wfsFsmRun, EventStore.walk, hwalk, EvQueue.walk, Iwa.withPool]
  cases q.pending.foldlM (runBody view) { core := s.core } with
  | error f => rfl
  | ok r => exact ⟨⟨_, hp', rfl⟩, rfl⟩

theorem rapsFsmEvent_rep (view : Nat → Port → Bool) (h : IwaRep s t) :
    Outcome (rapsFsmEvent view s) (rapsFsmEvent view t) := by
  simp only [rapsFsmEvent, h.core_eq]
  split
  · exact wfsFsmRun_rep view h
  · exact ⟨h, rfl⟩

theorem updatePeersLoop_rep (ids : List WfsId) (count : Nat) (refused : Bool) (h : IwaRep s t) :
    Out (updatePeersLoop k ids s count refused) (updatePeersLoop k ids t count refused) := by
  induction ids generalizing s t count refused with
  | nil => exact ⟨h, rfl⟩
  | cons id ids ih =>
    simp only [updatePeersLoop, h.core_eq]
    split
    · exact ih _ _ h
    · have hset := h.setPeer id (tickPeer (s.core.peer id))
      obtain ⟨hs, hr⟩ := ixgbeWfsFsmSetEvent_rep k id.byte .expire {} hset
      split
      · rw [hr]
        exact ih _ _ hs
      · exact ih _ _ hset

theorem wfsUpdatePeers_rep (h : IwaRep s t) : Out (wfsUpdatePeers k s) (wfsUpdatePeers k t) := by
  obtain ⟨hs, hr⟩ := updatePeersLoop_rep k wfsIds 0 false h
  simp only [wfsUpdatePeers, hr]
  split
  · exact ⟨by rw [hs.core_eq]; exact hs.setFlag _, rfl⟩
  · exact ⟨hs, rfl⟩

theorem rapsPeerTtl_rep (h : IwaRep s t) : Out (rapsPeerTtl k s) (rapsPeerTtl k t) := by
  simp only [rapsPeerTtl, h.core_eq]
  split
  · exact wfsUpdatePeers_rep k h
  · exact ⟨h, rfl⟩

theorem rapsMisc_rep (ip : UInt32) (h : IwaRep s t) : IwaRep (rapsMisc ip s) (rapsMisc ip t) := by
  obtain ⟨q, hq, rfl⟩ := h; exact ⟨q, hq, rfl⟩

theorem ixgbeWfsRapsStart_rep (ip : UInt32) (h : IwaRep s t) :
    Out (ixgbeWfsRapsStart k ip s) (ixgbeWfsRapsStart k ip t) := by
  obtain ⟨q, hq, rfl⟩ := h
  have hforget : IwaRep
      { s with
        core := { s.core with
          ctrl := {}, ip, peer := Function.update (fun _ => {}) s.core.wfsId (localPeer s ip) }
        pool := EventStore.forget s.pool }
      (Iwa.withPool { s with
        core := { s.core with
          ctrl := {}, ip, peer := Function.update (fun _ => {}) s.core.wfsId (localPeer s ip) } }
        (EventStore.forget q)) := ⟨_, hq.forget, rfl⟩
  obtain ⟨hs, hr⟩ := ixgbeWfsFsmSetEvent_rep k s.core.wfsId.byte .discover {} hforget
  refine ⟨?_, hr⟩
  obtain ⟨q', hq', heq⟩ := hs
  refine ⟨q', hq', ?_⟩
  have := congrArg (fun t : Iwa EvQueue => { t with rapsTimer := true }) heq
  exact this

theorem ixgbeWatchdogLinkIsDown_rep (p : Port) (h : IwaRep s t) :
    Out (ixgbeWatchdogLinkIsDown k p s) (ixgbeWatchdogLinkIsDown k p t) := by
  simp only [ixgbeWatchdogLinkIsDown, h.link_eq]
  refine ixgbeWfsFsmSetEvent_rep k wfsidAll .localSF {} ?_
  obtain ⟨q, hq, rfl⟩ := h
  split <;> exact ⟨q, hq, rfl⟩

theorem ixgbeWatchdogLinkIsUp_rep (p : Port) (h : IwaRep s t) :
    Out (ixgbeWatchdogLinkIsUp k p s) (ixgbeWatchdogLinkIsUp k p t) := by
  obtain ⟨q, hq, rfl⟩ := h
  have hup : ∀ s' : Iwa EvBufPool, s'.pool = s.pool →
      Out (if s'.link p.other then ixgbeWfsFsmSetEvent k wfsidAll .clearLocalSF {} s'
          else (s', false))
        (if (s'.withPool q).link p.other then
            ixgbeWfsFsmSetEvent k wfsidAll .clearLocalSF {} (s'.withPool q)
          else (s'.withPool q, false)) := by
    intro s' hpool
    have hrep : IwaRep s' (s'.withPool q) := ⟨q, hpool ▸ hq, rfl⟩
    simp only [hrep.link_eq]
    split
    · exact ixgbeWfsFsmSetEvent_rep k wfsidAll .clearLocalSF {} hrep
    · exact ⟨hrep, rfl⟩
  simp only [ixgbeWatchdogLinkIsUp]
  cases hl : s.linkUp with
  | true =>
    have hl' : (s.withPool q).linkUp = true := hl
    simpa only [hl', Bool.not_true, Bool.false_eq_true, if_false] using hup s rfl
  | false =>
    have hl' : (s.withPool q).linkUp = false := hl
    simp only [hl', Bool.not_false, if_true]
    exact hup { s with linkUp := true, carrier := true } rfl

theorem wfsProcessAnnounce_rep (adapter : Port) (src : WfsId) (opt : WfsoptAnnounce)
    (h : IwaRep s t) :
    Out (wfsProcessAnnounce k adapter src opt s) (wfsProcessAnnounce k adapter src opt t) := by
  simp only [wfsProcessAnnounce, h.core_eq]
  have hset := h.setPeer src { s.core.peer src with mac := opt.mac, ip := opt.ip }
  split
  · exact ixgbeWfsFsmSetEvent_rep _ _ _ _ hset
  · split
    · exact ixgbeWfsFsmSetEvent_rep _ _ _ _ hset
    · exact ⟨hset, rfl⟩

theorem wfsProcessRaps_rep (adapter : Port) (src : WfsId) (opt : WfsoptRaps) (h : IwaRep s t) :
    Out (wfsProcessRaps k adapter src opt s) (wfsProcessRaps k adapter src opt t) := by
  simp only [wfsProcessRaps, h.core_eq]
  split
  · obtain ⟨hs, hr⟩ := ixgbeWfsFsmSetEvent_rep k src.byte .rapsNR {} h
    exact ⟨hs, by rw [hr]⟩
  · split
    · cases rapsSFData (s.core.peer src) adapter opt with
      | none => exact ⟨h, rfl⟩
      | some evdata =>
        obtain ⟨hs, hr⟩ := ixgbeWfsFsmSetEvent_rep k src.byte .rapsSF evdata h
        exact ⟨hs, by simp only [hr]⟩
    · exact ⟨h, rfl⟩

/-! ## Steps and runs -/

theorem RapsOp.enabled_rep (op : RapsOp) (h : IwaRep s t) : op.enabled s ↔ op.enabled t := by
  cases op <;> simp only [RapsOp.enabled, h.core_eq, h.state_eq, h.rapsTimer_eq]

/-- **Refinement, one step.** An operation on the buffers has the outcome it has on
    the queue. -/
theorem RapsOp.step_rep (op : RapsOp) (h : IwaRep s t) : Outcome (op.step s) (op.step t) := by
  cases op with
  | setEvent k wfsid e evdata =>
    exact Out.noBuffer (ixgbeWfsFsmSetEvent_rep k wfsid e evdata h)
  | updateLink p up =>
    obtain ⟨q, hq, rfl⟩ := h
    exact ⟨⟨q, hq, rfl⟩, rfl⟩
  | linkIsDown k p =>
    exact Out.noBuffer (ixgbeWatchdogLinkIsDown_rep k p h)
  | linkIsUp k p =>
    exact Out.noBuffer (ixgbeWatchdogLinkIsUp_rep k p h)
  | announce k adapter src opt =>
    exact Out.noBuffer (wfsProcessAnnounce_rep k adapter src opt h)
  | raps k adapter src opt =>
    obtain ⟨hs, hr⟩ := wfsProcessRaps_rep k adapter src opt h
    have hout : Out (_, (wfsProcessRaps k adapter src opt s).2.1)
        (_, (wfsProcessRaps k adapter src opt t).2.1) := ⟨hs, congrArg Prod.fst hr⟩
    exact hout.noBuffer
  | fsmEvent view =>
    have hout := rapsFsmEvent_rep view h
    simp only [RapsOp.step]
    cases hs : rapsFsmEvent view s <;> cases ht : rapsFsmEvent view t <;>
      rw [hs, ht] at hout
    · exact hout
    · exact hout.elim
    · exact hout.elim
    · exact ⟨hout.1, by rw [hout.2]⟩
  | timers =>
    simp only [RapsOp.step, h.core_eq]
    exact ⟨h.setCtrl _, rfl⟩
  | peerTtl k =>
    exact Out.noBuffer (rapsPeerTtl_rep k h)
  | misc ip => exact ⟨rapsMisc_rep ip h, rfl⟩
  | openPorts =>
    obtain ⟨q, hq, rfl⟩ := h
    exact ⟨⟨q, hq, rfl⟩, rfl⟩
  | rapsStart k ip =>
    exact Out.noBuffer (ixgbeWfsRapsStart_rep k ip h)
  | rapsStop =>
    obtain ⟨q, hq, rfl⟩ := h
    exact ⟨⟨q, hq, rfl⟩, rfl⟩
  | closePorts =>
    obtain ⟨q, hq, rfl⟩ := h
    exact ⟨⟨q, hq, rfl⟩, rfl⟩

theorem rapsStep_refines {s' : Iwa EvBufPool} {op : RapsOp} (h : IwaRep s t)
    (hs : RapsStep s op s') : ∃ t', RapsStep t op t' ∧ IwaRep s' t' := by
  obtain ⟨hen, eff, hstep⟩ := hs
  have hout := op.step_rep h
  rw [hstep] at hout
  cases ht : op.step t with
  | error f => rw [ht] at hout; exact hout.elim
  | ok r =>
    rw [ht] at hout
    exact ⟨r.1, ⟨(op.enabled_rep h).mp hen, r.2, ht⟩, hout.1⟩

/-- **Refinement.** Every run of a station over its event buffers is a run over the
    queues they thread. -/
theorem raps_refines {s' : Iwa EvBufPool} {ops : List RapsOp} (hrun : Run RapsStep s ops s')
    (h : IwaRep s t) : ∃ t', Run RapsStep t ops t' ∧ IwaRep s' t' :=
  Run.simulate (U := RapsStep) (R := IwaRep)
    (fun _ _ _ _ hst hs => rapsStep_refines hst hs) hrun h

end VmkDrivers.Wfs
