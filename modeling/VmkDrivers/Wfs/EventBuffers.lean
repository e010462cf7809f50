/-
  VmkDrivers.Wfs.EventBuffers

  Conservation of event buffers.

  A buffer that is on neither list is stranded: nothing will ever use it
  again, and after `EVBUF_MAX_NUM` of them no event can be queued.  On the
  queue the buffers implement, stranding is a number (`EvQueue.stranded`)
  that every operation keeps, except that `ixgbe_wfs_raps_start` zeroes
  `raps_ctrl` and thereby adds the events still pending
  (`stranded_of_step`).  So buffers are conserved on exactly the runs that
  restart on empty queues only.
-/

import VmkDrivers.Wfs.PeerState

namespace VmkDrivers.Wfs

open VmkDrivers.Lib

/-! ## Conservation -/

/-- Each buffer on the allocation list is in exactly one of the free list and the pending
    queue, both are well formed, and the count is right. -/
def Conserved (p : EvBufPool) : Prop :=
  ∃ allocs free pend,
    Chain (fun a => (p.mem a).nextEb) p.fsmEvBufs allocs ∧ allocs.Nodup ∧
    p.fsmEvBufCount = allocs.length ∧ p.fsmEvBufCount ≤ evbufMaxNum ∧
    IsQueue (EvBufPool.nextOf p.mem) p.fsmEvBufHead p.fsmEvBufTail free ∧
    IsQueue (EvBufPool.nextOf p.mem) p.fsmEventHead p.fsmEventTail pend ∧
    ∀ a ∈ allocs, (a ∈ free ∧ a ∉ pend) ∨ (a ∉ free ∧ a ∈ pend)

def EvQueue.stranded (q : EvQueue) : Int := q.count - q.free - q.pending.length

variable {p : EvBufPool} {q : EvQueue} {t : Iwa EvQueue} {ops : List RapsOp}

theorem EvBufPool.Layout.conserved_iff {free pend lost : List Nat} (h : Layout p free pend lost) :
    Conserved p ↔ lost = [] := by
  constructor
  · rintro ⟨allocs, free', pend', hallocs, _, _, _, hfree, hpend, hone⟩
    have ha := hallocs.unique h.allocs
    have hf := hfree.chain.unique h.freeQ.chain
    have hp := hpend.chain.unique h.pendQ.chain
    subst ha hf hp
    rw [List.eq_nil_iff_forall_not_mem]
    intro a hlost
    obtain ⟨hnf, hnp⟩ := h.not_queued_of_lost hlost
    have halloc : a ∈ (List.range p.fsmEvBufCount).reverse := by
      simpa using h.lt_count (List.mem_append_right _ hlost)
    rcases hone a halloc with ⟨hin, _⟩ | ⟨_, hin⟩
    · exact hnf hin
    · exact hnp hin
  · rintro rfl
    refine ⟨_, free, pend, h.allocs, ?_, by simp, h.count_le, h.freeQ, h.pendQ, ?_⟩
    · exact List.nodup_reverse.mpr List.nodup_range
    · intro a ha
      have hmem : a ∈ free ++ pend ++ [] := by
        refine h.perm.mem_iff.mpr ?_
        simpa using ha
      rw [List.append_nil, List.mem_append] at hmem
      rcases hmem with hf | hp
      · exact .inl ⟨hf, fun hp => h.not_free_of_pend hp hf⟩
      · exact .inr ⟨h.not_free_of_pend hp, hp⟩

theorem PoolRep.stranded_nonneg (h : PoolRep p q) : 0 ≤ q.stranded := by
  obtain ⟨free, pend, lost, hl, rfl⟩ := h
  have := hl.length_eq
  simp only [EvQueue.stranded, List.length_map]
  omega

theorem PoolRep.conserved_iff (h : PoolRep p q) : Conserved p ↔ q.stranded = 0 := by
  obtain ⟨free, pend, lost, hl, rfl⟩ := h
  have hlen := hl.length_eq
  rw [hl.conserved_iff, ← List.length_eq_zero_iff]
  simp only [EvQueue.stranded, List.length_map]
  omega

/-! ## Steps -/

theorem EvQueue.Appended.stranded_eq {q' : EvQueue} {evs : List EventRec} (h : q.Appended evs q') :
    q'.stranded = q.stranded := by
  have := h.balance
  simp only [EvQueue.stranded]
  omega

theorem stranded_of_fsmEvent {view : Nat → Port → Bool} {s : Iwa EvQueue} {fib : List FibCall}
    (h : rapsFsmEvent view s = .ok (t, fib)) : t.pool.stranded = s.pool.stranded := by
  unfold rapsFsmEvent at h
  split at h
  · rw [wfsFsmRun_eq] at h
    cases hrun : s.pool.pending.foldlM (runBody view) { core := s.core } with
    | error f => simp [hrun, Except.map] at h
    | ok r =>
      simp only [hrun, Except.map, Except.ok.injEq, Prod.mk.injEq] at h
      rw [← h.1]
      simp only [EvQueue.stranded, List.length_nil]
      omega
  · simp only [Except.ok.injEq, Prod.mk.injEq] at h
    rw [h.1]

theorem stranded_of_aged {k : Kmalloc} {ids : List WfsId} {s : Iwa EvQueue} (h : Aged k ids s t) :
    t.pool.stranded = s.pool.stranded := by
  rw [h.pool]
  split
  · obtain ⟨evs, happ, _⟩ := requestExpire_appended k (s.core.expiring ids) s.pool
    exact happ.stranded_eq
  · rfl

theorem stranded_of_peerTtl (k : Kmalloc) (s : Iwa EvQueue) :
    (rapsPeerTtl k s).1.pool.stranded = s.pool.stranded := by
  unfold rapsPeerTtl
  split
  · obtain ⟨t, ha, heq⟩ := wfsUpdatePeers_spec k s
    have hstr := stranded_of_aged ha
    rw [heq]
    split <;> exact hstr
  · rfl

theorem stranded_of_rapsStart (k : Kmalloc) (ip : UInt32) (s : Iwa EvQueue) :
    (ixgbeWfsRapsStart k ip s).1.pool.stranded = s.pool.stranded + s.pool.pending.length := by
  obtain ⟨evs, pool, heq, happ, _⟩ := ixgbeWfsRapsStart_spec k ip s
  rw [heq]
  refine happ.stranded_eq.trans ?_
  simp only [EvQueue.stranded, List.length_nil]
  omega

def RapsOp.strands (s : Iwa EvQueue) : RapsOp → Nat
  | .rapsStart _ _ => s.pool.pending.length
  | _ => 0

/-- **One step.** Buffers are stranded by a restart only, and then all pending ones. -/
theorem stranded_of_step {s : Iwa EvQueue} {op : RapsOp} (h : RapsStep s op t) :
    t.pool.stranded = s.pool.stranded + op.strands s := by
  obtain ⟨_, eff, hstep⟩ := h
  cases hq : op.quiet with
  | true =>
    obtain ⟨evs, happ, _⟩ := (RapsOp.step_quiet hq hstep).queued
    rw [happ.stranded_eq]
    cases op <;> simp [RapsOp.quiet] at hq <;> simp [RapsOp.strands]
  | false =>
    cases op with
    | fsmEvent view =>
      simp only [RapsOp.step] at hstep
      cases hrun : rapsFsmEvent view s with
      | error f => simp [hrun, bind, Except.bind] at hstep
      | ok r =>
        obtain ⟨u, fib⟩ := r
        simp only [hrun, bind, Except.bind, pure, Except.pure, Except.ok.injEq,
          Prod.mk.injEq] at hstep
        rw [← hstep.1, stranded_of_fsmEvent hrun]
        simp [RapsOp.strands]
    | peerTtl k =>
      simp only [RapsOp.step, Except.ok.injEq, Prod.mk.injEq] at hstep
      rw [← hstep.1, stranded_of_peerTtl]
      simp [RapsOp.strands]
    | rapsStart k ip =>
      simp only [RapsOp.step, Except.ok.injEq, Prod.mk.injEq] at hstep
      rw [← hstep.1]
      exact stranded_of_rapsStart k ip s
    | setEvent | updateLink | linkIsDown | linkIsUp | announce | raps | timers | misc
    | openPorts | rapsStop | closePorts => simp [RapsOp.quiet] at hq

/-! ## Runs -/

/-- A restart meets an empty queue. -/
def StartsEmpty (s : Iwa EvBufPool) : RapsOp → Prop
  | .rapsStart _ _ => pendingEvents s.pool = []
  | _ => True

instance (s : Iwa EvBufPool) : (op : RapsOp) → Decidable (StartsEmpty s op)
  | .rapsStart _ _ => inferInstanceAs (Decidable (_ = _))
  | .setEvent .. | .updateLink .. | .linkIsDown .. | .linkIsUp .. | .announce .. | .raps ..
  | .fsmEvent _ | .timers | .peerTtl _ | .misc _ | .openPorts | .rapsStop | .closePorts =>
    inferInstanceAs (Decidable True)

theorem strands_eq_zero_iff {s : Iwa EvBufPool} (h : IwaRep s t) (op : RapsOp) :
    op.strands t = 0 ↔ StartsEmpty s op := by
  cases op <;> simp [RapsOp.strands, StartsEmpty, h.pendingEvents_eq]

theorem conserved_of_run {s s' : Iwa EvBufPool} (hrun : Run RapsStep s ops s') (h : IwaRep s t) :
    Conserved s'.pool ↔
      t.pool.stranded = 0 ∧ Run (Guarded RapsStep StartsEmpty) s ops s' := by
  induction hrun generalizing t with
  | nil s =>
    rw [h.pool_rep.conserved_iff]
    exact ⟨fun hz => ⟨hz, .nil s⟩, fun hz => hz.1⟩
  | @cons s u s' op ops hstep hrest ih =>
    obtain ⟨t', hstep', hrep'⟩ := rapsStep_refines h hstep
    have hstr := stranded_of_step hstep'
    have hnonneg := h.pool_rep.stranded_nonneg
    have hguard := strands_eq_zero_iff h op
    rw [ih hrep']
    constructor
    · rintro ⟨hz, hg⟩
      exact ⟨by omega, .cons ⟨hguard.mp (by omega), hstep⟩ hg⟩
    · rintro ⟨hz, hg⟩
      cases hg with
      | cons hgstep hgrest =>
        have hu := hgstep.2.unique hstep
        subst hu
        have hd := hguard.mpr hgstep.1
        exact ⟨by omega, hgrest⟩

/-- **Conservation of event buffers.** After a run that begins with `ixgbe_wfs_fsm_init`,
    every allocated buffer is free or pending if and only if the allocations of
    `ixgbe_wfs_fsm_init` succeeded altogether or failed at once, and every
    `ixgbe_wfs_raps_start` of the run found the queue empty. -/
theorem event_buffers_conserved_iff {kmalloc : Nat → Bool} {wfsId : WfsId} {macAddr : Mac}
    {wfsPort : Port → Int} {ops : List RapsOp} {s : Iwa EvBufPool}
    (hrun : Run RapsStep (.probed wfsId macAddr wfsPort (EvBufPool.ixgbeWfsFsmInit kmalloc).1)
      ops s) :
    Conserved s.pool ↔
      ((∀ i, i < evbufMinNum → kmalloc i = true) ∨ kmalloc 0 = false) ∧
      Run (Guarded RapsStep StartsEmpty)
        (.probed wfsId macAddr wfsPort (EvBufPool.ixgbeWfsFsmInit kmalloc).1) ops s := by
  obtain ⟨q, hq, hpend, hle, hiff⟩ := PoolRep.ixgbeWfsFsmInit kmalloc
  rw [conserved_of_run hrun (iwaRep_probed hq), ← hiff]
  have hstr : q.stranded = 0 ↔ q.free = q.count := by
    simp only [EvQueue.stranded, hpend, List.length_nil]
    omega
  exact and_congr_left fun _ => hstr

theorem guardedRun_iff_exec {s t : Iwa EvBufPool} :
    Run.exec (fun s op => if StartsEmpty s op then RapsOp.next? s op else none) s ops = some t ↔
      Run (Guarded RapsStep StartsEmpty) s ops t :=
  Run.exec_eq_some_iff (guarded_eq_some_iff RapsOp.next?_eq_some_iff)

theorem event_buffers_conserved_discoverRun :
    ∃ s, Run RapsStep stationOne discoverRun s ∧ Conserved s.pool := by
  have hdone : (Run.exec (fun s op => if StartsEmpty s op then RapsOp.next? s op else none)
      stationOne discoverRun).isSome = true := by decide +kernel
  obtain ⟨s, hs⟩ := Option.isSome_iff_exists.mp hdone
  have hguarded := guardedRun_iff_exec.mp hs
  have hrun := hguarded.mono fun _ _ _ h => h.2
  exact ⟨s, hrun, (event_buffers_conserved_iff hrun).mpr ⟨.inl fun _ _ => rfl, hguarded⟩⟩

def restartRun : List RapsOp :=
  [.openPorts, .rapsStart (fun _ => true) 0, .rapsStop, .closePorts, .openPorts,
    .rapsStart (fun _ => true) 0]

/-- The buffer of the discover event the first session left pending is lost. -/
theorem event_buffers_lost_by_restart :
    ∃ s, Run RapsStep stationOne restartRun s ∧ ¬Conserved s.pool := by
  have hdone : (Run.exec (fun s op => RapsOp.next? s op) stationOne restartRun).isSome = true := by
    decide +kernel
  have hno : Run.exec (fun s op => if StartsEmpty s op then RapsOp.next? s op else none)
      stationOne restartRun = none := Option.isNone_iff_eq_none.mp (by decide +kernel)
  obtain ⟨s, hs⟩ := Option.isSome_iff_exists.mp hdone
  have hrun : Run RapsStep stationOne restartRun s := rapsRun_iff_exec.mp hs
  obtain ⟨q, hq, _⟩ := PoolRep.ixgbeWfsFsmInit fun _ => true
  refine ⟨s, hrun, ?_⟩
  rw [conserved_of_run hrun (iwaRep_probed hq)]
  rintro ⟨_, hg⟩
  rw [guardedRun_iff_exec.mpr hg] at hno
  exact absurd hno (by simp)

end VmkDrivers.Wfs
