/-
  VmkDrivers.Vmklinux.RcuBarrier

  `rcu_barrier`, which is `vmklnx_synchronize_rcu`: whether the callbacks linked
  before it have run to their end when it returns.

  The functions are called outside of the lock, and the tasklet and the timer
  may both be in `vmklnx_rcu_callback`.  The barrier holds where no function is
  under way while a barrier's head is taken (`rcu_barrier_waits`), and is passed
  too early where one is (`rcu_barrier_early`).
-/

import VmkDrivers.Vmklinux.RcuGrace

namespace VmkDrivers.Vmklinux

open VmkDrivers.Lib

def RcuWorld.busy : RcuWorld → Bool
  | .invoke .. | .running .. => true
  | _ => false

/-- The loop of `vmklnx_rcu_callback` goes on. -/
def RcuLabel.walks : RcuLabel → Bool
  | .move (.walk _) _ => true
  | _ => false

/-- The first head is one of `vmklnx_synchronize_rcu`, and old enough to be taken. -/
def RcuData.barrierFirst (r : RcuData) : Bool :=
  r.nxtlist.any fun h => r.sync h && r.agedEnough h

/-- While the head of a `vmklnx_synchronize_rcu` is taken, no function is under way. -/
def BarrierAlone (s : RcuState) (e : RcuLabel) : Prop :=
  match s with
  | .ok w => e.walks = true → w.shared.barrierFirst = true → ∀ p ∈ w.active, p.busy = false
  | .error _ => True

instance (s : RcuState) (e : RcuLabel) : Decidable (BarrierAlone s e) :=
  match s with
  | .ok w => inferInstanceAs (Decidable (e.walks = true → w.shared.barrierFirst = true →
      ∀ p ∈ w.active, p.busy = false))
  | .error _ => .isTrue trivial

def RcuData.AllBefore (r : RcuData) (t : Nat) : Prop := ∀ k < t, k ∈ r.returned

open RcuWorld

structure BarrierInv (r : RcuData) (ws : Multiset RcuWorld) : Prop where
  invoking : ∀ ctx h, RcuWorld.invoke ctx h ∈ ws → r.sync h = true → r.AllBefore (r.ticket h)
  running : ∀ ctx t, running ctx t true ∈ ws → r.AllBefore t
  completion : ∀ t, r.completion t = true → r.AllBefore t
  synced : ∀ t ∈ r.synced, r.AllBefore t

section Barrier

variable {r r' : RcuData} {l l' : List Nat} {ws rest : Multiset RcuWorld} {ps : List RcuWorld}
  {e : RcuLabel} {h t : Nat} {c : RcuCall} {ctx : RcuContext}

theorem RcuHolds.owned_of_invoke (hr : RcuHolds r l ws) (hmem : RcuWorld.invoke ctx h ∈ ws) :
    h ∈ total invoking ws ∧ r.owned h = true := by
  have hinvoking : h ∈ total invoking ws := mem_total.mpr ⟨_, hmem, Multiset.mem_singleton_self h⟩
  refine ⟨hinvoking, hr.owned h ?_⟩
  simp only [Multiset.mem_add]
  exact .inl (.inr hinvoking)

theorem BarrierInv.congr {ws' : Multiset RcuWorld} (hb : BarrierInv r ws)
    (hinvoke : ∀ ctx h, RcuWorld.invoke ctx h ∈ ws' → RcuWorld.invoke ctx h ∈ ws ∧
      r'.sync h = r.sync h ∧ r'.ticket h = r.ticket h)
    (hrunning : ∀ ctx t, RcuWorld.running ctx t true ∈ ws' → RcuWorld.running ctx t true ∈ ws)
    (hreturned : r'.returned = r.returned) (hcompletion : r'.completion = r.completion)
    (hsynced : r'.synced = r.synced) : BarrierInv r' ws' := by
  have hbefore : ∀ t, r'.AllBefore t ↔ r.AllBefore t := fun t => by
    rw [RcuData.AllBefore, RcuData.AllBefore, hreturned]
  refine ⟨fun ctx h hmem hsync => ?_, fun ctx t hmem => ?_, fun t ht => ?_, fun t ht => ?_⟩
  · obtain ⟨hmem, hsync', hticket⟩ := hinvoke ctx h hmem
    rw [hbefore, hticket]
    exact hb.invoking ctx h hmem (hsync' ▸ hsync)
  · exact (hbefore t).mpr (hb.running ctx t (hrunning ctx t hmem))
  · rw [hcompletion] at ht
    exact (hbefore t).mpr (hb.completion t ht)
  · rw [hsynced] at ht
    exact (hbefore t).mpr (hb.synced t ht)

theorem BarrierInv.idle (hb : BarrierInv r (e.taken + rest)) (hps : ∀ p ∈ ps, p.busy = false)
    (hreturned : r'.returned = r.returned) (hcompletion : r'.completion = r.completion)
    (hsynced : r'.synced = r.synced) (hsync : r'.sync = r.sync) (hticket : r'.ticket = r.ticket) :
    BarrierInv r' (ps + rest) := by
  have hrest : ∀ p ∈ (ps : Multiset RcuWorld) + rest, p.busy = true → p ∈ rest := by
    intro p hp hbusy
    rcases Multiset.mem_add.mp hp with hp | hp
    · rw [hps p hp] at hbusy
      cases hbusy
    · exact hp
  refine hb.congr (fun ctx h hmem => ⟨?_, ?_, ?_⟩) (fun ctx t hmem => ?_) hreturned hcompletion
    hsynced
  · exact Multiset.mem_add.mpr (.inr (hrest _ hmem rfl))
  · rw [hsync]
  · rw [hticket]
  · exact Multiset.mem_add.mpr (.inr (hrest _ hmem rfl))

theorem RcuHolds.allBefore (hr : RcuHolds r (h :: l) ws) (hidle : ∀ p ∈ ws, p.busy = false) :
    r.AllBefore (r.ticket h) := by
  have hinvoking : total invoking ws = 0 := total_eq_zero fun p hp => by
    have hp := hidle p hp
    cases p <;> first | rfl | cases hp
  have hrunning : total inFunction ws = 0 := total_eq_zero fun p hp => by
    have hp := hidle p hp
    cases p <;> first | rfl | cases hp
  have hticket : r.ticket h = r.tickets - (h :: l).length := by
    have htickets := hr.tickets
    rw [List.map_cons, List.length_cons, List.range'_succ] at htickets
    exact (List.cons.inj htickets).1
  intro k hk
  have hcalled := hr.called
  have hfinished := hr.finished
  rw [hinvoking, Multiset.map_zero, add_zero] at hcalled
  rw [hrunning, add_zero, hcalled, ← hticket] at hfinished
  rw [← Multiset.mem_coe, hfinished, Multiset.mem_range]
  exact hk

theorem RcuMoves.barrier (hmoves : RcuMoves r l e r' l' ps)
    (halone : BarrierAlone (.ok ⟨r, e.taken + rest⟩) e) (hr : RcuHolds r l (e.taken + rest))
    (hb : BarrierInv r (e.taken + rest)) : BarrierInv r' (ps + rest) := by
  cases hmoves with
  | readLock => exact hb.idle nofun rfl rfl rfl rfl rfl
  | readUnlock hs hps =>
    refine hb.idle ?_ rfl rfl rfl rfl rfl
    rcases hps with rfl | rfl <;> simp [busy]
  | @call _ _ c howned =>
    refine hb.congr (fun ctx h hmem => ?_) (fun ctx t hmem => ?_) rfl rfl rfl
    · have hmem' : RcuWorld.invoke ctx h ∈ rest := by simpa using hmem
      -- a head that is passed to `call_rcu` is not being invoked
      have hne : h ≠ c.head := fun heq => by
        obtain ⟨-, htrue⟩ := hr.owned_of_invoke (Multiset.mem_add.mpr (.inr hmem'))
        rw [heq, howned] at htrue
        cases htrue
      exact ⟨Multiset.mem_add.mpr (.inr hmem'), Function.update_of_ne hne _ _, rfl⟩
    · exact Multiset.mem_add.mpr (.inr (by simpa using hmem))
  | tasklet => exact hb.idle (by simp [busy]) rfl rfl rfl rfl rfl
  | expire => exact hb.idle (by simp [busy]) rfl rfl rfl rfl rfl
  | @link _ c hlock =>
    refine hb.congr (fun ctx h hmem => ?_) (fun ctx t hmem => ?_) rfl rfl rfl
    · have hmem' : RcuWorld.invoke ctx h ∈ rest := by simpa using hmem
      have hinvoking := (hr.owned_of_invoke (Multiset.mem_add.mpr (.inr hmem'))).1
      -- nor is one that is linked
      have hne : h ≠ c.head := ne_of_mem_of_not_mem hinvoking (hr.fresh hlock).2
      exact ⟨Multiset.mem_add.mpr (.inr hmem'), rfl, Function.update_of_ne hne _ _⟩
    · exact Multiset.mem_add.mpr (.inr (by simpa using hmem))
  | noReader => exact hb.idle nofun rfl rfl rfl rfl rfl
  | readers => exact hb.idle (by simp [busy]) rfl rfl rfl rfl rfl
  | bump hlock hs =>
    refine hb.idle ?_ rfl rfl rfl rfl rfl
    rcases hs with ⟨c, -, rfl⟩ | ⟨-, rfl⟩ | ⟨-, rfl⟩ <;> simp [busy]
  | cleanup => exact hb.idle (by simp [busy]) rfl rfl rfl rfl rfl
  | stamp => exact hb.idle nofun rfl rfl rfl rfl rfl
  | @modTimer _ sync =>
    refine hb.idle ?_ rfl rfl rfl rfl rfl
    cases sync <;> simp [busy]
  | @schedule _ sync =>
    refine hb.idle ?_ rfl rfl rfl rfl rfl
    cases sync <;> simp [busy]
  -- the barrier returns: its own callback was called, and so were those before it
  | await hdone =>
    have hidle : BarrierInv r (([] : List RcuWorld) + rest) := hb.idle nofun rfl rfl rfl rfl rfl
    refine ⟨hidle.invoking, hidle.running, hidle.completion, fun t ht => ?_⟩
    rcases List.mem_append.mp ht with ht | ht
    · exact hb.synced t ht
    · obtain rfl := List.mem_singleton.mp ht
      exact hb.completion t hdone
  | checkLen hps =>
    refine hb.idle ?_ rfl rfl rfl rfl rfl
    rcases hps with rfl | rfl <;> simp [busy]
  | relock => exact hb.idle nofun rfl rfl rfl rfl rfl
  | unlocked => exact hb.idle nofun rfl rfl rfl rfl rfl
  | handler => exact hb.idle nofun rfl rfl rfl rfl rfl
  | again => exact hb.idle (by simp [busy]) rfl rfl rfl rfl rfl
  | rearm => exact hb.idle nofun rfl rfl rfl rfl rfl
  | @take l ctx h hlock haged =>
    have hfirst : r.nxtlist = some h := hr.queue.head_eq
    have hidle : BarrierInv r (([] : List RcuWorld) + rest) := hb.idle nofun rfl rfl rfl rfl rfl
    rw [Multiset.coe_nil, zero_add] at hidle
    refine ⟨fun ctx' k hmem hsync => ?_, fun ctx' t hmem => ?_, hidle.completion, hidle.synced⟩
    · rw [Multiset.coe_singleton, Multiset.singleton_add, Multiset.mem_cons] at hmem
      rcases hmem with heq | hmem
      · obtain ⟨-, rfl⟩ := RcuWorld.invoke.inj heq
        -- the callback of a barrier is taken, and all before it have returned
        have hbarrier : r.barrierFirst = true := by
          rw [RcuData.barrierFirst, hfirst, Option.any_some, Bool.and_eq_true]
          exact ⟨hsync, haged⟩
        exact hr.allBefore (halone rfl hbarrier)
      · exact hidle.invoking ctx' k hmem hsync
    · rw [Multiset.coe_singleton, Multiset.singleton_add, Multiset.mem_cons] at hmem
      exact hidle.running ctx' t (hmem.resolve_left nofun)
  | @leave _ ctx =>
    refine hb.idle ?_ ?_ ?_ ?_ ?_ ?_ <;> cases ctx <;> first | rfl | simp [RcuData.leave, busy]
  | @invoke _ ctx h =>
    have hold : ∀ p ∈ rest, p ∈ (RcuLabel.taken (.move (.invoke ctx h) ()) + rest :
      Multiset RcuWorld) := fun p hp => Multiset.mem_add.mpr (.inr hp)
    have htaken : RcuWorld.invoke ctx h ∈ (RcuLabel.taken (.move (.invoke ctx h) ()) + rest :
      Multiset RcuWorld) := Multiset.mem_add.mpr (.inl (by simp [RcuLabel.taken]))
    refine ⟨fun ctx' k hmem hsync => ?_, fun ctx' t hmem => ?_, hb.completion, hb.synced⟩
    · rw [Multiset.coe_singleton, Multiset.singleton_add, Multiset.mem_cons] at hmem
      exact hb.invoking ctx' k (hold _ (hmem.resolve_left fun heq => by cases heq)) hsync
    · rw [Multiset.coe_singleton, Multiset.singleton_add, Multiset.mem_cons] at hmem
      rcases hmem with heq | hmem
      · obtain ⟨-, rfl, hsync⟩ := running.inj heq
        exact hb.invoking ctx h htaken hsync.symm
      · exact hb.running ctx' t (hold _ hmem)
  | @ret _ ctx t sync =>
    have hidle : BarrierInv r ([walk ctx] + rest) := hb.idle (by simp [busy]) rfl rfl rfl rfl rfl
    -- what has returned grows, and nothing else changes
    have hbefore : ∀ k, r.AllBefore k → ∀ j < k, j ∈ r.returned ++ [t] := fun k hk j hj =>
      List.mem_append_left [t] (hk j hj)
    refine ⟨fun ctx' k hmem hsync => hbefore _ (hidle.invoking ctx' k hmem hsync),
      fun ctx' k hmem => hbefore _ (hidle.running ctx' k hmem), fun k hk => hbefore _ ?_,
      fun k hk => hbefore _ (hidle.synced k hk)⟩
    by_cases hnew : sync = true ∧ k = t
    · obtain ⟨rfl, rfl⟩ := hnew
      exact hb.running ctx k (Multiset.mem_add.mpr (.inl (by simp [RcuLabel.taken])))
    · refine hb.completion k ?_
      cases sync with
      | false => exact hk
      | true =>
        have hne : k ≠ t := fun heq => hnew ⟨rfl, heq⟩
        have hsame : Function.update r.completion t true k = r.completion k :=
          Function.update_of_ne hne _ _
        exact hsame ▸ hk
  | age => exact hb.idle (by simp [busy]) rfl rfl rfl rfl rfl
  | nonempty => exact hb.idle (by simp [busy]) rfl rfl rfl rfl rfl
  | empty => exact hb.idle (by simp [busy]) rfl rfl rfl rfl rfl
  | kill => exact hb.idle (by simp [busy]) rfl rfl rfl rfl rfl
  | delTimer => exact hb.idle nofun rfl rfl rfl rfl rfl

theorem barrierInv_init : BarrierInv {} 0 :=
  ⟨by simp, by simp, nofun, nofun⟩

/-- **Barrier**: where no function is under way while the head of a barrier is taken, the functions
    of the callbacks linked before it have returned when it returns. -/
theorem rcu_barrier_waits {s : RcuState} {es : List RcuLabel}
    (hrun : Run (Guarded RcuStep BarrierAlone) .init es s) :
    ∃ w, s = .ok w ∧ ∀ t ∈ w.shared.synced, ∀ k < t, k ∈ w.shared.returned := by
  obtain ⟨w, l, rfl, -, hb⟩ := rcu_keeps (J := fun r _ ws => BarrierInv r ws)
    (fun _ _ _ _ _ _ _ _ hr hb hguard hws hmoves _ => by
      subst hws
      exact hmoves.barrier hguard hr hb) barrierInv_init hrun
  exact ⟨w, rfl, hb.synced⟩

end Barrier

/-- A callback is linked while a section is open, which arms the timer; a barrier schedules the
    tasklet, which is in the function of the callback when the timer takes the barrier's head. -/
def earlyRun : List RcuLabel :=
  [.begin .readLock, .begin (.callRcu 5), .move (.callRcu ⟨5, false⟩) (), .begin .goOn,
    .begin .goOn, .move (.schedule true none) (), .begin (.readUnlock 0),
    .begin (.synchronizeRcu 6), .move (.callRcu ⟨6, true⟩) (), .begin .goOn, .begin .goOn,
    .begin .goOn, .move (.schedule false (some 1)) (), .begin .tasklet,
    .move (.walk .tasklet) (), .move (.invoke .tasklet 5) (), .begin .delayTimer,
    .move .delayTimer (), .begin .goOn, .move (.walk .timer) (), .move (.invoke .timer 6) (),
    .move (.running .timer 1 true) (), .move (.await 1) ()]

theorem rcu_barrier_early : ∃ w, Run RcuStep .init earlyRun (.ok w) ∧ 1 ∈ w.shared.synced ∧
    w.shared.returned = [1] ∧ running .tasklet 0 false ∈ w.active := by
  have hexec : ∃ w, Run.exec rcuProgram.next? RcuState.init earlyRun = some (.ok w) ∧
      w.shared.synced = [1] ∧ w.shared.returned = [1] ∧
      running .tasklet 0 false ∈ w.active := ⟨_, rfl, rfl, rfl, by decide⟩
  obtain ⟨w, hw, hsynced, hreturned, hactive⟩ := hexec
  refine ⟨w, Run.of_exec (fun _ _ _ h => h) hw, ?_, hreturned, hactive⟩
  rw [hsynced]
  exact List.mem_singleton_self 1

def waitedRun : List RcuLabel :=
  [.begin (.callRcu 5), .move (.callRcu ⟨5, false⟩) (), .begin .goOn, .begin .goOn, .begin .goOn,
    .move (.schedule false none) (), .begin (.synchronizeRcu 6), .move (.callRcu ⟨6, true⟩) (),
    .begin .goOn, .begin .goOn, .begin .goOn, .move (.schedule false (some 1)) (),
    .begin .tasklet, .move (.walk .tasklet) (), .move (.invoke .tasklet 5) (),
    .move (.running .tasklet 0 false) (), .move (.walk .tasklet) (), .move (.invoke .tasklet 6) (),
    .move (.running .tasklet 1 true) (), .move (.await 1) ()]

theorem rcu_barrier_waits_waited : ∃ s, Run (Guarded RcuStep BarrierAlone) .init waitedRun s ∧
    ∃ w, s = .ok w ∧ w.shared.synced = [1] ∧ ∀ t ∈ w.shared.synced, ∀ k < t,
      k ∈ w.shared.returned := by
  have hexec : ∃ w, Run.exec (fun s e => if BarrierAlone s e then rcuProgram.next? s e else none)
      RcuState.init waitedRun = some (.ok w) ∧ w.shared.synced = [1] := ⟨_, rfl, rfl⟩
  obtain ⟨w, hw, hsynced⟩ := hexec
  have hsound : ∀ s e t, (if BarrierAlone s e then rcuProgram.next? s e else none) = some t →
      Guarded RcuStep BarrierAlone s e t := fun s e t h =>
    (guarded_eq_some_iff (T := RcuStep) (fun _ _ _ => Iff.rfl) s e t).mp h
  have hrun : Run (Guarded RcuStep BarrierAlone) .init waitedRun (.ok w) := Run.of_exec hsound hw
  obtain ⟨w', hw', hwaits⟩ := rcu_barrier_waits hrun
  cases hw'
  exact ⟨_, hrun, w, rfl, hsynced, hwaits⟩

end VmkDrivers.Vmklinux
