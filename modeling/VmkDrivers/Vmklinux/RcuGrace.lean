/-
  VmkDrivers.Vmklinux.RcuGrace

  The grace period: a callback is called, and `vmklnx_synchronize_rcu` returns,
  only when the read-side critical sections that were open when it was linked
  have ended (`rcu_grace_period`).

  What carries it is that the generation is incremented only under the lock,
  with nobody reading, so that a callback of an older generation than the
  present one has no reader left.
-/

import VmkDrivers.Vmklinux.RcuList

namespace VmkDrivers.Vmklinux

open VmkDrivers.Lib RcuWorld

/-- The sections that were open when the callback was linked have ended. -/
def RcuData.Quiet (r : RcuData) (t : Nat) : Prop := Disjoint (r.openAt t) r.sections

def RcuSection.NoReader : RcuSection → Prop
  | .bump _ | .unlock | .timer => True
  | _ => False

structure GraceInv (r : RcuData) (l : List Nat) (ws : Multiset RcuWorld) : Prop where
  alive : RcuWorld.cleanup ∉ ws
  level : r.nestingLevel = r.sections.card
  sections : ∀ s ∈ r.sections, s < r.opened
  openAt : ∀ t, ∀ s ∈ r.openAt t, s < r.opened
  stamped : ∀ c, r.lock = some (.stamped c) → r.stamp c.head = r.generation
  aged : ∀ h ∈ l, r.stamp h < r.generation → r.Quiet (r.ticket h)
  noReader : ∀ s, r.lock = some s → s.NoReader → ∀ h ∈ l, r.Quiet (r.ticket h)
  invoking : ∀ h ∈ total invoking ws, r.Quiet (r.ticket h)
  started : ∀ t ∈ r.started, r.Quiet t
  completion : ∀ t, r.completion t = true → t ∈ r.started
  synced : ∀ t ∈ r.synced, t ∈ r.started

section Tickets

variable {r : RcuData} {l : List Nat} {ws : Multiset RcuWorld} {h t : Nat} {c : RcuCall}

theorem RcuHolds.ticket_lt (hr : RcuHolds r l ws) (hmem : h ∈ l) : r.ticket h < r.tickets := by
  have hle := hr.le_tickets
  have hticket : r.ticket h ∈ l.map r.ticket := List.mem_map_of_mem hmem
  rw [hr.tickets, List.mem_range'_1] at hticket
  omega

theorem RcuHolds.started_lt (hr : RcuHolds r l ws) (hmem : t ∈ r.started) :
    t < r.tickets - l.length := by
  rw [← Multiset.mem_range, ← hr.called]
  exact Multiset.mem_add.mpr (.inl hmem)

theorem RcuHolds.invoking_lt (hr : RcuHolds r l ws) (hmem : h ∈ total invoking ws) :
    r.ticket h < r.tickets - l.length := by
  rw [← Multiset.mem_range, ← hr.called]
  exact Multiset.mem_add.mpr (.inr (Multiset.mem_map_of_mem _ hmem))

theorem RcuHolds.fresh (hr : RcuHolds r l ws) (hlock : r.lock = some (.stamped c)) :
    c.head ∉ l ∧ c.head ∉ total invoking ws := by
  have hnodup := hr.nodup
  rw [hlock, add_assoc, add_assoc] at hnodup
  have hdisj := Multiset.disjoint_of_nodup_add (Multiset.nodup_add.mp hnodup).2.1
  have hhead : c.head ∉ total invoking ws + (l : Multiset Nat) :=
    Multiset.disjoint_left.mp hdisj (Multiset.mem_singleton_self c.head)
  rw [Multiset.mem_add, not_or] at hhead
  exact ⟨hhead.2, hhead.1⟩

theorem RcuHolds.calling_fresh (hr : RcuHolds r l ws) (hmem : h ∈ total calling ws) : h ∉ l := by
  have hdisj := Multiset.disjoint_of_nodup_add hr.nodup
  refine Multiset.disjoint_left.mp hdisj ?_
  simp only [Multiset.mem_add]
  exact .inl (.inl hmem)

theorem RcuData.lt_of_agedEnough (hle : r.stamp h ≤ r.generation)
    (haged : r.agedEnough h = true) : r.stamp h < r.generation := by
  refine lt_of_le_of_ne hle fun heq => ?_
  rw [RcuData.agedEnough, heq, rcuBatchBefore, BitVec.sub_self] at haged
  exact absurd haged (by decide)

end Tickets

section Grace

variable {r r' : RcuData} {l l' : List Nat} {ws : Multiset RcuWorld} {rest : Multiset RcuWorld}
  {ps : List RcuWorld} {e : RcuLabel} {h t : Nat} {c : RcuCall}

theorem GraceInv.quiet (hg : GraceInv r l ws) (hlevel : r.nestingLevel = 0) (t : Nat) :
    r.Quiet t := by
  have hcard := hg.level
  rw [hlevel] at hcard
  have hempty : r.sections = ∅ := Finset.card_eq_zero.mp (Int.ofNat.inj hcard).symm
  rw [RcuData.Quiet, hempty]
  exact Finset.disjoint_empty_right _

theorem GraceInv.readLock (hg : GraceInv r l ws) :
    GraceInv { r with
      nestingLevel := r.nestingLevel + 1
      sections := insert r.opened r.sections
      opened := r.opened + 1 } l ws := by
  have hnew : r.opened ∉ r.sections := fun hmem => absurd (hg.sections _ hmem) (lt_irrefl _)
  have hquiet : ∀ t, r.Quiet t → Disjoint (r.openAt t) (insert r.opened r.sections) := by
    intro t ht
    rw [Finset.disjoint_insert_right]
    exact ⟨fun hmem => absurd (hg.openAt t _ hmem) (lt_irrefl _), ht⟩
  refine ⟨hg.alive, ?_, fun s hs => ?_, fun t s hs => ?_, hg.stamped, fun h hh hlt => ?_,
    fun s hs hno h hh => ?_, fun h hh => ?_, fun t ht => ?_, hg.completion, hg.synced⟩
  · rw [Finset.card_insert_of_notMem hnew, hg.level]
    rfl
  · rcases Finset.mem_insert.mp hs with rfl | hs
    · exact Nat.lt_succ_self _
    · exact Nat.lt_succ_of_lt (hg.sections s hs)
  · exact Nat.lt_succ_of_lt (hg.openAt t s hs)
  · exact hquiet _ (hg.aged h hh hlt)
  · exact hquiet _ (hg.noReader s hs hno h hh)
  · exact hquiet _ (hg.invoking h hh)
  · exact hquiet _ (hg.started t ht)

theorem GraceInv.readUnlock (hg : GraceInv r l ws) {s : Nat} (hs : s ∈ r.sections) :
    GraceInv { r with
      nestingLevel := r.nestingLevel - 1
      sections := r.sections.erase s } l ws := by
  have hquiet : ∀ t, r.Quiet t → Disjoint (r.openAt t) (r.sections.erase s) := fun t ht =>
    ht.mono_right (Finset.erase_subset s r.sections)
  refine ⟨hg.alive, ?_, fun s' hs' => hg.sections s' (Finset.mem_of_mem_erase hs'), hg.openAt,
    hg.stamped, fun h hh hlt => hquiet _ (hg.aged h hh hlt),
    fun s hs hno h hh => hquiet _ (hg.noReader s hs hno h hh),
    fun h hh => hquiet _ (hg.invoking h hh), fun t ht => hquiet _ (hg.started t ht),
    hg.completion, hg.synced⟩
  have hpos : 0 < r.sections.card := Finset.card_pos.mpr ⟨s, hs⟩
  dsimp only
  rw [Finset.card_erase_of_mem hs, hg.level]
  omega

theorem GraceInv.link (hr : RcuHolds r l ws) (hg : GraceInv r l ws)
    (hlock : r.lock = some (.stamped c)) :
    GraceInv { r.link c with lock := some (.linked c) } (l ++ [c.head]) ws := by
  obtain ⟨hl, hinvoking⟩ := hr.fresh hlock
  have hold : ∀ t, t ≠ r.tickets → r.Quiet t → (r.link c).Quiet t := by
    intro t ht hquiet
    have hopen : (r.link c).openAt t = r.openAt t := Function.update_of_ne ht _ _
    rw [RcuData.Quiet, hopen]
    exact hquiet
  have hticket : ∀ k, k ≠ c.head → (r.link c).ticket k = r.ticket k := fun k hk =>
    Function.update_of_ne hk _ _
  refine ⟨hg.alive, hg.level, hg.sections, fun t s hs => ?_, nofun, fun h hh hlt => ?_,
    fun s hs hno => ?_, fun h hh => ?_, fun t ht => ?_, hg.completion, hg.synced⟩
  · by_cases ht : t = r.tickets
    · have hopen : (r.link c).openAt t = r.sections := by
        rw [ht]
        exact Function.update_self ..
      exact hg.sections s (hopen ▸ hs)
    · have hopen : (r.link c).openAt t = r.openAt t := Function.update_of_ne ht _ _
      exact hg.openAt t s (hopen ▸ hs)
  · rcases List.mem_append.mp hh with hh | hh
    · have hlt' := hr.ticket_lt hh
      show (r.link c).Quiet ((r.link c).ticket h)
      rw [hticket h (ne_of_mem_of_not_mem hh hl)]
      exact hold _ (by omega) (hg.aged h hh hlt)
    · -- the head itself is of the present generation
      obtain rfl := List.mem_singleton.mp hh
      exact absurd (hg.stamped c hlock) (Nat.ne_of_lt hlt)
  · cases hs
    exact hno.elim
  · have hlt := hr.invoking_lt hh
    show (r.link c).Quiet ((r.link c).ticket h)
    rw [hticket h (ne_of_mem_of_not_mem hh hinvoking)]
    exact hold _ (by omega) (hg.invoking h hh)
  · have hlt := hr.started_lt ht
    exact hold t (by omega) (hg.started t ht)

theorem GraceInv.relock (hg : GraceInv r l ws) (lock : Option RcuSection)
    (hstamped : ∀ c, lock ≠ some (.stamped c))
    (hlevel : (∃ s, lock = some s ∧ s.NoReader) → r.nestingLevel = 0) :
    GraceInv { r with lock } l ws :=
  ⟨hg.alive, hg.level, hg.sections, hg.openAt, fun c hc => absurd hc (hstamped c), hg.aged,
    fun s hs hno h _ => hg.quiet (hlevel ⟨s, hs, hno⟩) (r.ticket h), hg.invoking, hg.started,
    hg.completion, hg.synced⟩

theorem GraceInv.bump (hg : GraceInv r l ws) {s : RcuSection} (hlock : r.lock = some s)
    (hno : s.NoReader) : GraceInv r.bump l ws :=
  ⟨hg.alive, hg.level, hg.sections, hg.openAt, nofun, fun h hh _ => hg.noReader s hlock hno h hh,
    nofun, hg.invoking, hg.started, hg.completion, hg.synced⟩

theorem GraceInv.stamp (hg : GraceInv r l ws) (hl : c.head ∉ l) :
    GraceInv { r with
      stamp := Function.update r.stamp c.head r.generation
      lock := some (.stamped c) } l ws := by
  refine ⟨hg.alive, hg.level, hg.sections, hg.openAt, fun d hd => ?_, fun h hh hlt => ?_,
    fun s hs hno => ?_, hg.invoking, hg.started, hg.completion, hg.synced⟩
  · obtain rfl : c = d := RcuSection.stamped.inj (Option.some.inj hd)
    exact Function.update_self ..
  · have hsame : Function.update r.stamp c.head r.generation h = r.stamp h :=
      Function.update_of_ne (ne_of_mem_of_not_mem hh hl) _ _
    dsimp only at hlt
    rw [hsame] at hlt
    exact hg.aged h hh hlt
  · cases hs
    exact hno.elim

theorem GraceInv.take (hg : GraceInv r (h :: l) ws) (hle : r.stamp h ≤ r.generation)
    (haged : r.agedEnough h = true) (ctx : RcuContext) :
    GraceInv (r.unlinkFirst h) l (RcuWorld.invoke ctx h ::ₘ ws) := by
  refine ⟨?_, hg.level, hg.sections, hg.openAt, hg.stamped,
    fun k hk => hg.aged k (List.mem_cons_of_mem h hk),
    fun s hs hno k hk => hg.noReader s hs hno k (List.mem_cons_of_mem h hk), fun k hk => ?_,
    hg.started, hg.completion, hg.synced⟩
  · rw [Multiset.mem_cons, not_or]
    exact ⟨nofun, hg.alive⟩
  · rw [total_cons, RcuWorld.invoking, Multiset.singleton_add, Multiset.mem_cons] at hk
    rcases hk with rfl | hk
    · exact hg.aged k List.mem_cons_self (RcuData.lt_of_agedEnough hle haged)
    · exact hg.invoking k hk

theorem GraceInv.invoke (hg : GraceInv r l ws) (hquiet : r.Quiet (r.ticket h)) :
    GraceInv { r with
      owned := Function.update r.owned h false
      started := r.started ++ [r.ticket h] } l ws := by
  refine ⟨hg.alive, hg.level, hg.sections, hg.openAt, hg.stamped, hg.aged, hg.noReader,
    hg.invoking, fun t ht => ?_, fun t ht => ?_, fun t ht => ?_⟩
  · rcases List.mem_append.mp ht with ht | ht
    · exact hg.started t ht
    · obtain rfl := List.mem_singleton.mp ht
      exact hquiet
  · exact List.mem_append_left _ (hg.completion t ht)
  · exact List.mem_append_left _ (hg.synced t ht)

theorem GraceInv.ret (hg : GraceInv r l ws) (sync : Bool) (ht : t ∈ r.started) :
    GraceInv { r with
      completion := if sync then Function.update r.completion t true else r.completion
      returned := r.returned ++ [t] } l ws := by
  refine ⟨hg.alive, hg.level, hg.sections, hg.openAt, hg.stamped, hg.aged, hg.noReader,
    hg.invoking, hg.started, fun k hk => ?_, hg.synced⟩
  by_cases hkt : k = t
  · rw [hkt]
    exact ht
  · refine hg.completion k ?_
    cases sync with
    | false => exact hk
    | true =>
      have hsame : Function.update r.completion t true k = r.completion k :=
        Function.update_of_ne hkt _ _
      rw [← hsame]
      exact hk

theorem GraceInv.await (hg : GraceInv r l ws) (hdone : r.completion t = true) :
    GraceInv { r with synced := r.synced ++ [t] } l ws := by
  refine ⟨hg.alive, hg.level, hg.sections, hg.openAt, hg.stamped, hg.aged, hg.noReader,
    hg.invoking, hg.started, hg.completion, fun k hk => ?_⟩
  rcases List.mem_append.mp hk with hk | hk
  · exact hg.synced k hk
  · obtain rfl := List.mem_singleton.mp hk
    exact hg.completion k hdone

theorem GraceInv.congr (hg : GraceInv r l ws) (hlevel : r'.nestingLevel = r.nestingLevel)
    (hsections : r'.sections = r.sections) (hopened : r'.opened = r.opened)
    (hopenAt : r'.openAt = r.openAt) (hlock : r'.lock = r.lock) (hstamp : r'.stamp = r.stamp)
    (hgeneration : r'.generation = r.generation) (hticket : r'.ticket = r.ticket)
    (hstarted : r'.started = r.started) (hcompletion : r'.completion = r.completion)
    (hsynced : r'.synced = r.synced) : GraceInv r' l ws := by
  have hquiet : ∀ t, r'.Quiet t ↔ r.Quiet t := fun t => by
    rw [RcuData.Quiet, RcuData.Quiet, hopenAt, hsections]
  refine ⟨hg.alive, ?_, ?_, ?_, ?_, ?_, ?_, ?_, ?_, ?_, ?_⟩
  · rw [hlevel, hsections]
    exact hg.level
  · rw [hsections, hopened]
    exact hg.sections
  · rw [hopenAt, hopened]
    exact hg.openAt
  · rw [hlock, hstamp, hgeneration]
    exact hg.stamped
  · simp only [hquiet, hstamp, hgeneration, hticket]
    exact hg.aged
  · simp only [hquiet, hlock, hticket]
    exact hg.noReader
  · simp only [hquiet, hticket]
    exact hg.invoking
  · simp only [hquiet, hstarted]
    exact hg.started
  · rw [hcompletion, hstarted]
    exact hg.completion
  · rw [hsynced, hstarted]
    exact hg.synced

theorem GraceInv.worlds {ws' : Multiset RcuWorld} (hg : GraceInv r l ws)
    (halive : RcuWorld.cleanup ∉ ws')
    (hinvoking : total RcuWorld.invoking ws' ≤ total RcuWorld.invoking ws) : GraceInv r l ws' :=
  ⟨halive, hg.level, hg.sections, hg.openAt, hg.stamped, hg.aged, hg.noReader,
    fun h hh => hg.invoking h (Multiset.mem_of_le hinvoking hh), hg.started, hg.completion,
    hg.synced⟩

theorem GraceInv.left (hg : GraceInv r l (e.taken + rest))
    (hps : ∀ p ∈ ps, p ≠ RcuWorld.cleanup ∧ p.invoking = 0) : GraceInv r l (ps + rest) := by
  refine hg.worlds (fun hmem => ?_) ?_
  · rcases Multiset.mem_add.mp hmem with hmem | hmem
    · exact (hps _ hmem).1 rfl
    · exact hg.alive (Multiset.mem_add.mpr (.inr hmem))
  · rw [total_add, total_add, total_eq_zero fun p hp => (hps p hp).2, zero_add]
    exact Multiset.le_add_left _ _

theorem await_idle (sync : Option Nat) :
    ∀ p ∈ sync.toList.map RcuWorld.await, p ≠ RcuWorld.cleanup ∧ p.invoking = 0 := by
  cases sync with
  | none => nofun
  | some t => simp [invoking]

theorem RcuMoves.grace (hmoves : RcuMoves r l e r' l' ps) (he : e ≠ .begin .cleanup)
    (hr : RcuHolds r l (e.taken + rest)) (hg : GraceInv r l (e.taken + rest)) :
    GraceInv r' l' (ps + rest) := by
  have hleft : ∀ ps : List RcuWorld, (∀ p ∈ ps, p ≠ RcuWorld.cleanup ∧ p.invoking = 0) →
      GraceInv r l (ps + rest) := fun ps hps => hg.left hps
  have hidle := hleft [] nofun
  -- what a world leaves behind invokes nothing, except behind `take` and `invoke`
  cases hmoves with
  | readLock => exact hidle.readLock
  | readUnlock hs hps =>
    refine GraceInv.readUnlock (hleft _ ?_) hs
    rcases hps with rfl | rfl <;> simp [invoking]
  | @call _ _ c =>
    exact (hleft [.callRcu c] (by simp [invoking])).congr rfl rfl rfl rfl rfl rfl rfl rfl
      rfl rfl rfl
  | tasklet =>
    exact (hleft [.walk .tasklet] (by simp [invoking])).congr rfl rfl rfl rfl rfl rfl
      rfl rfl rfl rfl rfl
  | expire =>
    exact (hleft [.delayTimer] (by simp [invoking])).congr rfl rfl rfl rfl rfl rfl rfl
      rfl rfl rfl rfl
  | link hlock =>
    rw [RcuLabel.taken, Multiset.coe_nil, zero_add] at hr hg
    rw [Multiset.coe_nil, zero_add]
    exact hg.link hr hlock
  | noReader hlock hlevel =>
    exact hidle.relock _ (by simp) fun _ => hlevel
  | @readers _ c hlock hlevel =>
    refine (hleft [.schedule true (r.waiter c)] (by simp [invoking])).relock _ (by simp) ?_
    rintro ⟨s, hs, -⟩
    cases hs
  | @bump _ s _ hlock hs =>
    refine GraceInv.bump (hleft _ ?_) hlock ?_
    · rcases hs with ⟨c, -, rfl⟩ | ⟨-, rfl⟩ | ⟨-, rfl⟩ <;> simp [invoking]
    · rcases hs with ⟨c, rfl, -⟩ | ⟨rfl, -⟩ | ⟨rfl, -⟩ <;> trivial
  | cleanup => exact absurd rfl he
  | @stamp _ c hlock =>
    refine GraceInv.stamp hidle (hr.calling_fresh ?_)
    simp [RcuLabel.taken, calling]
  | @modTimer _ sync =>
    exact (hleft _ (await_idle sync)).congr rfl rfl rfl rfl rfl rfl rfl rfl rfl rfl rfl
  | @schedule _ sync =>
    exact (hleft _ (await_idle sync)).congr rfl rfl rfl rfl rfl rfl rfl rfl rfl rfl rfl
  | await hdone => exact GraceInv.await hidle hdone
  | checkLen hps =>
    refine hleft _ ?_
    rcases hps with rfl | rfl <;> simp [invoking]
  | relock hlock hlevel => exact hidle.relock _ (by simp) fun _ => hlevel
  | unlocked => exact hidle
  | handler hlock hlevel => exact hidle.relock _ (by simp) fun _ => hlevel
  | again => exact hleft [.rearm] (by simp [invoking])
  | rearm => exact hidle.congr rfl rfl rfl rfl rfl rfl rfl rfl rfl rfl rfl
  | @take _ ctx h hlock haged =>
    have hrest := hidle
    rw [Multiset.coe_nil, zero_add] at hrest
    rw [Multiset.coe_singleton, Multiset.singleton_add]
    exact hrest.take (hr.stamps h List.mem_cons_self) haged ctx
  | @leave _ ctx =>
    have hidle : ∀ p ∈ (r.leave ctx).2, p ≠ RcuWorld.cleanup ∧ p.invoking = 0 := by
      cases ctx <;> simp [RcuData.leave, invoking]
    refine (hleft _ hidle).congr ?_ ?_ ?_ ?_ ?_ ?_ ?_ ?_ ?_ ?_ ?_ <;> cases ctx <;> rfl
  | @invoke _ ctx h =>
    -- the head that is invoked was taken, and its grace period is over
    have hmem : h ∈ total invoking
        (RcuLabel.taken (.move (.invoke ctx h) ()) + rest : Multiset RcuWorld) := by
      simp [RcuLabel.taken, invoking]
    exact (hleft [.running ctx (r.ticket h) (r.sync h)] (by simp [invoking])).invoke
      (hg.invoking h hmem)
  | @ret _ ctx t sync =>
    have hstarted : t ∈ r.started := by
      have hmem : t ∈ (r.started : Multiset Nat) := by
        rw [← hr.finished]
        simp [RcuLabel.taken, inFunction]
      exact hmem
    exact (hleft [.walk ctx] (by simp [invoking])).ret sync hstarted
  -- there is no cleanup in such a run
  | age => exact absurd (Multiset.mem_add.mpr (.inl (by simp [RcuLabel.taken]))) hg.alive
  | nonempty => exact hleft [.walk .cleanup] (by simp [invoking])
  | empty => exact hleft [.kill] (by simp [invoking])
  | kill => exact hleft [.delTimer] (by simp [invoking])
  | delTimer => exact hidle.congr rfl rfl rfl rfl rfl rfl rfl rfl rfl rfl rfl

theorem graceInv_init : GraceInv {} [] 0 :=
  ⟨by simp, rfl, nofun, nofun, nofun, nofun, nofun, nofun, nofun, nofun, nofun⟩

/-- The sections that were open when a callback was linked have ended when its function has been
    called, or the `vmklnx_synchronize_rcu` that waits for it has returned. -/
structure Grace (r : RcuData) : Prop where
  started : ∀ t ∈ r.started, ∀ s ∈ r.openAt t, s ∉ r.sections
  synced : ∀ t ∈ r.synced, ∀ s ∈ r.openAt t, s ∉ r.sections

theorem GraceInv.grace (hg : GraceInv r l ws) : Grace r where
  started t ht _ hs := Finset.disjoint_left.mp (hg.started t ht) hs
  synced t ht _ hs := Finset.disjoint_left.mp (hg.started t (hg.synced t ht)) hs

/-- **Grace period.** -/
theorem rcu_grace_period {s : RcuState} {es : List RcuLabel}
    (hrun : Run (Guarded RcuStep fun _ e => e ≠ .begin .cleanup) .init es s) :
    ∃ w, s = .ok w ∧ Grace w.shared := by
  obtain ⟨w, l, rfl, -, hg⟩ := rcu_keeps (J := GraceInv)
    (fun _ _ _ _ _ _ _ _ hr hg hguard hws hmoves _ => by
      subst hws
      exact hmoves.grace hguard hr hg) graceInv_init hrun
  exact ⟨w, rfl, hg.grace⟩

end Grace

/-- A callback is linked while a section is open, and called when the section has ended and the
    timer has expired. -/
def gracePeriodRun : List RcuLabel :=
  [.begin .readLock, .begin (.callRcu 5), .move (.callRcu ⟨5, false⟩) (), .begin .goOn,
    .begin .goOn, .move (.schedule true none) (), .begin (.readUnlock 0), .begin .delayTimer,
    .move .delayTimer (), .begin .goOn, .move (.walk .timer) (), .move (.invoke .timer 5) ()]

theorem rcu_grace_period_called : ∃ s,
    Run (Guarded RcuStep fun _ e => e ≠ .begin .cleanup) .init gracePeriodRun s ∧
      ∃ w, s = .ok w ∧ w.shared.started = [0] ∧ w.shared.openAt 0 = {0} ∧ Grace w.shared := by
  have hexec : ∃ w, Run.exec rcuProgram.next? RcuState.init gracePeriodRun = some (.ok w) ∧
      w.shared.started = [0] ∧ w.shared.openAt 0 = {0} := ⟨_, rfl, rfl, rfl⟩
  obtain ⟨w, hw, hstarted, hopen⟩ := hexec
  have hrun : Run RcuStep .init gracePeriodRun (.ok w) := Run.of_exec (fun _ _ _ h => h) hw
  have hguarded : Run (Guarded RcuStep fun _ e => e ≠ .begin .cleanup) .init gracePeriodRun
      (.ok w) := hrun.guarded (by decide)
  obtain ⟨w', hw', hgrace⟩ := rcu_grace_period hguarded
  cases hw'
  exact ⟨_, hguarded, w, rfl, hstarted, hopen, hgrace⟩

end VmkDrivers.Vmklinux
