/-
  VmkDrivers.Vmklinux.RcuCover

  No callback is forgotten: while the list is not empty somebody will come to it
  (`rcu_covered`).

  A callback of the present generation waits for the timer, or for one who is
  about to set it; one of an older generation may also wait for a world that is
  to walk the list.  A world leaves the list only at a callback that it takes
  for too young, and those behind are no older.
-/

import VmkDrivers.Vmklinux.RcuGrace

namespace VmkDrivers.Vmklinux

open VmkDrivers.Lib

/-! ## Who is responsible -/

def RcuWorld.runs (ctx : RcuContext) : RcuWorld → Bool
  | .walk ctx' | .invoke ctx' _ | .running ctx' .. => ctx' = ctx
  | .delayTimer | .rearm => ctx = .timer
  | _ => false

def RcuWorld.schedules : RcuWorld → Bool
  | .schedule .. => true
  | _ => false

def RcuSection.schedules : RcuSection → Bool
  | .linked _ | .bump _ => true
  | _ => false

inductive Responsible (w : Pool RcuData RcuWorld) : Prop
  | scheduled (h : w.shared.scheduled = true)
  | tasklet {p} (hp : p ∈ w.active) (h : p.runs .tasklet = true)
  | pending (h : w.shared.delayTimer = true)
  | handler {p} (hp : p ∈ w.active) (h : p.runs .timer = true)
  | bumping (h : w.shared.lock = some .timer)
  | linking {s} (hs : w.shared.lock = some s) (h : s.schedules = true)
  | scheduling {p} (hp : p ∈ w.active) (h : p.schedules = true)

/-- The world is in `vmklnx_call_rcu`. -/
def RcuWorld.calls : RcuWorld → Bool
  | .callRcu _ | .schedule .. => true
  | _ => false

def RcuSection.calls : RcuSection → Bool
  | .stamped _ | .linked _ | .bump _ => true
  | _ => false

/-- The event is a call of `vmklnx_call_rcu`. -/
def RcuLabel.calls : RcuLabel → Bool
  | .begin (.callRcu _) | .begin (.synchronizeRcu _) => true
  | _ => false

/-- The loop of `vmklnx_rcu_callback` goes on. -/
def RcuLabel.looks : RcuLabel → Bool
  | .move (.walk _) _ => true
  | _ => false

def RcuData.Near (r : RcuData) (head : Nat) : Prop := r.generation ≤ r.stamp head + 2 ^ 63

instance (r : RcuData) (head : Nat) : Decidable (r.Near head) := Nat.decLe _ _

/-- The first callback is at most 2^63 generations old when it is looked at, and
    `vmklnx_rcu_cleanup` is called with no concurrent caller. -/
structure RcuCareful (s : RcuState) (e : RcuLabel) : Prop where
  young : ∀ w h, s = .ok w → e.looks = true → w.shared.nxtlist = some h → w.shared.Near h
  quiet : ∀ w, s = .ok w → e = .begin .cleanup → (∀ p ∈ w.active, p.calls = false) ∧
    ∀ q ∈ w.shared.lock, q.calls = false
  alone : ∀ w, s = .ok w → w.shared.dying = true → e.calls = false

theorem rcuCareful_ok {w : Pool RcuData RcuWorld} {e : RcuLabel} : RcuCareful (.ok w) e ↔
    (e.looks = true → ∀ h ∈ w.shared.nxtlist, w.shared.Near h) ∧
      (e = .begin .cleanup → (∀ p ∈ w.active, p.calls = false) ∧
        ∀ q ∈ w.shared.lock, q.calls = false) ∧
      (w.shared.dying = true → e.calls = false) := by
  constructor
  · intro h
    exact ⟨fun he k hk => h.young w k rfl he (Option.mem_def.mp hk), h.quiet w rfl, h.alone w rfl⟩
  · rintro ⟨hyoung, hquiet, halone⟩
    refine ⟨fun v h hv he hh => ?_, fun v hv he => ?_, fun v hv hd => ?_⟩
    · cases hv
      exact hyoung he h hh
    · cases hv
      exact hquiet he
    · cases hv
      exact halone hd

instance (s : RcuState) (e : RcuLabel) : Decidable (RcuCareful s e) :=
  match s with
  | .ok _ => decidable_of_iff' _ rcuCareful_ok
  | .error _ => .isTrue ⟨fun _ _ hw => (by cases hw), fun _ hw => (by cases hw),
      fun _ hw => (by cases hw)⟩

/-! ## The invariant -/

def RcuWorld.rearms : RcuWorld → Bool
  | .schedule true _ | .delayTimer | .rearm => true
  | _ => false

def RcuWorld.visits : RcuWorld → Bool
  | .schedule false _ => true
  | .walk ctx | .invoke ctx _ | .running ctx .. => ctx ≠ .cleanup
  | _ => false

def RcuSection.rearms : RcuSection → Bool
  | .linked _ | .bump _ | .timer => true
  | _ => false

inductive Timed (r : RcuData) (ws : Multiset RcuWorld) : Prop
  | pending (h : r.delayTimer = true)
  | world {p} (hp : p ∈ ws) (h : p.rearms = true)
  | lock {s} (hs : r.lock = some s) (h : s.rearms = true)

inductive Visited (r : RcuData) (ws : Multiset RcuWorld) : Prop
  | scheduled (h : r.scheduled = true)
  | world {p} (hp : p ∈ ws) (h : p.visits = true)

/-- The world is in `vmklnx_rcu_cleanup`, behind the increment. -/
def RcuWorld.cleansUp : RcuWorld → Bool
  | .cleanupLen => true
  | .walk ctx | .invoke ctx _ | .running ctx .. => ctx = .cleanup
  | _ => false

/-- The world is in `vmklnx_rcu_cleanup`, behind the list. -/
def RcuWorld.kills : RcuWorld → Bool
  | .kill | .delTimer => true
  | _ => false

/-- The world is in `vmklnx_rcu_cleanup`. -/
def RcuWorld.dies : RcuWorld → Bool
  | .cleanup => true
  | p => p.cleansUp || p.kills

theorem RcuWorld.not_dies {p : RcuWorld} (h : p.dies = false) :
    p.cleansUp = false ∧ p.kills = false := by
  cases p <;> first | exact ⟨rfl, rfl⟩ | exact Bool.or_eq_false_iff.mp h

structure CleanupInv (r : RcuData) (l : List Nat) (ws : Multiset RcuWorld) : Prop where
  dying : ∀ p ∈ ws, p.dies = true → r.dying = true
  worlds : r.dying = true → ∀ p ∈ ws, p.calls = false
  lock : r.dying = true → ∀ s ∈ r.lock, s.calls = false
  old : ∀ p ∈ ws, p.cleansUp = true → ∀ h ∈ l, r.stamp h < r.generation
  empty : ∀ p ∈ ws, p.kills = true → l = []
  cleaned : r.cleaned = true → r.dying = true ∧ l = []

structure CoverInv (r : RcuData) (l : List Nat) (ws : Multiset RcuWorld) : Prop where
  young : ∀ h ∈ l, r.stamp h = r.generation → Timed r ws
  old : ∀ h ∈ l, r.stamp h < r.generation → Timed r ws ∨ Visited r ws

open RcuLabel RcuWorld

section Cover

variable {r r' : RcuData} {l l' : List Nat} {ws ws' rest : Multiset RcuWorld} {ps : List RcuWorld}
  {e : RcuLabel} {h : Nat} {c : RcuCall} {ctx : RcuContext} {p : RcuWorld}

theorem RcuLabel.forall_taken {P : RcuWorld → Prop} {u : Unit} (hp : P p) :
    ∀ q ∈ taken (.move p u), P q := by
  rintro q hq
  obtain rfl := List.mem_singleton.mp hq
  exact hp

theorem Timed.step (ht : Timed r (e.taken + rest))
    (hpending : r.delayTimer = true → r'.delayTimer = true)
    (hlock : ∀ s ∈ r.lock, s.rearms = true → ∃ s' ∈ r'.lock, s'.rearms = true)
    (htaken : ∀ p ∈ e.taken, p.rearms = false) : Timed r' (ps + rest) := by
  cases ht with
  | pending h => exact .pending (hpending h)
  | @world p hp h =>
    rcases Multiset.mem_add.mp hp with hp | hp
    · rw [htaken p hp] at h
      cases h
    · exact .world (Multiset.mem_add.mpr (.inr hp)) h
  | @lock s hs h =>
    obtain ⟨s', hs', h'⟩ := hlock s hs h
    exact .lock hs' h'

theorem Visited.step (hv : Visited r (e.taken + rest))
    (hscheduled : r.scheduled = true → r'.scheduled = true)
    (htaken : ∀ p ∈ e.taken, p.visits = true → ∃ q ∈ ps, q.visits = true) :
    Visited r' (ps + rest) := by
  cases hv with
  | scheduled h => exact .scheduled (hscheduled h)
  | @world p hp h =>
    rcases Multiset.mem_add.mp hp with hp | hp
    · obtain ⟨q, hq, hvisits⟩ := htaken p hp h
      exact .world (Multiset.mem_add.mpr (.inl hq)) hvisits
    · exact .world (Multiset.mem_add.mpr (.inr hp)) h

theorem Timed.left (hp : p ∈ ps) (h : p.rearms = true) : Timed r (ps + rest) :=
  .world (Multiset.mem_add.mpr (.inl hp)) h

theorem Visited.left (hp : p ∈ ps) (h : p.visits = true) : Visited r (ps + rest) :=
  .world (Multiset.mem_add.mpr (.inl hp)) h

theorem CoverInv.timed (ht : Timed r ws) : CoverInv r l ws :=
  ⟨fun _ _ _ => ht, fun _ _ _ => .inl ht⟩

theorem CoverInv.congr (hc : CoverInv r l ws) (hl : ∀ h ∈ l', h ∈ l)
    (hstamp : ∀ h ∈ l', r'.stamp h = r.stamp h) (hgeneration : r'.generation = r.generation)
    (ht : Timed r ws → Timed r' ws') (hv : Visited r ws → Timed r' ws' ∨ Visited r' ws') :
    CoverInv r' l' ws' := by
  refine ⟨fun h hh heq => ?_, fun h hh hlt => ?_⟩
  · rw [hstamp h hh, hgeneration] at heq
    exact ht (hc.young h (hl h hh) heq)
  · rw [hstamp h hh, hgeneration] at hlt
    rcases hc.old h (hl h hh) hlt with htimed | hvisited
    · exact .inl (ht htimed)
    · exact hv hvisited

theorem CoverInv.idle (hc : CoverInv r l (e.taken + rest)) (hstamp : r'.stamp = r.stamp)
    (hgeneration : r'.generation = r.generation) (hpending : r'.delayTimer = r.delayTimer)
    (hscheduled : r'.scheduled = r.scheduled) (hlock : r'.lock = r.lock)
    (hrearms : ∀ p ∈ e.taken, p.rearms = false)
    (hvisits : ∀ p ∈ e.taken, p.visits = true → ∃ q ∈ ps, q.visits = true) :
    CoverInv r' l (ps + rest) := by
  refine hc.congr (fun _ hh => hh) (fun h _ => by rw [hstamp]) hgeneration
    (fun ht => ht.step (fun h => by rw [hpending, h])
      (fun s hs h => ⟨s, by rw [hlock]; exact hs, h⟩) hrearms)
    fun hv => .inr (hv.step (fun h => by rw [hscheduled, h]) hvisits)

theorem rcuBatchBefore_of_near {a b : Nat} (hlt : a < b) (hnear : b ≤ a + 2 ^ 63) :
    rcuBatchBefore (BitVec.ofNat 64 a) (BitVec.ofNat 64 b) = true := by
  have hmsb : (BitVec.ofNat 64 a - BitVec.ofNat 64 b).msb = true := by
    rw [BitVec.msb_eq_decide, decide_eq_true_iff, BitVec.toNat_sub, BitVec.toNat_ofNat,
      BitVec.toNat_ofNat]
    omega
  rw [rcuBatchBefore, ← hmsb]
  exact BitVec.slt_zero_eq_msb

theorem eq_generation_of_young (hr : RcuHolds r l ws) (hnear : ∀ h, r.nxtlist = some h → r.Near h)
    (hyoung : ∀ h ∈ l.head?, r.agedEnough h = false) (hh : h ∈ l) : r.stamp h = r.generation := by
  cases l with
  | nil => cases hh
  | cons k l =>
    have hle := hr.stamps k List.mem_cons_self
    have hk : r.stamp k = r.generation := by
      by_contra hne
      have hold : r.agedEnough k = true :=
        rcuBatchBefore_of_near (lt_of_le_of_ne hle hne) (hnear k hr.queue.head_eq)
      rw [hyoung k rfl] at hold
      cases hold
    refine le_antisymm (hr.stamps h hh) ?_
    rcases List.mem_cons.mp hh with rfl | hh
    · exact hk.ge
    · rw [← hk]
      exact (List.pairwise_cons.mp hr.sorted).1 h hh

theorem CoverInv.older (hc : CoverInv r l ws) (hr : RcuHolds r l ws) (hstamp : r'.stamp = r.stamp)
    (hgeneration : r'.generation = r.generation + 1) (ht : Timed r ws → Timed r' ws')
    (hv : Visited r ws → Timed r' ws' ∨ Visited r' ws') : CoverInv r' l ws' := by
  refine ⟨fun h hh heq => ?_, fun h hh _ => ?_⟩
  · have hle := hr.stamps h hh
    rw [hstamp, hgeneration] at heq
    omega
  · rcases Nat.lt_or_eq_of_le (hr.stamps h hh) with hlt | heq
    · rcases hc.old h hh hlt with htimed | hvisited
      · exact .inl (ht htimed)
      · exact hv hvisited
    · exact .inl (ht (hc.young h hh heq))

theorem RcuMoves.cover (hmoves : RcuMoves r l e r' l' ps)
    (hnear : e.looks = true → ∀ h, r.nxtlist = some h → r.Near h)
    (hr : RcuHolds r l (e.taken + rest)) (hd : CleanupInv r l (e.taken + rest))
    (hc : CoverInv r l (e.taken + rest)) : CoverInv r' l' (ps + rest) := by
  have hsame : ∀ s ∈ r.lock, s.rearms = true → ∃ s' ∈ r.lock, s'.rearms = true :=
    fun s hs h => ⟨s, hs, h⟩
  have hfree : ∀ lock : Option RcuSection, r.lock = none → ∀ s ∈ r.lock, s.rearms = true →
      ∃ s' ∈ lock, s'.rearms = true := fun lock hlock s hs => by
    rw [hlock] at hs
    cases hs
  cases hmoves with
  | readLock => exact hc.idle rfl rfl rfl rfl rfl nofun nofun
  | readUnlock => exact hc.idle rfl rfl rfl rfl rfl nofun nofun
  | call => exact hc.idle rfl rfl rfl rfl rfl nofun nofun
  | tasklet =>
    exact hc.congr (fun _ hh => hh) (fun _ _ => rfl) rfl (fun ht => ht.step id hsame nofun)
      fun _ => .inr (.left (List.mem_singleton_self _) rfl)
  | expire => exact .timed (.left (List.mem_singleton_self _) rfl)
  | link => exact .timed (.lock rfl rfl)
  | noReader => exact .timed (.lock rfl rfl)
  | readers => exact .timed (.left (List.mem_singleton_self _) rfl)
  | @bump _ s ps hlock hs =>
    -- the timer is not waited for any more: the callbacks are old
    have hnone : ∀ h ∈ l, r.stamp h ≠ r.generation + 1 := fun h hh => by
      have hle := hr.stamps h hh
      omega
    rcases hs with ⟨c, -, rfl⟩ | ⟨rfl, rfl⟩ | ⟨-, rfl⟩
    · exact ⟨fun h hh heq => absurd heq (hnone h hh),
        fun _ _ _ => .inr (.left (List.mem_singleton_self _) rfl)⟩
    · have hnot : ∀ s ∈ r.lock, s.rearms = true → ∃ s' ∈ (none : Option RcuSection),
          s'.rearms = true := fun s hs h => by
        obtain rfl := Option.some.inj (hlock.symm.trans hs)
        cases h
      exact hc.older hr rfl rfl (fun ht => ht.step id hnot nofun)
        fun hv => .inr (hv.step id nofun)
    · exact ⟨fun h hh heq => absurd heq (hnone h hh),
        fun _ _ _ => .inr (.left (List.mem_singleton_self _) rfl)⟩
  | cleanup => exact hc.idle rfl rfl rfl rfl rfl nofun nofun
  | @stamp _ c hlock =>
    have hfresh : c.head ∉ l := hr.calling_fresh
      (mem_total.mpr ⟨.callRcu c, Multiset.mem_add.mpr (.inl (List.mem_singleton_self _)),
        Multiset.mem_singleton_self _⟩)
    exact hc.congr (fun _ hh => hh)
      (fun h hh => Function.update_of_ne (ne_of_mem_of_not_mem hh hfresh) _ _) rfl
      (fun ht => ht.step id (hfree _ hlock) (forall_taken rfl))
      fun hv => .inr (hv.step id (forall_taken nofun))
  | modTimer => exact .timed (.pending rfl)
  | schedule =>
    exact hc.congr (fun _ hh => hh) (fun _ _ => rfl) rfl
      (fun ht => ht.step id hsame (forall_taken rfl)) fun _ => .inr (.scheduled rfl)
  | await =>
    exact hc.idle rfl rfl rfl rfl rfl (forall_taken rfl) (forall_taken nofun)
  | checkLen =>
    exact hc.idle rfl rfl rfl rfl rfl (forall_taken rfl) (forall_taken nofun)
  | relock hlock _ =>
    exact hc.congr (fun _ hh => hh) (fun _ _ => rfl) rfl
      (fun ht => ht.step id (hfree _ hlock) (forall_taken rfl))
      fun hv => .inr (hv.step id (forall_taken nofun))
  | unlocked =>
    exact hc.idle rfl rfl rfl rfl rfl (forall_taken rfl) (forall_taken nofun)
  | handler => exact .timed (.lock rfl rfl)
  | again => exact .timed (.left (List.mem_singleton_self _) rfl)
  | rearm => exact .timed (.pending rfl)
  | @take l ctx h _ _ =>
    have hvisits : (RcuWorld.walk ctx).visits = true → ∃ q ∈ [RcuWorld.invoke ctx h],
        q.visits = true := fun hv => ⟨_, List.mem_singleton_self _, hv⟩
    exact hc.congr (fun _ hh => List.mem_cons_of_mem h hh) (fun _ _ => rfl) rfl
      (fun ht => ht.step id hsame (forall_taken rfl))
      fun hv => .inr (hv.step id (forall_taken hvisits))
  | @leave _ ctx hage =>
    -- those that stay are of the present generation, for which the timer is on its way
    have hgeneration : ∀ h ∈ l, r.stamp h = r.generation := fun h hh =>
      eq_generation_of_young hr (hnear rfl) hage hh
    have htimed : ∀ h ∈ l, Timed (r.leave ctx).1 ((r.leave ctx).2 + rest) := fun h hh => by
      refine (hc.young h hh (hgeneration h hh)).step ?_ ?_ (forall_taken rfl)
      · cases ctx <;> exact id
      · cases ctx <;> exact hsame
    exact ⟨fun h hh _ => htimed h hh, fun h hh _ => .inl (htimed h hh)⟩
  | @invoke _ ctx h =>
    have hvisits : (RcuWorld.invoke ctx h).visits = true →
        ∃ q ∈ [RcuWorld.running ctx (r.ticket h) (r.sync h)], q.visits = true :=
      fun hv => ⟨_, List.mem_singleton_self _, hv⟩
    exact hc.idle rfl rfl rfl rfl rfl (forall_taken rfl)
      (forall_taken hvisits)
  | @ret _ ctx t sync =>
    have hvisits : (RcuWorld.running ctx t sync).visits = true →
        ∃ q ∈ [RcuWorld.walk ctx], q.visits = true :=
      fun hv => ⟨_, List.mem_singleton_self _, hv⟩
    exact hc.idle rfl rfl rfl rfl rfl (forall_taken rfl)
      (forall_taken hvisits)
  | age =>
    exact hc.older hr rfl rfl (fun ht => ht.step id hsame (forall_taken rfl))
      fun hv => .inr (hv.step id (forall_taken nofun))
  | nonempty =>
    exact hc.idle rfl rfl rfl rfl rfl (forall_taken rfl) (forall_taken nofun)
  | empty =>
    exact hc.idle rfl rfl rfl rfl rfl (forall_taken rfl) (forall_taken nofun)
  | kill =>
    exact hc.idle rfl rfl rfl rfl rfl (forall_taken rfl) (forall_taken nofun)
  | delTimer =>
    -- the timer is deleted when the list is empty
    have hnil : l = [] := hd.empty .delTimer (Multiset.mem_add.mpr (.inl (List.mem_singleton_self _))) rfl
    rw [hnil]
    exact ⟨nofun, nofun⟩

theorem CleanupInv.step (hc : CleanupInv r l (e.taken + rest)) (hdying : r'.dying = r.dying)
    (hcleaned : r'.cleaned = r.cleaned) (hl : ∀ h ∈ l', h ∈ l) (hstamp : r'.stamp = r.stamp)
    (hgeneration : r.generation ≤ r'.generation)
    (hlock : ∀ s ∈ r'.lock, r'.lock = r.lock ∨ s.calls = false)
    (hps : ∀ p ∈ ps, p.calls = false ∧ (p.dies = true → ∃ q ∈ e.taken, q.dies = true) ∧
      (p.cleansUp = true → ∀ h ∈ l', r.stamp h < r'.generation) ∧ (p.kills = true → l' = [])) :
    CleanupInv r' l' (ps + rest) := by
  have hrest : ∀ p ∈ rest, p ∈ (e.taken + rest : Multiset RcuWorld) := fun p hp =>
    Multiset.mem_add.mpr (.inr hp)
  refine ⟨fun p hp hdies => ?_, fun hd p hp => ?_, fun hd s hs => ?_, fun p hp hclean h hh => ?_,
    fun p hp hkills => ?_, fun hdone => ?_⟩
  · rw [hdying]
    rcases Multiset.mem_add.mp hp with hp | hp
    · obtain ⟨q, hq, hq'⟩ := (hps p hp).2.1 hdies
      exact hc.dying q (Multiset.mem_add.mpr (.inl hq)) hq'
    · exact hc.dying p (hrest p hp) hdies
  · rcases Multiset.mem_add.mp hp with hp | hp
    · exact (hps p hp).1
    · exact hc.worlds (hdying ▸ hd) p (hrest p hp)
  · rcases hlock s hs with heq | hcalls
    · exact hc.lock (hdying ▸ hd) s (heq ▸ hs)
    · exact hcalls
  · rw [hstamp]
    rcases Multiset.mem_add.mp hp with hp | hp
    · exact (hps p hp).2.2.1 hclean h hh
    · exact (hc.old p (hrest p hp) hclean h (hl h hh)).trans_le hgeneration
  · rcases Multiset.mem_add.mp hp with hp | hp
    · exact (hps p hp).2.2.2 hkills
    · refine List.eq_nil_iff_forall_not_mem.mpr fun h hh => ?_
      rw [hc.empty p (hrest p hp) hkills] at hl
      exact List.not_mem_nil (hl h hh)
  · obtain ⟨hd, rfl⟩ := hc.cleaned (hcleaned ▸ hdone)
    exact ⟨hdying.trans hd, List.eq_nil_iff_forall_not_mem.mpr fun h hh =>
      List.not_mem_nil (hl h hh)⟩

theorem CleanupInv.idle (hc : CleanupInv r l (e.taken + rest)) (hdying : r'.dying = r.dying)
    (hcleaned : r'.cleaned = r.cleaned) (hstamp : r'.stamp = r.stamp)
    (hgeneration : r.generation ≤ r'.generation)
    (hlock : ∀ s ∈ r'.lock, r'.lock = r.lock ∨ s.calls = false)
    (hps : ∀ p ∈ ps, p.calls = false ∧ p.dies = false) : CleanupInv r' l (ps + rest) := by
  refine hc.step hdying hcleaned (fun _ hh => hh) hstamp hgeneration hlock fun p hp => ?_
  obtain ⟨hcalls, hdies⟩ := hps p hp
  have hnot := not_dies hdies
  refine ⟨hcalls, fun h => ?_, fun h => ?_, fun h => ?_⟩
  · rw [hdies] at h
    cases h
  · rw [hnot.1] at h
    cases h
  · rw [hnot.2] at h
    cases h

theorem CleanupInv.caller (hc : CleanupInv r l (e.taken + rest)) (halive : r.dying = false)
    (hdying : r'.dying = r.dying) (hcleaned : r'.cleaned = r.cleaned)
    (hps : ∀ p ∈ ps, p.dies = false) : CleanupInv r' l' (ps + rest) := by
  have hnone : ∀ p ∈ (ps + rest : Multiset RcuWorld), p.dies = false := fun p hp => by
    rcases Multiset.mem_add.mp hp with hp | hp
    · exact hps p hp
    · refine Bool.eq_false_iff.mpr fun hdies => ?_
      rw [hc.dying p (Multiset.mem_add.mpr (.inr hp)) hdies] at halive
      cases halive
  rw [← hdying] at halive
  refine ⟨fun p hp h => ?_, fun h => ?_, fun h => ?_, fun p hp h => ?_, fun p hp h => ?_,
    fun h => ?_⟩
  · rw [hnone p hp] at h
    cases h
  · rw [halive] at h
    cases h
  · rw [halive] at h
    cases h
  · rw [(not_dies (hnone p hp)).1] at h
    cases h
  · rw [(not_dies (hnone p hp)).2] at h
    cases h
  · rw [hcleaned] at h
    rw [hdying, (hc.cleaned h).1] at halive
    cases halive

theorem RcuMoves.cleanupInv (hmoves : RcuMoves r l e r' l' ps)
    (hnear : e.looks = true → ∀ h, r.nxtlist = some h → r.Near h)
    (hquiet : e = .begin .cleanup → (∀ p ∈ (e.taken + rest : Multiset RcuWorld), p.calls = false) ∧
      ∀ s ∈ r.lock, s.calls = false)
    (halone : r.dying = true → e.calls = false) (hr : RcuHolds r l (e.taken + rest))
    (hd : CleanupInv r l (e.taken + rest)) : CleanupInv r' l' (ps + rest) := by
  -- a caller that is under way keeps a cleanup from having begun
  have hcaller : ∀ p ∈ e.taken, p.calls = true → r.dying = false := fun p hp hcalls =>
    Bool.eq_false_iff.mpr fun hdying => by
      rw [hd.worlds hdying p (Multiset.mem_add.mpr (.inl hp))] at hcalls
      cases hcalls
  have hlocked : ∀ s, r.lock = some s → s.calls = true → r.dying = false := fun s hlock hcalls =>
    Bool.eq_false_iff.mpr fun hdying => by
      rw [hd.lock hdying s hlock] at hcalls
      cases hcalls
  have hsame : ∀ s ∈ r.lock, r.lock = r.lock ∨ s.calls = false := fun _ _ => .inl rfl
  have hleft : ∀ p : RcuWorld, p.calls = false ∧ p.dies = false →
      ∀ q ∈ [p], q.calls = false ∧ q.dies = false := fun p hp => List.forall_mem_singleton.mpr hp
  have htaken : ∀ p : RcuWorld, p ∈ (taken (.move p ()) + rest : Multiset RcuWorld) :=
    fun p => Multiset.mem_add.mpr (.inl (List.mem_singleton_self p))
  cases hmoves with
  | readLock => exact hd.idle rfl rfl rfl le_rfl hsame nofun
  | readUnlock hs hps =>
    rcases hps with rfl | rfl
    · exact hd.idle rfl rfl rfl le_rfl hsame nofun
    · exact hd.idle rfl rfl rfl le_rfl hsame (hleft _ ⟨rfl, rfl⟩)
  | call howned he =>
    refine hd.caller (Bool.eq_false_iff.mpr fun hdying => ?_) rfl rfl
      (List.forall_mem_singleton.mpr rfl)
    have hcalls := halone hdying
    rcases he with rfl | rfl <;> cases hcalls
  | tasklet => exact hd.idle rfl rfl rfl le_rfl hsame (hleft _ ⟨rfl, rfl⟩)
  | expire => exact hd.idle rfl rfl rfl le_rfl hsame (hleft _ ⟨rfl, rfl⟩)
  | link hlock => exact hd.caller (hlocked _ hlock rfl) rfl rfl nofun
  | noReader hlock => exact hd.caller (hlocked _ hlock rfl) rfl rfl nofun
  | readers hlock =>
    exact hd.caller (hlocked _ hlock rfl) rfl rfl (List.forall_mem_singleton.mpr rfl)
  | bump hlock hs =>
    rcases hs with ⟨c, rfl, rfl⟩ | ⟨rfl, rfl⟩ | ⟨rfl, rfl⟩
    · exact hd.caller (hlocked _ hlock rfl) rfl rfl (List.forall_mem_singleton.mpr rfl)
    · exact hd.idle rfl rfl rfl (Nat.le_succ _) nofun nofun
    · exact hd.idle rfl rfl rfl (Nat.le_succ _) nofun (hleft _ ⟨rfl, rfl⟩)
  | cleanup =>
    obtain ⟨hworlds, hlock⟩ := hquiet rfl
    have hrest : ∀ p ∈ rest, p ∈ (taken (.begin .cleanup) + rest :
        Multiset RcuWorld) := fun p hp => Multiset.mem_add.mpr (.inr hp)
    refine ⟨fun _ _ _ => rfl, fun _ p hp => ?_, fun _ => hlock, fun p hp hclean => ?_,
      fun p hp hkills => ?_, fun hdone => ⟨rfl, (hd.cleaned hdone).2⟩⟩
    · rcases Multiset.mem_add.mp hp with hp | hp
      · obtain rfl := List.mem_singleton.mp hp
        rfl
      · exact hworlds p (hrest p hp)
    · rcases Multiset.mem_add.mp hp with hp | hp
      · obtain rfl := List.mem_singleton.mp hp
        cases hclean
      · exact hd.old p (hrest p hp) hclean
    · rcases Multiset.mem_add.mp hp with hp | hp
      · obtain rfl := List.mem_singleton.mp hp
        cases hkills
      · exact hd.empty p (hrest p hp) hkills
  | stamp hlock => exact hd.caller (hcaller _ (List.mem_singleton_self _) rfl) rfl rfl nofun
  | @modTimer _ sync =>
    refine hd.caller (hcaller _ (List.mem_singleton_self _) rfl) rfl rfl ?_
    cases sync <;> simp [dies, cleansUp, kills]
  | @schedule _ sync =>
    refine hd.caller (hcaller _ (List.mem_singleton_self _) rfl) rfl rfl ?_
    cases sync <;> simp [dies, cleansUp, kills]
  | await => exact hd.idle rfl rfl rfl le_rfl hsame nofun
  | checkLen hps =>
    rcases hps with rfl | rfl
    · exact hd.idle rfl rfl rfl le_rfl hsame nofun
    · exact hd.idle rfl rfl rfl le_rfl hsame (hleft _ ⟨rfl, rfl⟩)
  | relock => exact hd.idle rfl rfl rfl le_rfl (by simp [RcuSection.calls]) nofun
  | unlocked => exact hd.idle rfl rfl rfl le_rfl hsame nofun
  | handler => exact hd.idle rfl rfl rfl le_rfl (by simp [RcuSection.calls]) nofun
  | again => exact hd.idle rfl rfl rfl le_rfl hsame (hleft _ ⟨rfl, rfl⟩)
  | rearm => exact hd.idle rfl rfl rfl le_rfl hsame nofun
  | @take l ctx h _ _ =>
    exact hd.step rfl rfl (fun _ hh => List.mem_cons_of_mem h hh) rfl le_rfl hsame
      (List.forall_mem_singleton.mpr ⟨rfl, fun hdies => ⟨_, List.mem_singleton_self _, hdies⟩,
        fun hclean k hk => hd.old _ (htaken _) hclean k (List.mem_cons_of_mem h hk), nofun⟩)
  | @leave _ ctx hage =>
    cases ctx with
    | tasklet => exact hd.idle rfl rfl rfl le_rfl hsame nofun
    | timer => exact hd.idle rfl rfl rfl le_rfl hsame nofun
    | cleanup =>
      -- all are old, so that the first is not left
      have hnil : l = [] := List.eq_nil_iff_forall_not_mem.mpr fun h hh => by
        have hold := hd.old _ (htaken _) rfl h hh
        rw [eq_generation_of_young hr (hnear rfl) hage hh] at hold
        exact lt_irrefl _ hold
      exact hd.step rfl rfl (fun _ hh => hh) rfl le_rfl hsame
        (List.forall_mem_singleton.mpr ⟨rfl, fun _ => ⟨_, List.mem_singleton_self _, rfl⟩,
          nofun, fun _ => hnil⟩)
  | invoke =>
    exact hd.step rfl rfl (fun _ hh => hh) rfl le_rfl hsame
      (List.forall_mem_singleton.mpr ⟨rfl, fun hdies => ⟨_, List.mem_singleton_self _, hdies⟩,
        fun hclean => hd.old _ (htaken _) hclean, nofun⟩)
  | ret =>
    exact hd.step rfl rfl (fun _ hh => hh) rfl le_rfl hsame
      (List.forall_mem_singleton.mpr ⟨rfl, fun hdies => ⟨_, List.mem_singleton_self _, hdies⟩,
        fun hclean => hd.old _ (htaken _) hclean, nofun⟩)
  | age =>
    exact hd.step rfl rfl (fun _ hh => hh) rfl (Nat.le_succ _) hsame
      (List.forall_mem_singleton.mpr ⟨rfl, fun _ => ⟨_, List.mem_singleton_self _, rfl⟩,
        fun _ h hh => Nat.lt_succ_of_le (hr.stamps h hh), nofun⟩)
  | nonempty =>
    exact hd.step rfl rfl (fun _ hh => hh) rfl le_rfl hsame
      (List.forall_mem_singleton.mpr ⟨rfl, fun _ => ⟨_, List.mem_singleton_self _, rfl⟩,
        fun _ => hd.old _ (htaken _) rfl, nofun⟩)
  | empty hlen =>
    have hnil : l = [] := by
      rw [hr.qLen] at hlen
      exact List.length_eq_zero_iff.mp (by omega)
    exact hd.step rfl rfl (fun _ hh => hh) rfl le_rfl hsame
      (List.forall_mem_singleton.mpr ⟨rfl, fun _ => ⟨_, List.mem_singleton_self _, rfl⟩,
        nofun, fun _ => hnil⟩)
  | kill =>
    exact hd.step rfl rfl (fun _ hh => hh) rfl le_rfl hsame
      (List.forall_mem_singleton.mpr ⟨rfl, fun _ => ⟨_, List.mem_singleton_self _, rfl⟩,
        nofun, fun _ => hd.empty _ (htaken _) rfl⟩)
  | delTimer =>
    have hidle : CleanupInv r l (([] : List RcuWorld) + rest) :=
      hd.idle rfl rfl rfl le_rfl hsame nofun
    exact ⟨hidle.dying, hidle.worlds, hidle.lock, hidle.old, hidle.empty,
      fun _ => ⟨hd.dying _ (htaken _) rfl, hd.empty _ (htaken _) rfl⟩⟩

theorem coverInv_init : CoverInv {} [] 0 ∧ CleanupInv {} [] 0 :=
  ⟨⟨nofun, nofun⟩, ⟨by simp, nofun, nofun, by simp, by simp, nofun⟩⟩

theorem RcuWorld.of_visits (h : p.visits = true) :
    p.schedules = true ∨ p.runs .tasklet = true ∨ p.runs .timer = true := by
  cases p with
  | schedule => exact .inl rfl
  | walk ctx | invoke ctx | running ctx =>
    cases ctx with
    | tasklet => exact .inr (.inl rfl)
    | timer => exact .inr (.inr rfl)
    | cleanup => cases h
  | _ => cases h

theorem CoverInv.responsible {w : Pool RcuData RcuWorld} (hr : RcuHolds w.shared l w.active)
    (hc : CoverInv w.shared l w.active) (hne : l ≠ []) : Responsible w := by
  have htimed : Timed w.shared w.active → Responsible w := fun ht => by
    cases ht with
    | pending h => exact .pending h
    | @world p hp h =>
      cases p with
      | schedule => exact .scheduling hp rfl
      | delayTimer => exact .handler hp rfl
      | rearm => exact .handler hp rfl
      | _ => cases h
    | @lock s hs h =>
      cases s with
      | linked => exact .linking hs rfl
      | bump => exact .linking hs rfl
      | timer => exact .bumping hs
      | _ => cases h
  have hvisited : Visited w.shared w.active → Responsible w := fun hv => by
    cases hv with
    | scheduled h => exact .scheduled h
    | @world p hp h =>
      rcases of_visits h with h | h | h
      · exact .scheduling hp h
      · exact .tasklet hp h
      · exact .handler hp h
  obtain ⟨h, hh⟩ := List.exists_mem_of_ne_nil l hne
  rcases Nat.lt_or_eq_of_le (hr.stamps h hh) with hlt | heq
  · exact (hc.old h hh hlt).elim htimed hvisited
  · exact htimed (hc.young h hh heq)

/-- **Cover**: where no callback waits for more than 2^63 generations, the list is well formed, each
    callback is called at most once, somebody is responsible as long as the list is not empty, and
    it is empty when `vmklnx_rcu_cleanup` returns. -/
theorem rcu_covered {s : RcuState} {es : List RcuLabel}
    (hrun : Run (Guarded RcuStep RcuCareful) .init es s) :
    ∃ w, s = .ok w ∧ ∃ l, IsQueue w.shared.next w.shared.nxtlist w.shared.nxttail l ∧
      w.shared.qLen = l.length ∧ w.shared.started.Nodup ∧ (l ≠ [] → Responsible w) ∧
      (w.shared.cleaned = true → l = []) := by
  obtain ⟨w, l, rfl, hr, hc, hd⟩ := rcu_keeps
    (J := fun r l ws => CoverInv r l ws ∧ CleanupInv r l ws)
    (fun _ _ _ _ _ _ _ _ hr hj hguard hws hmoves _ => by
      subst hws
      have hnear := fun hlooks h => hguard.young _ h rfl hlooks
      exact ⟨hmoves.cover hnear hr hj.2 hj.1, hmoves.cleanupInv hnear
        (fun he => hguard.quiet _ rfl he) (fun hdying => hguard.alone _ rfl hdying) hr hj.2⟩)
    coverInv_init hrun
  have hstarted : w.shared.started.Nodup := by
    have hnodup := (Multiset.nodup_range (w.shared.tickets - l.length))
    rw [← hr.called] at hnodup
    exact Multiset.coe_nodup.mp (Multiset.nodup_add.mp hnodup).1
  exact ⟨w, rfl, l, hr.queue, hr.qLen, hstarted, hc.responsible hr, fun h => (hd.cleaned h).2⟩

end Cover

/-- A callback is linked under a reader, and called by `vmklnx_rcu_cleanup`. -/
def cleanedRun : List RcuLabel :=
  [.begin .readLock, .begin (.callRcu 5), .move (.callRcu ⟨5, false⟩) (), .begin .goOn,
    .begin .goOn, .move (.schedule true none) (), .begin (.readUnlock 0), .move .checkLen (),
    .move .relock (), .begin .goOn, .begin .cleanup, .move .cleanup (), .move .cleanupLen (),
    .move (.walk .cleanup) (), .move (.invoke .cleanup 5) (), .move (.running .cleanup 0 false) (),
    .move (.walk .cleanup) (), .move .kill (), .move .delTimer ()]

theorem rcu_covered_cleaned : ∃ s, Run (Guarded RcuStep RcuCareful) .init cleanedRun s ∧
    ∃ w, s = .ok w ∧ w.shared.cleaned = true ∧ w.shared.started = [0] ∧
      w.shared.nxtlist = none := by
  have hexec : ∃ w, Run.exec (fun s e => if RcuCareful s e then rcuProgram.next? s e else none)
      RcuState.init cleanedRun = some (.ok w) ∧ w.shared.cleaned = true ∧ w.shared.started = [0] :=
    ⟨_, rfl, rfl, rfl⟩
  obtain ⟨w, hw, hcleaned, hstarted⟩ := hexec
  have hsound : ∀ s e t, (if RcuCareful s e then rcuProgram.next? s e else none) = some t →
      Guarded RcuStep RcuCareful s e t := fun s e t h =>
    (guarded_eq_some_iff (T := RcuStep) (fun _ _ _ => Iff.rfl) s e t).mp h
  have hrun : Run (Guarded RcuStep RcuCareful) .init cleanedRun (.ok w) := Run.of_exec hsound hw
  obtain ⟨w', hw', l, hqueue, -, -, -, hempty⟩ := rcu_covered hrun
  cases hw'
  refine ⟨_, hrun, w, rfl, hcleaned, hstarted, ?_⟩
  rw [hqueue.head_eq_none_iff]
  exact hempty hcleaned

/-! ## A callback that waits for 2^63 generations -/

def scheduledRun : List RcuLabel :=
  [.begin (.callRcu 5), .move (.callRcu ⟨5, false⟩) (), .begin .goOn, .begin .goOn, .begin .goOn,
    .move (.schedule false none) ()]

def readerRun (k : Nat) : List RcuLabel :=
  [.begin .readLock, .begin (.readUnlock k), .move .checkLen (), .move .relock (), .begin .goOn]

/-- The tasklet runs only after `n` readers. -/
def forgottenRun (n : Nat) : List RcuLabel :=
  scheduledRun ++ ((List.range n).flatMap readerRun ++ [.begin .tasklet, .move (.walk .tasklet) ()])

/-- The list with the callback after `n` readers. -/
def forgotten (n : Nat) : RcuData where
  nxtlist := some 5
  nxttail := some 5
  next := Function.update (fun _ => none) 5 none
  stamp := Function.update (fun _ => 0) 5 0
  sync := Function.update (fun _ => false) 5 false
  qLen := 1
  generation := n + 1
  scheduled := true
  owned := Function.update (fun _ => false) 5 true
  opened := n
  tickets := 1
  ticket := Function.update (fun _ => 0) 5 0
  openAt := Function.update (fun _ => ∅) 0 ∅

theorem reader_run (k : Nat) :
    Run RcuStep (.ok ⟨forgotten k, 0⟩) (readerRun k) (.ok ⟨forgotten (k + 1), 0⟩) := by
  have hlock : RcuStep (.ok ⟨forgotten k, 0⟩) (.begin .readLock)
      (.ok ⟨{ forgotten k with nestingLevel := 1, sections := {k}, opened := k + 1 }, 0⟩) := rfl
  have hunlock : RcuStep
      (.ok ⟨{ forgotten k with nestingLevel := 1, sections := {k}, opened := k + 1 }, 0⟩)
      (.begin (.readUnlock k)) (.ok ⟨{ forgotten k with opened := k + 1 }, {.checkLen}⟩) := by
    have hempty : ({k} : Finset Nat).erase k = ∅ := Finset.erase_singleton k
    simp only [RcuStep, Program.Step, Program.next?, rcuProgram, RcuData.begin,
      Finset.mem_singleton, if_true, hempty]
    rfl
  have hlook : Run RcuStep (.ok ⟨{ forgotten k with opened := k + 1 }, {.checkLen}⟩)
      [.move .checkLen (), .move .relock (), .begin .goOn] (.ok ⟨forgotten (k + 1), 0⟩) :=
    Run.of_exec (f := rcuProgram.next?) (fun _ _ _ h => h) rfl
  exact .cons hlock (.cons hunlock hlook)

theorem readers_run (n : Nat) :
    Run RcuStep (.ok ⟨forgotten 0, 0⟩) ((List.range n).flatMap readerRun)
      (.ok ⟨forgotten n, 0⟩) := by
  induction n with
  | zero => exact .nil _
  | succ n ih =>
    rw [List.range_succ, List.flatMap_append, List.flatMap_singleton]
    exact ih.append (reader_run n)

theorem tasklet_leaves {n : Nat} (hyoung : (forgotten n).agedEnough 5 = false) :
    Run RcuStep (.ok ⟨forgotten n, 0⟩) [.begin .tasklet, .move (.walk .tasklet) ()]
      (.ok ⟨{ forgotten n with scheduled := false, completed := 1 }, 0⟩) := by
  let r : RcuData := { forgotten n with scheduled := false, run := true }
  have hbegin : RcuStep (.ok ⟨forgotten n, 0⟩) (.begin .tasklet) (.ok ⟨r, {.walk .tasklet}⟩) := rfl
  have hcallback : r.callback .tasklet = .ok (r.leave .tasklet) := by
    have hage : r.agedEnough 5 = false := hyoung
    simp only [RcuData.callback, r, forgotten]
    exact if_neg (Bool.eq_false_iff.mp hage)
  have hmove : RcuStep (.ok ⟨r, {.walk .tasklet}⟩) (.move (.walk .tasklet) ())
      (.ok ⟨(r.leave .tasklet).1, 0⟩) := by
    have hlock : r.lock = none := rfl
    simp only [RcuStep, Program.Step, Program.next?, rcuProgram, RcuData.move, hcallback,
      Multiset.mem_singleton, if_true, hlock]
    rfl
  exact .cons hbegin (.single hmove)

/-- With 2^63 readers the tasklet takes the callback for too young, and nobody comes back. -/
theorem rcu_forgotten : ∃ w, Run RcuStep .init (forgottenRun (2 ^ 63)) (.ok w) ∧
    IsQueue w.shared.next w.shared.nxtlist w.shared.nxttail [5] ∧ ¬ Responsible w := by
  have hscheduled : Run RcuStep .init scheduledRun (.ok ⟨forgotten 0, 0⟩) :=
    Run.of_exec (f := rcuProgram.next?) (fun _ _ _ h => h) rfl
  -- the difference of the generations does not fit into 64 bits with its sign
  have hleft := tasklet_leaves (n := 2 ^ 63) (by decide)
  refine ⟨_, hscheduled.append ((readers_run _).append hleft), ?_, fun h => ?_⟩
  · exact ⟨⟨rfl, rfl⟩, rfl, by decide⟩
  · cases h with
    | scheduled h => cases h
    | tasklet hp => exact absurd hp (Multiset.notMem_zero _)
    | pending h => cases h
    | handler hp => exact absurd hp (Multiset.notMem_zero _)
    | bumping h => cases h
    | linking hs => cases hs
    | scheduling hp => exact absurd hp (Multiset.notMem_zero _)

end VmkDrivers.Vmklinux
