/-
  VmkDrivers.Vmklinux.RcuList

  The list of callbacks of a `vmklnx_rcu_data`: it is well formed, holds the
  callbacks linked last, and each callback is called once
  (`RcuInv.step`).

  A step is seen as one of `RcuMoves`, which say what it does to the data and,
  beside it, to the list.
-/

import VmkDrivers.Lib.IntrusiveQueue
import VmkDrivers.Vmklinux.Rcu

namespace VmkDrivers.Vmklinux

open VmkDrivers.Lib RcuData

/-! ## What a step can do -/

abbrev RcuLabel := PoolEvent RcuWorld RcuEvent Unit

def RcuLabel.taken : RcuLabel → List RcuWorld
  | .begin _ => []
  | .move p _ => [p]

/-- What a step does to the data and to the list, and the worlds that it leaves. -/
inductive RcuMoves (r : RcuData) :
    List Nat → RcuLabel → RcuData → List Nat → List RcuWorld → Prop
  | readLock {l} : RcuMoves r l (.begin .readLock)
      { r with
        nestingLevel := r.nestingLevel + 1
        sections := insert r.opened r.sections
        opened := r.opened + 1 } l []
  | readUnlock {l s ps} (hs : s ∈ r.sections) (hps : ps = [] ∨ ps = [.checkLen]) :
      RcuMoves r l (.begin (.readUnlock s))
        { r with nestingLevel := r.nestingLevel - 1, sections := r.sections.erase s } l ps
  | call {l e c} (howned : r.owned c.head = false)
      (he : e = .callRcu c.head ∨ e = .synchronizeRcu c.head) :
      RcuMoves r l (.begin e) (r.callRcu c).1 l [.callRcu c]
  | tasklet {l} (hscheduled : r.scheduled = true) (hrun : r.run = false) :
      RcuMoves r l (.begin .tasklet) { r with scheduled := false, run := true } l [.walk .tasklet]
  | expire {l} (htimer : r.delayTimer = true) : RcuMoves r l (.begin .delayTimer)
      { r with delayTimer := false, handlers := r.handlers + 1 } l [.delayTimer]
  | link {l c} (hlock : r.lock = some (.stamped c)) : RcuMoves r l (.begin .goOn)
      { r.link c with lock := some (.linked c) } (l ++ [c.head]) []
  | noReader {l c} (hlock : r.lock = some (.linked c)) (hlevel : r.nestingLevel = 0) :
      RcuMoves r l (.begin .goOn) { r with lock := some (.bump c) } l []
  | readers {l c} (hlock : r.lock = some (.linked c)) (hlevel : r.nestingLevel ≠ 0) :
      RcuMoves r l (.begin .goOn) { r with lock := none } l [.schedule true (r.waiter c)]
  | bump {l s ps} (hlock : r.lock = some s)
      (hs : (∃ c, s = .bump c ∧ ps = [.schedule false (r.waiter c)]) ∨ (s = .unlock ∧ ps = []) ∨
        (s = .timer ∧ ps = [.walk .timer])) :
      RcuMoves r l (.begin .goOn) r.bump l ps
  | cleanup {l} : RcuMoves r l (.begin .cleanup) { r with dying := true } l [.cleanup]
  | stamp {l c} (hlock : r.lock = none) : RcuMoves r l (.move (.callRcu c) ())
      { r with
        stamp := Function.update r.stamp c.head r.generation
        lock := some (.stamped c) } l []
  | modTimer {l sync} : RcuMoves r l (.move (.schedule true sync) ())
      { r with delayTimer := true } l (sync.toList.map .await)
  | schedule {l sync} : RcuMoves r l (.move (.schedule false sync) ())
      { r with scheduled := true } l (sync.toList.map .await)
  | await {l t} (hdone : r.completion t = true) : RcuMoves r l (.move (.await t) ())
      { r with synced := r.synced ++ [t] } l []
  | checkLen {l ps} (hps : ps = [] ∨ ps = [.relock]) :
      RcuMoves r l (.move .checkLen ()) r l ps
  | relock {l} (hlock : r.lock = none) (hlevel : r.nestingLevel = 0) :
      RcuMoves r l (.move .relock ()) { r with lock := some .unlock } l []
  | unlocked {l} : RcuMoves r l (.move .relock ()) r l []
  | handler {l} (hlock : r.lock = none) (hlevel : r.nestingLevel = 0) :
      RcuMoves r l (.move .delayTimer ()) { r with lock := some .timer } l []
  | again {l} : RcuMoves r l (.move .delayTimer ()) r l [.rearm]
  | rearm {l} : RcuMoves r l (.move .rearm ())
      { r with delayTimer := true, handlers := r.handlers - 1 } l []
  | take {l ctx h} (hlock : r.lock = none) (haged : r.agedEnough h = true) :
      RcuMoves r (h :: l) (.move (.walk ctx) ()) (r.unlinkFirst h) l [.invoke ctx h]
  | leave {l ctx} (hyoung : ∀ h ∈ l.head?, r.agedEnough h = false) :
      RcuMoves r l (.move (.walk ctx) ()) (r.leave ctx).1 l (r.leave ctx).2
  | invoke {l ctx h} : RcuMoves r l (.move (.invoke ctx h) ())
      { r with
        owned := Function.update r.owned h false
        started := r.started ++ [r.ticket h] } l [.running ctx (r.ticket h) (r.sync h)]
  | ret {l ctx t sync} : RcuMoves r l (.move (.running ctx t sync) ())
      { r with
        completion := if sync then Function.update r.completion t true else r.completion
        returned := r.returned ++ [t] } l [.walk ctx]
  | age {l} : RcuMoves r l (.move .cleanup ())
      { r with generation := r.generation + 1 } l [.cleanupLen]
  | nonempty {l} (hlen : 0 < r.qLen) : RcuMoves r l (.move .cleanupLen ()) r l [.walk .cleanup]
  | empty {l} (hlen : r.qLen ≤ 0) : RcuMoves r l (.move .cleanupLen ()) r l [.kill]
  | kill {l} : RcuMoves r l (.move .kill ()) r l [.delTimer]
  | delTimer {l} : RcuMoves r l (.move .delTimer ())
      { r with delayTimer := false, cleaned := true } l []

/-! ## What worlds hold -/

def RcuWorld.calling : RcuWorld → Multiset Nat
  | .callRcu c => {c.head}
  | _ => 0

def RcuSection.calling : RcuSection → Multiset Nat
  | .stamped c => {c.head}
  | _ => 0

def RcuWorld.invoking : RcuWorld → Multiset Nat
  | .invoke _ h => {h}
  | _ => 0

def RcuWorld.inFunction : RcuWorld → Multiset Nat
  | .running _ t _ => {t}
  | _ => 0

/-- The list is `l`. -/
structure RcuInv (r : RcuData) (l : List Nat) (calling invoking inFunction : Multiset Nat) :
    Prop where
  queue : IsQueue r.next r.nxtlist r.nxttail l
  qLen : r.qLen = l.length
  nodup : (calling + r.lock.elim 0 RcuSection.calling + invoking + (l : Multiset Nat)).Nodup
  owned : ∀ h ∈ calling + r.lock.elim 0 RcuSection.calling + invoking + (l : Multiset Nat),
    r.owned h = true
  unlinked : ∀ h ∈ calling + r.lock.elim 0 RcuSection.calling, r.next h = none
  stamped : ∀ c, r.lock = some (.stamped c) → r.stamp c.head ≤ r.generation ∧
    ∀ h ∈ l, r.stamp h ≤ r.stamp c.head
  stamps : ∀ h ∈ l, r.stamp h ≤ r.generation
  sorted : l.Pairwise fun h k => r.stamp h ≤ r.stamp k
  le_tickets : l.length ≤ r.tickets
  tickets : l.map r.ticket = List.range' (r.tickets - l.length) l.length
  called : (r.started : Multiset Nat) + invoking.map r.ticket =
    Multiset.range (r.tickets - l.length)
  finished : (r.returned : Multiset Nat) + inFunction = r.started

section Steps

variable {r r' : RcuData} {l l' : List Nat} {calling invoking inFunction : Multiset Nat}
  {c : RcuCall}

theorem RcuInv.congr (h : RcuInv r l calling invoking inFunction) (hnext : r'.next = r.next)
    (hlist : r'.nxtlist = r.nxtlist) (htail : r'.nxttail = r.nxttail) (hlen : r'.qLen = r.qLen)
    (hlock : r'.lock = r.lock) (howned : r'.owned = r.owned) (hstamp : r'.stamp = r.stamp)
    (hgeneration : r.generation ≤ r'.generation) (htickets : r'.tickets = r.tickets)
    (hticket : r'.ticket = r.ticket) (hstarted : r'.started = r.started)
    (hreturned : r'.returned = r.returned) : RcuInv r' l calling invoking inFunction := by
  refine ⟨?_, ?_, ?_, ?_, ?_, fun c hc => ?_, fun k hk => ?_, ?_, ?_, ?_, ?_, ?_⟩
  · rw [hnext, hlist, htail]
    exact h.queue
  · rw [hlen]
    exact h.qLen
  · rw [hlock]
    exact h.nodup
  · rw [hlock, howned]
    exact h.owned
  · rw [hlock, hnext]
    exact h.unlinked
  · rw [hlock] at hc
    rw [hstamp]
    exact ⟨(h.stamped c hc).1.trans hgeneration, (h.stamped c hc).2⟩
  · rw [hstamp]
    exact (h.stamps k hk).trans hgeneration
  · rw [hstamp]
    exact h.sorted
  · rw [htickets]
    exact h.le_tickets
  · rw [htickets, hticket]
    exact h.tickets
  · rw [htickets, hticket, hstarted]
    exact h.called
  · rw [hstarted, hreturned]
    exact h.finished

theorem RcuInv.relock (h : RcuInv r l calling invoking inFunction) (lock : Option RcuSection)
    (hold : r.lock.elim 0 RcuSection.calling = 0) (hnew : lock.elim 0 RcuSection.calling = 0) :
    RcuInv { r with lock } l calling invoking inFunction := by
  have hnodup := h.nodup
  have howned := h.owned
  have hunlinked := h.unlinked
  rw [hold] at hnodup howned hunlinked
  refine ⟨h.queue, h.qLen, ?_, ?_, ?_, fun c hc => ?_, h.stamps, h.sorted, h.le_tickets, h.tickets,
    h.called, h.finished⟩
  · dsimp only
    rw [hnew]
    exact hnodup
  · dsimp only
    rw [hnew]
    exact howned
  · dsimp only
    rw [hnew]
    exact hunlinked
  · dsimp only at hc
    rw [hc] at hnew
    exact absurd hnew (Multiset.singleton_ne_zero c.head)

theorem RcuInv.call (h : RcuInv r l calling invoking inFunction) (hfresh : r.owned c.head = false) :
    RcuInv (r.callRcu c).1 l (c.head ::ₘ calling) invoking inFunction := by
  have hnot : c.head ∉ calling + r.lock.elim 0 RcuSection.calling + invoking + (l : Multiset Nat) :=
    fun hmem => by
      rw [h.owned _ hmem] at hfresh
      exact absurd hfresh (by decide)
  have hl : c.head ∉ l := fun hmem => hnot (by simp [hmem])
  have hcons : c.head ::ₘ calling + r.lock.elim 0 RcuSection.calling + invoking +
      (l : Multiset Nat) = c.head ::ₘ (calling + r.lock.elim 0 RcuSection.calling + invoking +
        (l : Multiset Nat)) := by
    simp only [Multiset.cons_add]
  refine ⟨?_, h.qLen, ?_, fun k hk => ?_, fun k hk => ?_, h.stamped, h.stamps, h.sorted,
    h.le_tickets, h.tickets, h.called, h.finished⟩
  · refine h.queue.congr fun k hk => Function.update_of_ne (ne_of_mem_of_not_mem hk hl) _ _
  · show (c.head ::ₘ calling + r.lock.elim 0 RcuSection.calling + invoking +
      (l : Multiset Nat)).Nodup
    rw [hcons]
    exact Multiset.nodup_cons.mpr ⟨hnot, h.nodup⟩
  · show Function.update r.owned c.head true k = true
    by_cases hkc : k = c.head
    · rw [hkc, Function.update_self]
    · rw [Function.update_of_ne hkc]
      refine h.owned k ?_
      have hk' : k ∈ c.head ::ₘ calling + r.lock.elim 0 RcuSection.calling + invoking +
        (l : Multiset Nat) := hk
      rw [hcons] at hk'
      exact (Multiset.mem_cons.mp hk').resolve_left hkc
  · show Function.update r.next c.head none k = none
    by_cases hkc : k = c.head
    · rw [hkc, Function.update_self]
    · rw [Function.update_of_ne hkc]
      refine h.unlinked k ?_
      have hk' : k ∈ c.head ::ₘ calling + r.lock.elim 0 RcuSection.calling := hk
      rw [Multiset.cons_add] at hk'
      exact (Multiset.mem_cons.mp hk').resolve_left hkc

theorem RcuInv.stamp (h : RcuInv r l (c.head ::ₘ calling) invoking inFunction)
    (hlock : r.lock = none) :
    RcuInv { r with
      stamp := Function.update r.stamp c.head r.generation
      lock := some (.stamped c) } l calling invoking inFunction := by
  have hnodup := h.nodup
  have howned := h.owned
  have hunlinked := h.unlinked
  rw [hlock] at hnodup howned hunlinked
  simp only [Option.elim_none, add_zero, Multiset.cons_add] at hnodup howned hunlinked
  have hl : c.head ∉ l := fun hmem => (Multiset.nodup_cons.mp hnodup).1 (by simp [hmem])
  have hother : ∀ k ∈ l, Function.update r.stamp c.head r.generation k = r.stamp k := fun k hk =>
    Function.update_of_ne (ne_of_mem_of_not_mem hk hl) _ _
  have hmove : calling + {c.head} + invoking + (l : Multiset Nat) =
      c.head ::ₘ (calling + invoking + (l : Multiset Nat)) := by
    rw [← Multiset.singleton_add]
    ac_rfl
  refine ⟨h.queue, h.qLen, ?_, ?_, ?_, fun d hd => ?_, fun k hk => ?_, ?_, h.le_tickets, h.tickets,
    h.called, h.finished⟩
  · simp only [Option.elim_some, RcuSection.calling, hmove]
    exact hnodup
  · simp only [Option.elim_some, RcuSection.calling, hmove]
    exact howned
  · simp only [Option.elim_some, RcuSection.calling]
    rw [← Multiset.singleton_add, add_comm] at hunlinked
    exact hunlinked
  · obtain rfl : c = d := RcuSection.stamped.inj (Option.some.inj hd)
    refine ⟨?_, fun k hk => ?_⟩
    · simp only [Function.update_self, le_refl]
    · simp only [Function.update_self]
      rw [hother k hk]
      exact h.stamps k hk
  · simp only
    rw [hother k hk]
    exact h.stamps k hk
  · refine h.sorted.imp_of_mem fun {a b} ha hb hab => ?_
    dsimp only
    rw [hother a ha, hother b hb]
    exact hab

theorem RcuInv.link (h : RcuInv r l calling invoking inFunction)
    (hlock : r.lock = some (.stamped c)) :
    RcuInv { r.link c with lock := some (.linked c) } (l ++ [c.head]) calling invoking
      inFunction := by
  have hnodup := h.nodup
  have howned := h.owned
  have hunlinked := h.unlinked
  obtain ⟨hstamp, hbefore⟩ := h.stamped c hlock
  rw [hlock] at hnodup howned hunlinked
  simp only [Option.elim_some, RcuSection.calling] at hnodup howned hunlinked
  have hmove : calling + {c.head} + invoking + (l : Multiset Nat) =
      calling + 0 + invoking + ((l ++ [c.head] : List Nat) : Multiset Nat) := by
    rw [← Multiset.coe_add, Multiset.coe_singleton, add_zero]
    ac_rfl
  have hcons : calling + {c.head} + invoking + (l : Multiset Nat) =
      c.head ::ₘ (calling + invoking + (l : Multiset Nat)) := by
    rw [← Multiset.singleton_add]
    ac_rfl
  have hfresh : c.head ∉ calling + invoking + (l : Multiset Nat) := by
    rw [hcons] at hnodup
    exact (Multiset.nodup_cons.mp hnodup).1
  have hl : c.head ∉ l := fun hmem => hfresh (by simp [hmem])
  have hinvoking : c.head ∉ invoking := fun hmem => hfresh (by simp [hmem])
  have htail : ∀ t, r.nxttail = some t → t ∈ l := fun t ht =>
    List.mem_of_getLast? (h.queue.tail_eq.symm.trans ht)
  -- the head's own link is null, and the code writes to the old tail only
  have hnull : Function.update r.next c.head none = r.next := by
    rw [← hunlinked c.head (by simp), Function.update_eq_self]
  have hpush := h.queue.push hl
  have hpushNext : pushNext r.next r.nxttail c.head =
      r.nxttail.elim r.next fun t => Function.update r.next t (some c.head) := by
    rw [← hnull]
    cases r.nxttail <;> simp only [pushNext, hnull, Option.elim]
  have hpushHead : pushHead r.nxtlist r.nxttail c.head =
      if r.nxttail = none then some c.head else r.nxtlist := by
    cases r.nxttail <;> rfl
  have hticket : ∀ k, k ≠ c.head → (r.link c).ticket k = r.ticket k := fun k hk =>
    Function.update_of_ne hk _ _
  have hlen : r.tickets + 1 - (l ++ [c.head]).length = r.tickets - l.length := by
    rw [List.length_append, List.length_singleton, Nat.add_sub_add_right]
  refine ⟨?_, ?_, ?_, ?_, fun k hk => ?_, fun d hd => ?_, fun k hk => ?_, ?_, ?_, ?_, ?_,
    h.finished⟩
  · rw [hpushNext, hpushHead] at hpush
    exact hpush
  · show r.qLen + 1 = _
    rw [h.qLen, List.length_append, List.length_singleton]
    rfl
  · show (calling + 0 + invoking + ((l ++ [c.head] : List Nat) : Multiset Nat)).Nodup
    rw [← hmove]
    exact hnodup
  · show ∀ k ∈ calling + 0 + invoking + ((l ++ [c.head] : List Nat) : Multiset Nat),
      r.owned k = true
    rw [← hmove]
    exact howned
  · have hk' : k ∈ calling := by
      have hk'' : k ∈ calling + 0 := hk
      rwa [add_zero] at hk''
    have hkl : k ∉ l := fun hmem => by
      have hdisj := Multiset.disjoint_of_nodup_add (Multiset.nodup_of_le
        (show calling + (l : Multiset Nat) ≤ calling + {c.head} + invoking + l by
          rw [add_assoc, add_assoc]
          exact Multiset.add_le_add_left (Multiset.le_add_left _ _ |>.trans
            (Multiset.le_add_left _ _))) hnodup)
      exact Multiset.disjoint_left.mp hdisj hk' (by simpa using hmem)
    show (r.nxttail.elim r.next fun t => Function.update r.next t (some c.head)) k = none
    cases ht : r.nxttail with
    | none => exact hunlinked k (Multiset.mem_add.mpr (.inl hk'))
    | some t =>
      refine (Function.update_of_ne (ne_of_mem_of_not_mem (htail t ht) hkl).symm _ _).trans ?_
      exact hunlinked k (Multiset.mem_add.mpr (.inl hk'))
  · exact absurd hd (by simp)
  · rcases List.mem_append.mp hk with hk | hk
    · exact h.stamps k hk
    · obtain rfl := List.mem_singleton.mp hk
      exact hstamp
  · rw [List.pairwise_append]
    refine ⟨h.sorted, List.pairwise_singleton _ _, fun a ha b hb => ?_⟩
    obtain rfl := List.mem_singleton.mp hb
    exact hbefore a ha
  · show (l ++ [c.head]).length ≤ r.tickets + 1
    rw [List.length_append, List.length_singleton]
    exact Nat.succ_le_succ h.le_tickets
  · show (l ++ [c.head]).map (r.link c).ticket =
      List.range' (r.tickets + 1 - (l ++ [c.head]).length) (l ++ [c.head]).length
    have hold : l.map (r.link c).ticket = l.map r.ticket :=
      List.map_congr_left fun k hk => hticket k (ne_of_mem_of_not_mem hk hl)
    have hnew : (r.link c).ticket c.head = r.tickets := Function.update_self ..
    have hle := h.le_tickets
    rw [hlen, List.map_append, List.map_singleton, hold, hnew, h.tickets, List.length_append,
      List.length_singleton, List.range'_concat, Nat.one_mul, Nat.sub_add_cancel hle]
  · show (r.started : Multiset Nat) + invoking.map (r.link c).ticket =
      Multiset.range (r.tickets + 1 - (l ++ [c.head]).length)
    have hold : invoking.map (r.link c).ticket = invoking.map r.ticket :=
      Multiset.map_congr rfl fun k hk => hticket k (ne_of_mem_of_not_mem hk hinvoking)
    rw [hlen, hold]
    exact h.called

theorem RcuInv.take {k : Nat} (h : RcuInv r (k :: l) calling invoking inFunction) :
    RcuInv (r.unlinkFirst k) l calling (k ::ₘ invoking) inFunction := by
  have hmove : calling + r.lock.elim 0 RcuSection.calling + invoking +
      ((k :: l : List Nat) : Multiset Nat) =
      calling + r.lock.elim 0 RcuSection.calling + (k ::ₘ invoking) + (l : Multiset Nat) := by
    rw [← Multiset.cons_coe, ← Multiset.singleton_add k l, ← Multiset.singleton_add k invoking]
    ac_rfl
  have hle := h.le_tickets
  rw [List.length_cons] at hle
  have htickets := h.tickets
  rw [List.map_cons, List.length_cons, List.range'_succ] at htickets
  obtain ⟨hfirst, hrest⟩ := List.cons.inj htickets
  have hsub : r.tickets - (l.length + 1) + 1 = r.tickets - l.length := by omega
  refine ⟨?_, ?_, ?_, ?_, h.unlinked, fun c hc => ?_, fun j hj => ?_, ?_, ?_, ?_, ?_, h.finished⟩
  · have hpop := h.queue.pop
    have htail : (if r.next k = none then none else r.nxttail) =
        if r.nxttail = some k then none else r.nxttail := by
      have hnext : r.next k = l.head? := Chain.head_eq h.queue.chain.2
      have hlast : r.nxttail = (k :: l).getLast? := h.queue.tail_eq
      have hkl := (List.nodup_cons.mp h.queue.nodup).1
      cases l with
      | nil =>
        have hnone : r.next k = none := hnext
        have hsome : r.nxttail = some k := hlast
        rw [if_pos hnone, if_pos hsome]
      | cons j l =>
        have hne : r.next k ≠ none := by
          rw [hnext]
          exact nofun
        have hother : r.nxttail ≠ some k := fun heq => by
          rw [hlast, List.getLast?_cons_cons] at heq
          exact hkl (List.mem_of_getLast? heq)
        rw [if_neg hne, if_neg hother]
    rw [htail] at hpop
    exact hpop
  · show r.qLen - 1 = l.length
    rw [h.qLen, List.length_cons]
    omega
  · exact hmove ▸ h.nodup
  · exact hmove ▸ h.owned
  · exact ⟨(h.stamped c hc).1, fun j hj => (h.stamped c hc).2 j (List.mem_cons_of_mem k hj)⟩
  · exact h.stamps j (List.mem_cons_of_mem k hj)
  · exact (List.pairwise_cons.mp h.sorted).2
  · exact Nat.le_of_succ_le hle
  · show l.map r.ticket = List.range' (r.tickets - l.length) l.length
    rw [hrest, hsub]
  · show (r.started : Multiset Nat) + (k ::ₘ invoking).map r.ticket =
      Multiset.range (r.tickets - l.length)
    have hcalled := h.called
    rw [List.length_cons] at hcalled
    rw [Multiset.map_cons, Multiset.add_cons, hcalled, hfirst, ← hsub, Multiset.range_succ]

theorem RcuInv.invoke {k : Nat} (h : RcuInv r l calling (k ::ₘ invoking) inFunction) :
    RcuInv { r with
      owned := Function.update r.owned k false
      started := r.started ++ [r.ticket k] } l calling invoking (r.ticket k ::ₘ inFunction) := by
  have hmove : calling + r.lock.elim 0 RcuSection.calling + (k ::ₘ invoking) + (l : Multiset Nat) =
      k ::ₘ (calling + r.lock.elim 0 RcuSection.calling + invoking + (l : Multiset Nat)) := by
    rw [← Multiset.singleton_add k invoking, ← Multiset.singleton_add k (_ + _)]
    ac_rfl
  have hnodup := h.nodup
  have howned := h.owned
  rw [hmove] at hnodup howned
  obtain ⟨hfresh, hnodup⟩ := Multiset.nodup_cons.mp hnodup
  refine ⟨h.queue, h.qLen, hnodup, fun j hj => ?_, h.unlinked, h.stamped, h.stamps, h.sorted,
    h.le_tickets, h.tickets, ?_, ?_⟩
  · show Function.update r.owned k false j = true
    rw [Function.update_of_ne (ne_of_mem_of_not_mem hj hfresh)]
    exact howned j (Multiset.mem_cons_of_mem hj)
  · show ((r.started ++ [r.ticket k] : List Nat) : Multiset Nat) + invoking.map r.ticket = _
    have hcalled := h.called
    rw [Multiset.map_cons] at hcalled
    rw [← hcalled, ← Multiset.coe_add, Multiset.coe_singleton, add_assoc, Multiset.singleton_add]
  · show (r.returned : Multiset Nat) + r.ticket k ::ₘ inFunction =
      ((r.started ++ [r.ticket k] : List Nat) : Multiset Nat)
    rw [Multiset.add_cons, h.finished, ← Multiset.coe_add, Multiset.coe_singleton, add_comm,
      Multiset.singleton_add]

theorem RcuInv.ret {t : Nat} (h : RcuInv r l calling invoking (t ::ₘ inFunction))
    (completion : Nat → Bool) :
    RcuInv { r with completion, returned := r.returned ++ [t] } l calling invoking
      inFunction := by
  refine ⟨h.queue, h.qLen, h.nodup, h.owned, h.unlinked, h.stamped, h.stamps, h.sorted,
    h.le_tickets, h.tickets, h.called, ?_⟩
  have hfinished := h.finished
  show ((r.returned ++ [t] : List Nat) : Multiset Nat) + inFunction = r.started
  rw [← hfinished, ← Multiset.coe_add, Multiset.coe_singleton, add_assoc, Multiset.singleton_add]

end Steps

/-! ## The invariant along a run -/

/-- The list is `l`, with the worlds `ws` under way. -/
def RcuHolds (r : RcuData) (l : List Nat) (ws : Multiset RcuWorld) : Prop :=
  RcuInv r l (total RcuWorld.calling ws) (total RcuWorld.invoking ws)
    (total RcuWorld.inFunction ws)

section Runs

variable {r r' : RcuData} {l l' : List Nat} {ps : List RcuWorld} {e : RcuLabel} {t : RcuState}

theorem begin_moves {ev : RcuEvent} (l : List Nat) (hbegin : r.begin ev = some (r', ps)) :
    ∃ l', RcuMoves r l (.begin ev) r' l' ps := by
  cases ev with
  | readLock =>
    cases hbegin
    exact ⟨l, .readLock⟩
  | readUnlock s =>
    simp only [begin] at hbegin
    split at hbegin
    · next hs =>
      cases hbegin
      refine ⟨l, .readUnlock hs ?_⟩
      split
      · exact .inr rfl
      · exact .inl rfl
    · cases hbegin
  | callRcu head =>
    simp only [begin] at hbegin
    split at hbegin
    · cases hbegin
    · next howned =>
      cases hbegin
      exact ⟨l, .call (c := ⟨head, false⟩) (Bool.eq_false_iff.mpr howned) (.inl rfl)⟩
  | synchronizeRcu head =>
    simp only [begin] at hbegin
    split at hbegin
    · cases hbegin
    · next howned =>
      cases hbegin
      exact ⟨l, .call (c := ⟨head, true⟩) (Bool.eq_false_iff.mpr howned) (.inr rfl)⟩
  | tasklet =>
    simp only [begin] at hbegin
    split at hbegin
    · next hready =>
      cases hbegin
      rw [Bool.and_eq_true, Bool.not_eq_true'] at hready
      exact ⟨l, .tasklet hready.1 hready.2⟩
    · cases hbegin
  | delayTimer =>
    simp only [begin] at hbegin
    split at hbegin
    · next htimer =>
      cases hbegin
      exact ⟨l, .expire htimer⟩
    · cases hbegin
  | goOn =>
    obtain ⟨s, hlock, hgo⟩ := Option.map_eq_some_iff.mp hbegin
    cases s with
    | stamped c =>
      cases hgo
      exact ⟨l ++ [c.head], .link hlock⟩
    | linked c =>
      simp only [RcuData.goOn] at hgo
      split at hgo
      · next hlevel =>
        cases hgo
        exact ⟨l, .noReader hlock hlevel⟩
      · next hlevel =>
        cases hgo
        exact ⟨l, .readers hlock hlevel⟩
    | bump c =>
      cases hgo
      exact ⟨l, .bump hlock (.inl ⟨c, rfl, rfl⟩)⟩
    | unlock =>
      cases hgo
      exact ⟨l, .bump hlock (.inr (.inl ⟨rfl, rfl⟩))⟩
    | timer =>
      cases hgo
      exact ⟨l, .bump hlock (.inr (.inr ⟨rfl, rfl⟩))⟩
  | cleanup =>
    cases hbegin
    exact ⟨l, .cleanup⟩

theorem callback_moves {ctx : RcuContext} (hqueue : IsQueue r.next r.nxtlist r.nxttail l)
    (hlock : r.lock = none) : ∃ r' l' ps, r.callback ctx = .ok (r', ps) ∧
      RcuMoves r l (.move (.walk ctx) ()) r' l' ps := by
  have hfirst := hqueue.head_eq
  rw [callback]
  cases l with
  | nil =>
    have hnone : r.nxtlist = none := hfirst
    have htail : r.nxttail = none := hqueue.tail_eq_none_iff.mpr rfl
    rw [hnone]
    exact ⟨_, _, _, if_pos htail, .leave (by simp)⟩
  | cons h l =>
    have hsome : r.nxtlist = some h := hfirst
    rw [hsome]
    dsimp only
    cases haged : r.agedEnough h with
    | true => exact ⟨_, _, _, rfl, .take hlock haged⟩
    | false => exact ⟨_, _, _, rfl, .leave (by simpa using haged)⟩

theorem move_moves {p : RcuWorld} {u : Unit} {o : Except RcuAssert (RcuData × List RcuWorld)}
    (hqueue : IsQueue r.next r.nxtlist r.nxttail l) (hmove : r.move p u = some o) :
    ∃ r' l' ps, o = .ok (r', ps) ∧ RcuMoves r l (.move p ()) r' l' ps := by
  cases p with
  | callRcu c =>
    simp only [move] at hmove
    split at hmove
    · next hlock =>
      cases hmove
      exact ⟨_, l, _, rfl, .stamp hlock⟩
    · cases hmove
  -- of the worlds only `walk` changes the queue
  | schedule timer sync =>
    cases hmove
    cases timer with
    | true => exact ⟨_, l, _, rfl, .modTimer⟩
    | false => exact ⟨_, l, _, rfl, .schedule⟩
  | await t =>
    simp only [move] at hmove
    split at hmove
    · next hdone =>
      cases hmove
      exact ⟨_, l, _, rfl, .await hdone⟩
    · cases hmove
  | checkLen =>
    cases hmove
    refine ⟨_, l, _, rfl, .checkLen ?_⟩
    split
    · exact .inr rfl
    · exact .inl rfl
  | relock =>
    simp only [move] at hmove
    split at hmove
    · next hlock =>
      cases hmove
      split
      · next hlevel => exact ⟨_, l, _, rfl, .relock hlock hlevel⟩
      · exact ⟨_, l, _, rfl, .unlocked⟩
    · cases hmove
  | delayTimer =>
    simp only [move] at hmove
    split at hmove
    · next hlock =>
      split at hmove
      · next hlevel =>
        cases hmove
        exact ⟨_, l, _, rfl, .handler hlock hlevel⟩
      · cases hmove
        exact ⟨_, l, _, rfl, .again⟩
    · cases hmove
  | rearm =>
    cases hmove
    exact ⟨_, l, _, rfl, .rearm⟩
  | walk ctx =>
    simp only [move] at hmove
    split at hmove
    · next hlock =>
      cases hmove
      exact callback_moves hqueue hlock
    · cases hmove
  | invoke ctx head =>
    cases hmove
    exact ⟨_, l, _, rfl, .invoke⟩
  | running ctx t sync =>
    cases hmove
    exact ⟨_, l, _, rfl, .ret⟩
  | cleanup =>
    cases hmove
    exact ⟨_, l, _, rfl, .age⟩
  | cleanupLen =>
    cases hmove
    by_cases hlen : r.qLen > 0
    · exact ⟨_, l, _, rfl, by rw [if_pos hlen]; exact .nonempty hlen⟩
    · exact ⟨_, l, _, rfl, by rw [if_neg hlen]; exact .empty (not_lt.mp hlen)⟩
  | kill =>
    simp only [move] at hmove
    split at hmove
    · cases hmove
    · cases hmove
      exact ⟨_, l, _, rfl, .kill⟩
  | delTimer =>
    simp only [move] at hmove
    split at hmove
    · cases hmove
      exact ⟨_, l, _, rfl, .delTimer⟩
    · cases hmove

theorem RcuInv.await {calling invoking inFunction : Multiset Nat}
    (h : RcuInv r l calling invoking inFunction) (sync : Option Nat) :
    RcuInv r l (((sync.toList.map RcuWorld.await).map RcuWorld.calling).sum + calling)
      (((sync.toList.map RcuWorld.await).map RcuWorld.invoking).sum + invoking)
      (((sync.toList.map RcuWorld.await).map RcuWorld.inFunction).sum + inFunction) := by
  cases sync with
  | none => simpa using h
  | some t => simpa [RcuWorld.calling, RcuWorld.invoking, RcuWorld.inFunction] using h

theorem RcuMoves.holds {rest : Multiset RcuWorld} (hmoves : RcuMoves r l e r' l' ps)
    (h : RcuHolds r l (e.taken + rest)) : RcuHolds r' l' (ps + rest) := by
  unfold RcuHolds at h ⊢
  simp only [total_add, total_coe] at h ⊢
  cases hmoves <;> simp only [RcuLabel.taken, List.map_cons, List.map_nil, List.sum_cons,
    List.sum_nil, RcuWorld.calling, RcuWorld.invoking, RcuWorld.inFunction, add_zero, zero_add,
    Multiset.singleton_add] at h ⊢
  case readLock => exact h.congr rfl rfl rfl rfl rfl rfl rfl le_rfl rfl rfl rfl rfl
  case readUnlock hs hps =>
    rcases hps with rfl | rfl <;> simp only [List.map_cons, List.map_nil, List.sum_cons,
      List.sum_nil, RcuWorld.calling, RcuWorld.invoking, RcuWorld.inFunction, zero_add]
    · exact h.congr rfl rfl rfl rfl rfl rfl rfl le_rfl rfl rfl rfl rfl
    · exact h.congr rfl rfl rfl rfl rfl rfl rfl le_rfl rfl rfl rfl rfl
  case call howned _ => exact h.call howned
  case tasklet => exact h.congr rfl rfl rfl rfl rfl rfl rfl le_rfl rfl rfl rfl rfl
  case expire => exact h.congr rfl rfl rfl rfl rfl rfl rfl le_rfl rfl rfl rfl rfl
  case link hlock => exact h.link hlock
  case noReader hlock _ => exact h.relock _ (by rw [hlock]; rfl) rfl
  case readers hlock _ => exact h.relock _ (by rw [hlock]; rfl) rfl
  case bump s hlock hs =>
    have hold : r.lock.elim 0 RcuSection.calling = 0 := by
      rcases hs with ⟨c, rfl, -⟩ | ⟨rfl, -⟩ | ⟨rfl, -⟩ <;> rw [hlock] <;> rfl
    have hbump := (h.relock none hold rfl).congr (show r.bump.next = _ from rfl) rfl rfl rfl rfl
      rfl rfl (Nat.le_succ r.generation) rfl rfl rfl rfl
    rcases hs with ⟨c, -, rfl⟩ | ⟨-, rfl⟩ | ⟨-, rfl⟩ <;> simp only [List.map_cons, List.map_nil,
      List.sum_cons, List.sum_nil, RcuWorld.calling, RcuWorld.invoking, RcuWorld.inFunction,
      zero_add]
    · exact hbump
    · exact hbump
    · exact hbump
  case cleanup => exact h.congr rfl rfl rfl rfl rfl rfl rfl le_rfl rfl rfl rfl rfl
  case stamp hlock => exact h.stamp hlock
  case modTimer sync =>
    exact (h.await sync).congr rfl rfl rfl rfl rfl rfl rfl le_rfl rfl rfl rfl rfl
  case schedule sync =>
    exact (h.await sync).congr rfl rfl rfl rfl rfl rfl rfl le_rfl rfl rfl rfl rfl
  case await => exact h.congr rfl rfl rfl rfl rfl rfl rfl le_rfl rfl rfl rfl rfl
  case checkLen hps =>
    rcases hps with rfl | rfl <;> simp only [List.map_cons, List.map_nil, List.sum_cons,
      List.sum_nil, RcuWorld.calling, RcuWorld.invoking, RcuWorld.inFunction, zero_add]
    · exact h
    · exact h
  case relock hlock _ => exact h.relock _ (by rw [hlock]; rfl) rfl
  case unlocked => exact h
  case handler hlock _ => exact h.relock _ (by rw [hlock]; rfl) rfl
  case again => exact h
  case rearm => exact h.congr rfl rfl rfl rfl rfl rfl rfl le_rfl rfl rfl rfl rfl
  case take => exact h.take
  case leave ctx _ =>
    cases ctx <;> simp only [RcuData.leave, List.map_cons, List.map_nil, List.sum_cons,
      List.sum_nil, RcuWorld.calling, RcuWorld.invoking, RcuWorld.inFunction, zero_add]
    · exact h.congr rfl rfl rfl rfl rfl rfl rfl le_rfl rfl rfl rfl rfl
    · exact h.congr rfl rfl rfl rfl rfl rfl rfl le_rfl rfl rfl rfl rfl
    · exact h.congr rfl rfl rfl rfl rfl rfl rfl le_rfl rfl rfl rfl rfl
  case invoke => exact h.invoke
  case ret => exact h.ret _
  case age =>
    exact h.congr rfl rfl rfl rfl rfl rfl rfl (Nat.le_succ r.generation) rfl rfl rfl rfl
  case nonempty => exact h
  case empty => exact h
  case kill => exact h
  case delTimer => exact h.congr rfl rfl rfl rfl rfl rfl rfl le_rfl rfl rfl rfl rfl

/-- **Step rule.** A step from a state that holds its list is one of the moves. -/
theorem rcuStep_moves {w : Pool RcuData RcuWorld} (h : RcuHolds w.shared l w.active)
    (hstep : RcuStep (.ok w) e t) :
    ∃ r' l' rest, ∃ ps : List RcuWorld, w.active = e.taken + rest ∧ t = .ok ⟨r', ps + rest⟩ ∧
      RcuMoves w.shared l e r' l' ps ∧ RcuHolds r' l' (ps + rest) := by
  rcases Program.step_cases hstep with ⟨s, ev, u, ps, hs, rfl, hbegin, rfl⟩ |
    ⟨s, p, b, rest, o, hs, rfl, hmove, rfl⟩
  · cases hs
    obtain ⟨l', hmoves⟩ := begin_moves l hbegin
    have hzero : w.active = RcuLabel.taken (.begin ev) + w.active := (zero_add _).symm
    exact ⟨u, l', w.active, ps, hzero, rfl, hmoves, hmoves.holds (hzero ▸ h)⟩
  · cases hs
    obtain ⟨r', l', ps, rfl, hmoves⟩ := move_moves h.queue hmove
    have hcons : p ::ₘ rest = RcuLabel.taken (.move p ()) + rest := rfl
    exact ⟨r', l', rest, ps, rfl, rfl, hmoves, hmoves.holds h⟩

theorem rcuHolds_init : RcuHolds {} [] 0 := by
  refine ⟨.nil _, rfl, ?_, by simp, by simp, nofun, nofun, .nil, le_rfl, rfl, ?_, rfl⟩
  · simp
  · simp

/-- **Run rule.** What every move keeps beside the list, every run keeps. -/
theorem rcu_keeps {J : RcuData → List Nat → Multiset RcuWorld → Prop}
    {guard : RcuState → RcuLabel → Prop}
    (hJ : ∀ r l ws e r' l' ps rest, RcuHolds r l ws → J r l ws → guard (.ok ⟨r, ws⟩) e →
      ws = e.taken + rest → RcuMoves r l e r' l' ps → RcuHolds r' l' (ps + rest) →
        J r' l' (ps + rest))
    (h0 : J {} [] 0) {es : List RcuLabel}
    (hrun : Run (Guarded RcuStep guard) .init es t) :
    ∃ w l, t = .ok w ∧ RcuHolds w.shared l w.active ∧ J w.shared l w.active := by
  refine hrun.invariant (I := fun t => ∃ w l, t = .ok w ∧ RcuHolds w.shared l w.active ∧
    J w.shared l w.active) ?_ ⟨⟨{}, 0⟩, [], rfl, rcuHolds_init, h0⟩
  rintro _ e t ⟨w, l, rfl, hholds, hj⟩ ⟨hguard, hstep⟩
  obtain ⟨r', l', rest, ps, hactive, rfl, hmoves, hholds'⟩ := rcuStep_moves hholds hstep
  exact ⟨_, l', rfl, hholds', hJ _ _ _ _ _ _ _ _ hholds hj hguard hactive hmoves hholds'⟩

end Runs

end VmkDrivers.Vmklinux
