/-
  VmkDrivers.Wfs.NapiList

  The list `netdev->napi_list` of the net device that the two ports of a card
  share, with a `napi_struct` in each of their interrupt vectors.

  `ixgbe_clear_interrupt_scheme` of one port frees its own vectors and then
  initialises the head of the list, which drops the vectors of the other port.
  The list is right all along exactly if no port does that while the other one
  has vectors, and no probe or remove gets to a pointer it must not follow
  (`napi_list_exact_iff`).

  An object is named by its address; the head of the list is at 0.  How many
  vectors a port asks for is left open.
-/

import VmkDrivers.Lib.CircularList
import VmkDrivers.Wfs.SlotCycle
import VmkDrivers.Wfs.TxQueues

namespace VmkDrivers.Wfs

open VmkDrivers.Lib

/-! ## The card -/

structure NapiCard where
  /-- The functions probed, the primary adapter first. -/
  probed : Port → Bool := fun _ => false
  mtu : Int32 := wfsDefaultMtu
  running : Bool := false
  numQVectors : Port → Nat := fun _ => 0
  qVector : Port → Nat → Option Nat := fun _ _ => none
  /-- The `dev_list` of the vectors, and the head at 0. -/
  links : Links Nat := ⟨id, id⟩

/-- The vectors that `ixgbe_alloc_q_vectors` is to allocate: those for FCoE in pairs, behind the
    `plain` ones, and what `kzalloc` returns for each. -/
structure VectorPlan where
  plain : Nat
  split : Nat := 0
  kzalloc : Nat → Option Nat

/-- `adapter->num_q_vectors`. -/
def VectorPlan.numQVectors (plan : VectorPlan) : Nat := plan.plain + 2 * plan.split

def VectorPlan.fcoe (plan : VectorPlan) : List Nat :=
  (List.range plan.split).flatMap fun i => [plan.plain + i, plan.plain + i + plan.split]

inductive NapiFault where
  | slot (f : SlotFault)
  /-- A vector that is not there. -/
  | qVector
deriving DecidableEq, Repr

inductive NapiOp where
  /-- `ixgbe_probe` of the next function of the card. -/
  | probe (fails : Option ProbeStep) (registered : Bool) (plan : VectorPlan)
  | remove
  | setRunning (running : Bool)
  | changeMtu (newMtu : Int32) (plan : VectorPlan)
  /-- `ixgbe_suspend` or `ixgbe_shutdown`. -/
  | suspend (p : Port)
  | resume (p : Port) (plan : VectorPlan)

namespace NapiCard

/-! ## Vectors -/

def setQVector (s : NapiCard) (p : Port) (vIdx : Nat) (v : Option Nat) : NapiCard :=
  { s with qVector := Function.update s.qVector p (Function.update (s.qVector p) vIdx v) }

def setNum (s : NapiCard) (p : Port) (num : Nat) : NapiCard :=
  { s with numQVectors := Function.update s.numQVectors p num }

/-- `ixgbe_alloc_q_vector`, with `netif_napi_add`. -/
def ixgbeAllocQVector (s : NapiCard) (p : Port) (vIdx a : Nat) : NapiCard :=
  { s with links := s.links.add a 0 }.setQVector p vIdx (some a)

/-- `ixgbe_free_q_vector`, with `netif_napi_del`. -/
def ixgbeFreeQVector (s : NapiCard) (p : Port) (vIdx : Nat) : Except NapiFault NapiCard :=
  match s.qVector p vIdx with
  | none => .error .qVector
  | some a => .ok ({ s with links := s.links.removeInit a }.setQVector p vIdx none)

/-- The vectors of a loop of `ixgbe_alloc_q_vectors`, up to the one there is no memory for. -/
def allocVectors (p : Port) (kzalloc : Nat → Option Nat) :
    List Nat → NapiCard → NapiCard × Option Nat
  | [], s => (s, none)
  | vIdx :: rest, s =>
    match kzalloc vIdx with
    | none => (s, some vIdx)
    | some a => allocVectors p kzalloc rest (s.ixgbeAllocQVector p vIdx a)

/-- `while (v_idx--) ixgbe_free_q_vector(adapter, v_idx)`. -/
def freeBelow (p : Port) : Nat → NapiCard → Except NapiFault NapiCard
  | 0, s => .ok s
  | vIdx + 1, s => do
    let s ← s.ixgbeFreeQVector p vIdx
    freeBelow p vIdx s

/-- `ixgbe_alloc_q_vectors`, and whether it returns 0.  A failure among the FCoE vectors finds
    `v_idx` at 0. -/
def ixgbeAllocQVectors (s : NapiCard) (p : Port) (plan : VectorPlan) :
    Except NapiFault (NapiCard × Bool) :=
  match s.allocVectors p plan.kzalloc plan.fcoe with
  | (s, some _) => .ok (s.setNum p 0, false)
  | (s, none) =>
    match s.allocVectors p plan.kzalloc (List.range plan.plain) with
    | (s, some vIdx) => do
      let s ← (s.setNum p 0).freeBelow p vIdx
      return (s, false)
    | (s, none) => .ok (s, true)

def ixgbeInitInterruptScheme (s : NapiCard) (p : Port) (plan : VectorPlan) :
    Except NapiFault (NapiCard × Bool) :=
  (s.setNum p plan.numQVectors).ixgbeAllocQVectors p plan

def ixgbeClearInterruptScheme (s : NapiCard) (p : Port) : Except NapiFault NapiCard := do
  let s ← (s.setNum p 0).freeBelow p (s.numQVectors p)
  -- reinit the dev->napi_list
  return { s with links := s.links.init 0 }

/-! ## Calls -/

def nextPort (s : NapiCard) : Port := if s.probed .primary then .secondary else .primary

/-- The step at which a probe fails before `ixgbe_init_interrupt_scheme`. -/
def earlyFailure (p : Port) (fails : Option ProbeStep) : Option ProbeStep :=
  fails.filter fun step => step.taken (p = .primary) && step ≠ .interruptScheme

/-- The fault of a probe that fails at a step, which is one unless `pci_enable_device_mem` fails or
    the primary adapter is there and its own: see `Driver.probeFails`. -/
def stepFault (p : Port) : ProbeStep → Option NapiFault
  | .enableDevice => none
  | .dmaMask | .requestRegions | .allocAdapter => some (.slot (.null .adapter))
  | _ => if p = .primary then none else some (.slot (.released .primary))

/-- `ixgbe_probe`.  The primary port makes the net device, and the adapter of either is new. -/
def ixgbeProbe (s : NapiCard) (fails : Option ProbeStep) (registered : Bool) (plan : VectorPlan) :
    Except NapiFault NapiCard :=
  if s.probed .secondary then .ok s
  else
    let p : Port := s.nextPort
    match earlyFailure p fails with
    | some step => (stepFault p step).elim (.ok s) .error
    | none => do
      let new := { s with
        links := if p = Port.primary then s.links.init 0 else s.links
        qVector := Function.update s.qVector p fun _ => none
        numQVectors := Function.update s.numQVectors p 0 }
      let (t, ok) ← new.ixgbeInitInterruptScheme p plan
      if ok then
        if p = Port.secondary ∧ !registered then .error (.slot (.released .primary))
        else return { t with probed := Function.update t.probed p true }
      -- the net device of a primary port that fails is not the one of the card
      else (stepFault p .interruptScheme).elim (.ok s) .error

/-- `ixgbe_remove`: it reads the secondary adapter that is not there, or writes to the primary one
    after `free_netdev`, as in `Driver.ixgbeRemove`. -/
def ixgbeRemove (s : NapiCard) : Except NapiFault NapiCard :=
  if s.probed .secondary then .error (.slot (.released .primary))
  else .error (.slot (.null .secondary))

/-- `ixgbe_reinit_locked_change_queues` of the primary adapter, which ignores what
    `ixgbe_init_interrupt_scheme` returns. -/
def ixgbeReinitLockedChangeQueues (s : NapiCard) (plan : VectorPlan) :
    Except NapiFault NapiCard := do
  let s ← s.ixgbeClearInterruptScheme .primary
  let (s, _) ← s.ixgbeInitInterruptScheme .primary plan
  return s

def ChangesQueues (s : NapiCard) (newMtu : Int32) : Prop :=
  QueueCard.mtuAccepted newMtu = true ∧ s.running = true ∧ QueueCard.crosses s.mtu newMtu = true

instance (s : NapiCard) (newMtu : Int32) : Decidable (s.ChangesQueues newMtu) :=
  inferInstanceAs (Decidable (_ ∧ _ ∧ _))

def ixgbeChangeMtu (s : NapiCard) (newMtu : Int32) (plan : VectorPlan) :
    Except NapiFault NapiCard :=
  let t := if QueueCard.mtuAccepted newMtu then { s with mtu := newMtu } else s
  if s.ChangesQueues newMtu then t.ixgbeReinitLockedChangeQueues plan else .ok t

def exec (s : NapiCard) : NapiOp → Except NapiFault NapiCard
  | .probe fails registered plan => s.ixgbeProbe fails registered plan
  | .remove => s.ixgbeRemove
  | .setRunning running => .ok { s with running }
  | .changeMtu newMtu plan => s.ixgbeChangeMtu newMtu plan
  | .suspend p => s.ixgbeClearInterruptScheme p
  | .resume p plan => do
    let (s, _) ← s.ixgbeInitInterruptScheme p plan
    return s

/-! ## Steps -/

def napis (s : NapiCard) : Set Nat := {a | ∃ p vIdx, s.qVector p vIdx = some a}

/-- The vectors that `ixgbe_clear_interrupt_scheme` of the port frees. -/
def Frees (s : NapiCard) (p q : Port) (vIdx : Nat) : Prop := q = p ∧ vIdx < s.numQVectors p

/-- `kzalloc` returns objects that are not in use, each one once, and not the head of the list. -/
structure Fresh (plan : VectorPlan) (used : Set Nat) : Prop where
  ne_head : ∀ vIdx, plan.kzalloc vIdx ≠ some 0
  unused : ∀ vIdx a, plan.kzalloc vIdx = some a → a ∉ used
  inj : ∀ i j a, plan.kzalloc i = some a → plan.kzalloc j = some a → i = j

def Enabled (s : NapiCard) : NapiOp → Prop
  | .probe _ _ plan => Fresh plan s.napis
  | .remove => s.probed .primary = true
  | .setRunning _ => s.probed .secondary = true
  | .changeMtu _ plan => s.probed .secondary = true ∧
      Fresh plan {a | ∃ q vIdx, s.qVector q vIdx = some a ∧ ¬s.Frees .primary q vIdx}
  | .suspend p => s.probed p = true
  | .resume p plan => s.probed p = true ∧ Fresh plan s.napis

end NapiCard

def NapiStep (r : Except NapiFault NapiCard) (op : NapiOp) (t : Except NapiFault NapiCard) :
    Prop :=
  match r with
  | .ok s => s.Enabled op ∧ t = s.exec op
  | .error _ => False

theorem NapiStep.unique {r t t' : Except NapiFault NapiCard} {op : NapiOp}
    (h : NapiStep r op t) (h' : NapiStep r op t') : t = t' := by
  cases r with
  | error f => exact h.elim
  | ok s => exact h.2.trans h'.2.symm

/-! ## What is promised -/

/-- The list is well formed and has exactly the vectors of both ports. -/
def ListExact : Except NapiFault NapiCard → Prop
  | .ok s => Lists s.links 0 s.napis
  | .error _ => False

def VectorPlan.reached (plan : VectorPlan) : List Nat :=
  (plan.fcoe ++ List.range plan.plain).takeWhile fun vIdx => (plan.kzalloc vIdx).isSome

/-- The call does no harm to the vectors that are there. -/
def KeepsVectors : Except NapiFault NapiCard → NapiOp → Prop
  | .ok s, .probe fails registered plan => s.probed .secondary = true ∨
      match NapiCard.earlyFailure s.nextPort fails with
      | some step => NapiCard.stepFault s.nextPort step = none
      | none => s.nextPort = .primary ∨
          registered = true ∧ plan.reached = plan.fcoe ++ List.range plan.plain
  | .ok _, .remove => False
  | .ok _, .setRunning _ => True
  | .ok s, .changeMtu newMtu plan => s.ChangesQueues newMtu → ∀ q vIdx,
      s.qVector q vIdx ≠ none → s.Frees .primary q vIdx ∨ q = .primary ∧ vIdx ∈ plan.reached
  | .ok s, .suspend p => ∀ q vIdx, s.qVector q vIdx ≠ none → s.Frees p q vIdx
  | .ok s, .resume p plan => ∀ vIdx ∈ plan.reached, s.qVector p vIdx = none
  | .error _, _ => True

namespace NapiCard

variable {s t : NapiCard} {p q : Port} {L : Set Nat} {plan : VectorPlan}

/-! ## Setting and freeing vectors -/

theorem setQVector_self (s : NapiCard) (p : Port) (vIdx : Nat) (v : Option Nat) :
    (s.setQVector p vIdx v).qVector p vIdx = v := by
  simp [setQVector]

theorem setQVector_of_ne (s : NapiCard) {vIdx i : Nat} (h : ¬(q = p ∧ i = vIdx)) (v : Option Nat) :
    (s.setQVector p vIdx v).qVector q i = s.qVector q i := by
  by_cases hq : q = p
  · show Function.update s.qVector p _ q i = _
    rw [hq, Function.update_self, Function.update_of_ne fun hi => h ⟨hq, hi⟩]
  · show Function.update s.qVector p _ q i = _
    rw [Function.update_of_ne hq]

def Rest (s t : NapiCard) : Prop :=
  t.probed = s.probed ∧ t.mtu = s.mtu ∧ t.running = s.running

/-- **Freeing** the vectors below `v` takes them off the list. -/
theorem freeBelow_spec {v : Nat} (hlist : Lists s.links 0 L)
    (hmem : ∀ i < v, ∃ a ∈ L, s.qVector p i = some a)
    (hinj : ∀ i j a, i < v → j < v → s.qVector p i = some a → s.qVector p j = some a → i = j) :
    ∃ t, s.freeBelow p v = .ok t ∧
      Lists t.links 0 (L \ {a | ∃ i < v, s.qVector p i = some a}) ∧
      (∀ q i, t.qVector q i = if q = p ∧ i < v then none else s.qVector q i) ∧
      t.numQVectors = s.numQVectors ∧ Rest s t := by
  -- the last vector is freed first
  induction v generalizing s L with
  | zero => exact ⟨s, rfl, by simpa using hlist, by simp, rfl, rfl, rfl, rfl⟩
  | succ v ih =>
    obtain ⟨a, ha, hva⟩ := hmem v (Nat.lt_succ_self v)
    let u : NapiCard := { s with links := s.links.removeInit a }.setQVector p v none
    have hother : ∀ i, i < v → u.qVector p i = s.qVector p i := by
      intro i hi
      exact setQVector_of_ne _ (fun h => absurd h.2 (by omega)) none
    have hulist : Lists u.links 0 (L \ {a}) := hlist.removeInit ha
    have humem : ∀ i < v, ∃ b ∈ L \ {a}, u.qVector p i = some b := by
      intro i hi
      obtain ⟨b, hb, hib⟩ := hmem i (by omega)
      refine ⟨b, ⟨hb, fun hba => ?_⟩, (hother i hi).trans hib⟩
      rw [Set.mem_singleton_iff.mp hba] at hib
      exact absurd (hinj i v a (by omega) (by omega) hib hva) (by omega)
    have huinj : ∀ i j b, i < v → j < v → u.qVector p i = some b → u.qVector p j = some b →
        i = j := by
      intro i j b hi hj hib hjb
      rw [hother i hi] at hib
      rw [hother j hj] at hjb
      exact hinj i j b (by omega) (by omega) hib hjb
    obtain ⟨t, hrun, htlist, htq, hnum, hrest⟩ := ih hulist humem huinj
    refine ⟨t, ?_, ?_, ?_, hnum, hrest⟩
    · rw [freeBelow, ixgbeFreeQVector, hva]
      exact hrun
    · convert htlist using 1
      ext b
      simp only [Set.mem_sdiff, Set.mem_ofPred_eq, Set.mem_singleton_iff, not_exists, not_and]
      constructor
      · rintro ⟨hb, hno⟩
        refine ⟨⟨hb, fun hba => hno v (Nat.lt_succ_self v) (hba ▸ hva)⟩, fun i hi hib => ?_⟩
        rw [hother i hi] at hib
        exact hno i (by omega) hib
      · rintro ⟨⟨hb, hba⟩, hno⟩
        refine ⟨hb, fun i hi hib => ?_⟩
        rcases Nat.lt_succ_iff_lt_or_eq.mp hi with hiv | rfl
        · exact hno i hiv ((hother i hiv).trans hib)
        · exact hba (Option.some.inj (hib.symm.trans hva))
    · intro q i
      rw [htq]
      by_cases hiv : q = p ∧ i = v
      · obtain ⟨rfl, rfl⟩ := hiv
        rw [if_neg (by simp), if_pos (by simp)]
        exact setQVector_self ..
      · have hlt : q = p ∧ i < v + 1 ↔ q = p ∧ i < v := by
          refine and_congr_right fun hq => ?_
          have hne : i ≠ v := fun hi => hiv ⟨hq, hi⟩
          omega
        simp only [hlt]
        split
        · rfl
        · exact setQVector_of_ne _ hiv none

/-- **Allocating** the vectors of a loop puts them on the list, up to the first without memory. -/
theorem allocVectors_spec {kzalloc : Nat → Option Nat} {order : List Nat}
    (hlist : Lists s.links 0 L) (hnodup : order.Nodup) (hne : ∀ i, kzalloc i ≠ some 0)
    (hunused : ∀ i ∈ order, ∀ a, kzalloc i = some a → a ∉ L)
    (hinj : ∀ i j a, kzalloc i = some a → kzalloc j = some a → i = j) :
    ∃ t failed, s.allocVectors p kzalloc order = (t, failed) ∧
      Lists t.links 0
        (L ∪ {a | ∃ i ∈ order.takeWhile fun i => (kzalloc i).isSome, kzalloc i = some a}) ∧
      (∀ q i, t.qVector q i =
        if q = p ∧ i ∈ order.takeWhile fun i => (kzalloc i).isSome then kzalloc i
        else s.qVector q i) ∧
      t.numQVectors = s.numQVectors ∧ Rest s t ∧
      (failed = none ∧ (order.takeWhile fun i => (kzalloc i).isSome) = order ∨
        ∃ v rest, failed = some v ∧
          order = (order.takeWhile fun i => (kzalloc i).isSome) ++ v :: rest) := by
  -- the induction is on the vectors that are still to be allocated
  induction order generalizing s L with
  | nil =>
    refine ⟨s, none, rfl, ?_, by simp, rfl, ⟨rfl, rfl, rfl⟩, .inl ⟨rfl, rfl⟩⟩
    simpa using hlist
  | cons v order ih =>
    obtain ⟨hv, hnodup'⟩ := List.nodup_cons.mp hnodup
    cases hkv : kzalloc v with
    | none =>
      rw [List.takeWhile_cons_of_neg (by simp [hkv])]
      refine ⟨s, some v, by rw [allocVectors, hkv], ?_, by simp, rfl, ⟨rfl, rfl, rfl⟩,
        .inr ⟨v, order, rfl, rfl⟩⟩
      simpa using hlist
    | some a =>
      rw [List.takeWhile_cons_of_pos (by simp [hkv])]
      have haL : a ∉ L := hunused v (by simp) a hkv
      have ha0 : a ≠ 0 := fun h0 => hne v (h0 ▸ hkv)
      have hadd : Lists (s.ixgbeAllocQVector p v a).links 0 (insert a L) := hlist.add haL ha0
      have hunused' : ∀ i ∈ order, ∀ b, kzalloc i = some b → b ∉ insert a L := by
        intro i hi b hib hb
        -- a block is given out once
        rcases Set.mem_insert_iff.mp hb with rfl | hb
        · exact hv (hinj i v b hib hkv ▸ hi)
        · exact hunused i (List.mem_cons_of_mem v hi) b hib hb
      obtain ⟨t, failed, hrun, htlist, htq, hnum, hrest, hfailed⟩ := ih hadd hnodup' hunused'
      refine ⟨t, failed, by rw [allocVectors, hkv]; exact hrun, ?_, ?_, hnum, hrest, ?_⟩
      · convert htlist using 1
        ext b
        simp only [Set.mem_union, Set.mem_ofPred_eq, Set.mem_insert_iff, List.mem_cons,
          exists_eq_or_imp, hkv, Option.some.injEq]
        rw [eq_comm (a := a)]
        tauto
      · intro q i
        rw [htq]
        by_cases hqi : q = p ∧ i = v
        · obtain ⟨rfl, rfl⟩ := hqi
          have hno : i ∉ order.takeWhile fun i => (kzalloc i).isSome :=
            fun hmem => hv (List.takeWhile_subset _ hmem)
          rw [if_neg (fun h => hno h.2), if_pos ⟨rfl, List.mem_cons_self⟩, hkv]
          exact setQVector_self ..
        · have hiff : (q = p ∧ i ∈ v :: order.takeWhile fun i => (kzalloc i).isSome) ↔
              q = p ∧ i ∈ order.takeWhile fun i => (kzalloc i).isSome := by
            refine and_congr_right fun hq => ?_
            rw [List.mem_cons, or_iff_right fun hi => hqi ⟨hq, hi⟩]
          simp only [hiff]
          split
          · rfl
          · exact setQVector_of_ne _ hqi _
      · rcases hfailed with ⟨hnone, heq⟩ | ⟨w, rest, hw, heq⟩
        · exact .inl ⟨hnone, by rw [heq]⟩
        · exact .inr ⟨w, rest, hw, by rw [List.cons_append, ← heq]⟩

theorem range_eq_of_append {n v : Nat} {l rest : List Nat} (h : List.range n = l ++ v :: rest) :
    l = List.range v := by
  have hlen := congrArg List.length h
  simp only [List.length_range, List.length_append, List.length_cons] at hlen
  have hv : v = l.length := by
    have hget := congrArg (·[l.length]?) h
    rw [List.getElem?_append_right le_rfl, Nat.sub_self, List.getElem?_range (by omega)] at hget
    exact (Option.some.inj hget).symm
  have htake := congrArg (List.take l.length) h
  rw [List.take_left, List.take_range, Nat.min_eq_left (by omega)] at htake
  rw [hv]
  exact htake.symm

theorem mem_fcoe {i : Nat} : i ∈ plan.fcoe ↔ plan.plain ≤ i ∧ i < plan.numQVectors := by
  unfold VectorPlan.fcoe VectorPlan.numQVectors
  rw [List.mem_flatMap]
  constructor
  · rintro ⟨j, hj, hi⟩
    rw [List.mem_range] at hj
    rcases List.mem_pair.mp hi with rfl | rfl <;> omega
  · rintro ⟨hle, hlt⟩
    by_cases hi : i < plan.plain + plan.split
    · exact ⟨i - plan.plain, List.mem_range.mpr (by omega), by simp; omega⟩
    · exact ⟨i - plan.plain - plan.split, List.mem_range.mpr (by omega), by simp; omega⟩

theorem nodup_fcoe (plan : VectorPlan) : plan.fcoe.Nodup := by
  unfold VectorPlan.fcoe
  rw [List.nodup_flatMap]
  constructor
  · intro i hi
    rw [List.mem_range] at hi
    simp
    omega
  · refine List.Pairwise.imp_of_mem ?_ List.nodup_range
    intro i j hi hj hne
    rw [List.mem_range] at hi hj
    simp [Function.onFun, List.disjoint_left]
    omega

/-! ## Making and clearing the vectors of a port -/

/-- What `ixgbe_init_interrupt_scheme` does when the list has the objects of `L`, as far as it gets
    with the memory there is. -/
structure Inits (s t : NapiCard) (p : Port) (plan : VectorPlan) (L : Set Nat) : Prop where
  others : ∀ q i, ¬(q = p ∧ i ∈ plan.reached) → t.qVector q i = s.qVector q i
  new : ∀ i ∈ plan.reached, ∀ a, t.qVector p i = some a → plan.kzalloc i = some a
  lists : Lists t.links 0 (L ∪ {a | ∃ i ∈ plan.reached, t.qVector p i = some a})
  num : ∀ q, q ≠ p → t.numQVectors q = s.numQVectors q
  below : ∀ i < t.numQVectors p, t.qVector p i ≠ none
  rest : Rest s t

theorem Inits.of_kept {F : Nat → Prop} [DecidablePred F] (hq : ∀ q i, t.qVector q i =
      if q = p ∧ i ∈ plan.reached then if F i then none else plan.kzalloc i
      else s.qVector q i)
    (hlist : Lists t.links 0 (L ∪ {a | ∃ i ∈ plan.reached, ¬F i ∧ plan.kzalloc i = some a}))
    (hnum : ∀ q, q ≠ p → t.numQVectors q = s.numQVectors q)
    (hbelow : ∀ i < t.numQVectors p, t.qVector p i ≠ none) (hrest : Rest s t) :
    Inits s t p plan L := by
  have hat : ∀ i ∈ plan.reached, ∀ a, t.qVector p i = some a ↔ ¬F i ∧ plan.kzalloc i = some a := by
    intro i hi a
    rw [hq, if_pos ⟨rfl, hi⟩]
    split
    · next hf => simp [hf]
    · next hf => simp [hf]
  refine ⟨fun q i h => by rw [hq, if_neg h], fun i hi a h => ((hat i hi a).mp h).2, ?_, hnum,
    hbelow, hrest⟩
  convert hlist using 2
  ext a
  exact exists_congr fun i => and_congr_right fun hi => hat i hi a

theorem setNum_of_ne (s : NapiCard) (h : q ≠ p) (n : Nat) :
    (s.setNum p n).numQVectors q = s.numQVectors q := Function.update_of_ne h ..

theorem setNum_self (s : NapiCard) (p : Port) (n : Nat) : (s.setNum p n).numQVectors p = n :=
  Function.update_self ..

theorem inits_freeBelow {w : NapiCard} {v : Nat} (hfresh : Fresh plan L)
    (hlist : Lists w.links 0 (L ∪ {a | ∃ i ∈ plan.reached, plan.kzalloc i = some a}))
    (hq : ∀ q i, w.qVector q i = if q = p ∧ i ∈ plan.reached then plan.kzalloc i
      else s.qVector q i)
    (hreach : ∀ i, i ∈ plan.reached ↔ i ∈ plan.fcoe ∨ i < v)
    (hsome : ∀ i < v, ∃ a, plan.kzalloc i = some a)
    (hnum : ∀ q, q ≠ p → w.numQVectors q = s.numQVectors q) (hrest : Rest s w) :
    ∃ t, (w.setNum p 0).freeBelow p v = .ok t ∧ Inits s t p plan L := by
  have hget : ∀ i < v, (w.setNum p 0).qVector p i = plan.kzalloc i := by
    intro i hi
    show w.qVector p i = _
    rw [hq, if_pos ⟨rfl, (hreach i).mpr (.inr hi)⟩]
  obtain ⟨t, hfree, htlist, htq, htnum, htrest⟩ :=
    freeBelow_spec (s := w.setNum p 0) (p := p) (v := v) hlist (fun i hi => by
      obtain ⟨a, ha⟩ := hsome i hi
      exact ⟨a, .inr ⟨i, (hreach i).mpr (.inr hi), ha⟩, (hget i hi).trans ha⟩)
      fun i j a hi hj hia hja => hfresh.inj i j a ((hget i hi).symm.trans hia)
        ((hget j hj).symm.trans hja)
  refine ⟨t, hfree, .of_kept (F := (· < v)) (fun q i => ?_) ?_ ?_ ?_ ?_⟩
  · rw [htq]
    show (if _ then _ else w.qVector q i) = _
    rw [hq]
    by_cases hqp : q = p <;> by_cases hi : i < v <;> simp [hreach, hqp, hi]
  -- what is listed: what was before, and the new ones that were not freed again
  · convert htlist using 1
    ext a
    constructor
    · rintro (ha | ⟨i, hi, hiv, hia⟩)
      · refine ⟨.inl ha, ?_⟩
        rintro ⟨j, hj, hja⟩
        exact hfresh.unused j a ((hget j hj).symm.trans hja) ha
      · refine ⟨.inr ⟨i, hi, hia⟩, ?_⟩
        rintro ⟨j, hj, hja⟩
        exact hiv (hfresh.inj i j a hia ((hget j hj).symm.trans hja) ▸ hj)
    · rintro ⟨ha | ⟨i, hi, hia⟩, hno⟩
      · exact .inl ha
      · exact .inr ⟨i, hi, fun hiv => hno ⟨i, hiv, (hget i hiv).trans hia⟩, hia⟩
  · intro q hq
    rw [htnum, setNum_of_ne _ hq]
    exact hnum q hq
  · intro i hi
    rw [htnum, setNum_self] at hi
    omega
  · exact ⟨htrest.1.trans hrest.1, htrest.2.1.trans hrest.2.1, htrest.2.2.trans hrest.2.2⟩

theorem ixgbeInitInterruptScheme_spec (hlist : Lists s.links 0 L) (hfresh : Fresh plan L)
    (p : Port) :
    ∃ t ok, s.ixgbeInitInterruptScheme p plan = .ok (t, ok) ∧ Inits s t p plan L ∧
      (ok = true ↔ plan.reached = plan.fcoe ++ List.range plan.plain) := by
  let k : Nat → Bool := fun i => (plan.kzalloc i).isSome
  have hreached : plan.reached = (plan.fcoe ++ List.range plan.plain).takeWhile k := rfl
  obtain ⟨u, failed, hrun, hulist, huq, hunum, hurest, hfailed⟩ :=
    allocVectors_spec (s := s.setNum p plan.numQVectors) (p := p) hlist (nodup_fcoe plan)
      hfresh.ne_head (fun i _ => hfresh.unused i) hfresh.inj
  have hkept : ∀ q, q ≠ p → u.numQVectors q = s.numQVectors q := by
    intro q hq
    rw [hunum, setNum_of_ne _ hq]
  unfold ixgbeInitInterruptScheme ixgbeAllocQVectors
  rw [hrun]
  rcases hfailed with ⟨rfl, hall⟩ | ⟨v, rest, rfl, hsplit⟩
  · rw [hall] at hulist huq
    have hrange : plan.reached = plan.fcoe ++ (List.range plan.plain).takeWhile k := by
      rw [hreached, List.takeWhile_append, if_pos (by rw [hall])]
    have hunused : ∀ i ∈ List.range plan.plain, ∀ a, plan.kzalloc i = some a →
        a ∉ L ∪ {a | ∃ i ∈ plan.fcoe, plan.kzalloc i = some a} := by
      rintro i hi a hia (ha | ⟨j, hj, hja⟩)
      · exact hfresh.unused i a hia ha
      · have hle := (mem_fcoe.mp (hfresh.inj i j a hia hja ▸ hj)).1
        exact absurd (List.mem_range.mp hi) (by omega)
    obtain ⟨w, failed, hrun', hwlist, hwq, hwnum, hwrest, hfailed⟩ :=
      allocVectors_spec (s := u) (p := p) hulist List.nodup_range hfresh.ne_head hunused hfresh.inj
    have hwfull : ∀ q i, w.qVector q i = if q = p ∧ i ∈ plan.reached then plan.kzalloc i
        else s.qVector q i := by
      intro q i
      have hmem : i ∈ plan.reached ↔ i ∈ plan.fcoe ∨ i ∈ (List.range plan.plain).takeWhile k := by
        rw [hrange, List.mem_append]
      rw [hwq, huq]
      show (if q = p ∧ i ∈ (List.range plan.plain).takeWhile k then _ else _) = _
      by_cases hqp : q = p <;> by_cases hf : i ∈ plan.fcoe <;>
        by_cases hr : i ∈ (List.range plan.plain).takeWhile k <;> simp [hmem, hqp, hf, hr, setNum]
    have hwall : Lists w.links 0 (L ∪ {a | ∃ i ∈ plan.reached, plan.kzalloc i = some a}) := by
      convert hwlist using 1
      rw [Set.union_assoc, hrange]
      congr 1
      ext a
      simp only [Set.mem_ofPred_eq, Set.mem_union, List.mem_append, or_and_right, exists_or]
      rfl
    rcases hfailed with ⟨rfl, hall'⟩ | ⟨v, rest, rfl, hsplit⟩
    · -- there is memory for all
      have hfull : plan.reached = plan.fcoe ++ List.range plan.plain := by
        rw [hrange, hall']
      refine ⟨w, true, by simp only [hrun'], ?_, iff_of_true rfl hfull⟩
      refine .of_kept (F := fun _ => False) (fun q i => ?_) (by simpa using hwall) ?_ ?_ ?_
      · rw [if_neg id]
        exact hwfull q i
      · exact fun q hq => (congrFun hwnum q).trans (hkept q hq)
      · intro i hi
        have hi' : i ∈ plan.reached := by
          rw [hwnum, hunum, setNum_self] at hi
          rw [hfull, List.mem_append, mem_fcoe, List.mem_range]
          omega
        have hk : k i = true := List.all_eq_true.mp List.all_takeWhile i (hreached ▸ hi')
        rw [hwfull, if_pos ⟨rfl, hi'⟩]
        exact Option.isSome_iff_ne_none.mp hk
      · exact ⟨hwrest.1.trans hurest.1, hwrest.2.1.trans hurest.2.1, hwrest.2.2.trans hurest.2.2⟩
    · -- the vectors before `v` are freed again
      have hv := range_eq_of_append hsplit
      have hvlt : v < plan.plain := List.mem_range.mp (hsplit ▸ by simp)
      have hreach : ∀ i, i ∈ plan.reached ↔ i ∈ plan.fcoe ∨ i < v := by
        intro i
        rw [hrange, List.mem_append, hv, List.mem_range]
      have hsome : ∀ i < v, ∃ a, plan.kzalloc i = some a := by
        intro i hi
        have hmem : i ∈ (List.range plan.plain).takeWhile k := hv ▸ List.mem_range.mpr hi
        exact Option.isSome_iff_exists.mp (List.all_eq_true.mp List.all_takeWhile i hmem)
      have hwnum' : ∀ q, q ≠ p → w.numQVectors q = s.numQVectors q :=
        fun q hq => (congrFun hwnum q).trans (hkept q hq)
      have hrest : Rest s w :=
        ⟨hwrest.1.trans hurest.1, hwrest.2.1.trans hurest.2.1, hwrest.2.2.trans hurest.2.2⟩
      obtain ⟨t, hfree, hinits⟩ := inits_freeBelow hfresh hwall hwfull hreach hsome hwnum' hrest
      refine ⟨t, false, ?_, hinits, ?_⟩
      · simp only [hrun']
        exact bind_eq_ok.mpr ⟨t, hfree, rfl⟩
      · refine iff_of_false (by simp) fun hfull => ?_
        have hmem : v ∈ plan.reached := by
          rw [hfull]
          exact List.mem_append_right _ (List.mem_range.mpr hvlt)
        rcases (hreach v).mp hmem with hf | hlt
        · have hle := (mem_fcoe.mp hf).1
          omega
        · omega
  · -- an FCoE vector fails, and the ones before it stay
    change plan.fcoe = plan.fcoe.takeWhile k ++ v :: rest at hsplit
    have hlt : (plan.fcoe.takeWhile k).length ≠ plan.fcoe.length := by
      have hlen := congrArg List.length hsplit
      simp only [List.length_append, List.length_cons] at hlen
      exact fun heq => by rw [heq] at hlen; omega
    have heq : plan.reached = plan.fcoe.takeWhile k := by
      rw [hreached, List.takeWhile_append, if_neg hlt]
    refine ⟨u.setNum p 0, false, rfl, ?_, ?_⟩
    · refine .of_kept (F := fun _ => False) ?_ ?_ ?_ ?_ hurest
      · intro q i
        rw [heq, if_neg id]
        exact huq q i
      · rw [heq]
        show Lists u.links 0 _
        simpa using hulist
      · exact fun q hq => (setNum_of_ne _ hq 0).trans (hkept q hq)
      · intro i hi
        rw [setNum_self] at hi
        omega
    · refine iff_of_false (by simp) fun hfull => ?_
      rw [heq] at hfull
      have hlen := congrArg List.length hsplit
      have hlen' := congrArg List.length hfull
      simp only [List.length_append, List.length_cons] at hlen hlen'
      omega

/-! ## The invariant -/

/-- The list is exact, each vector has its own address and those that will be freed are there. -/
structure NapiOk (s : NapiCard) : Prop where
  lists : Lists s.links 0 s.napis
  inj : ∀ p q i j a, s.qVector p i = some a → s.qVector q j = some a → p = q ∧ i = j
  below : ∀ p, ∀ i < s.numQVectors p, s.qVector p i ≠ none
  gone : ∀ p, s.probed p = false → ∀ i, s.qVector p i = none
  order : s.probed .secondary = true → s.probed .primary = true

/-- **Clearing** a port frees its vectors, and empties the list. -/
theorem ixgbeClearInterruptScheme_spec (h : NapiOk s) (p : Port) :
    ∃ t, s.ixgbeClearInterruptScheme p = .ok t ∧ Lists t.links 0 ∅ ∧
      (∀ q i, t.qVector q i = if q = p ∧ i < s.numQVectors p then none else s.qVector q i) ∧
      t.numQVectors = Function.update s.numQVectors p 0 ∧ Rest s t := by
  obtain ⟨t, hfree, -, hq, hnum, hrest⟩ :=
    freeBelow_spec (s := s.setNum p 0) (p := p) (v := s.numQVectors p) h.lists (fun i hi => by
      obtain ⟨a, ha⟩ := Option.ne_none_iff_exists'.mp (h.below p i hi)
      exact ⟨a, ⟨p, i, ha⟩, ha⟩) fun i j a _ _ hi hj => (h.inj p p i j a hi hj).2
  refine ⟨{ t with links := t.links.init 0 }, bind_eq_ok.mpr ⟨t, hfree, rfl⟩, .init _ 0, hq, hnum,
    hrest⟩

theorem Inits.napiOk (h : Inits s t p plan L) (probed : Port → Bool)
    (hlists : t.napis = L ∪ {a | ∃ i ∈ plan.reached, t.qVector p i = some a})
    (hfresh : Fresh plan s.napis)
    (hinj : ∀ p q i j a, s.qVector p i = some a → s.qVector q j = some a → p = q ∧ i = j)
    (hbelow : ∀ q, q ≠ p → ∀ i < s.numQVectors q, s.qVector q i ≠ none)
    (hgone : ∀ q, probed q = false → ∀ i, t.qVector q i = none)
    (horder : probed .secondary = true → probed .primary = true) : NapiOk { t with probed } := by
  refine ⟨show Lists t.links 0 t.napis from hlists ▸ h.lists, ?_, ?_, hgone, horder⟩
  · intro q r i j a hi hj
    by_cases hqi : q = p ∧ i ∈ plan.reached <;> by_cases hrj : r = p ∧ j ∈ plan.reached
    · obtain ⟨rfl, hi'⟩ := hqi
      obtain ⟨rfl, hj'⟩ := hrj
      exact ⟨rfl, hfresh.inj i j a (h.new i hi' a hi) (h.new j hj' a hj)⟩
    · obtain ⟨rfl, hi'⟩ := hqi
      rw [h.others r j hrj] at hj
      exact absurd ⟨r, j, hj⟩ (hfresh.unused i a (h.new i hi' a hi))
    · obtain ⟨rfl, hj'⟩ := hrj
      rw [h.others q i hqi] at hi
      exact absurd ⟨q, i, hi⟩ (hfresh.unused j a (h.new j hj' a hj))
    · rw [h.others q i hqi] at hi
      rw [h.others r j hrj] at hj
      exact hinj q r i j a hi hj
  · intro q i hi
    by_cases hq : q = p
    · subst hq
      exact h.below i hi
    · rw [h.others q i fun hqi => hq hqi.1]
      rw [h.num q hq] at hi
      exact hbelow q hq i hi

theorem Inits.napis_eq (h : Inits s t p plan L) :
    t.napis = {a | ∃ q i, ¬(q = p ∧ i ∈ plan.reached) ∧ s.qVector q i = some a} ∪
      {a | ∃ i ∈ plan.reached, t.qVector p i = some a} := by
  ext a
  constructor
  · rintro ⟨q, i, hi⟩
    by_cases hqi : q = p ∧ i ∈ plan.reached
    · exact .inr ⟨i, hqi.2, hqi.1 ▸ hi⟩
    · exact .inl ⟨q, i, hqi, (h.others q i hqi) ▸ hi⟩
  · rintro (⟨q, i, hqi, hi⟩ | ⟨i, -, hi⟩)
    · exact ⟨q, i, (h.others q i hqi).trans hi⟩
    · exact ⟨p, i, hi⟩

end NapiCard

def NapiInv : Except NapiFault NapiCard → Prop
  | .ok s => s.NapiOk
  | .error _ => False

theorem NapiInv.listExact {r : Except NapiFault NapiCard} (h : NapiInv r) : ListExact r := by
  cases r with
  | ok s => exact NapiCard.NapiOk.lists h
  | error f => exact h

namespace NapiCard

variable {s t : NapiCard} {plan : VectorPlan}

/-! ## The calls -/

theorem suspend_step (h : NapiOk s) (p : Port) :
    (KeepsVectors (.ok s) (.suspend p) → NapiInv (s.exec (.suspend p))) ∧
      (ListExact (s.exec (.suspend p)) → KeepsVectors (.ok s) (.suspend p)) := by
  obtain ⟨t, hclear, hlist, hq, hnum, hrest⟩ := ixgbeClearInterruptScheme_spec h p
  rw [exec, hclear]
  constructor
  · intro hguard
    -- all the vectors there are were this port's, and they are freed
    have hnone : ∀ q i, t.qVector q i = none := by
      intro q i
      rw [hq]
      split
      · rfl
      · next hno => exact not_not.mp fun hsome => hno (hguard q i hsome)
    have hempty : t.napis = ∅ := by
      ext a
      simp [napis, hnone]
    refine ⟨hempty ▸ hlist, fun q r i j a hi => ?_, fun q i hi => ?_, fun q _ i => hnone q i, ?_⟩
    · rw [hnone] at hi
      cases hi
    · rw [hnum] at hi
      by_cases hqp : q = p
      · rw [hqp, Function.update_self] at hi
        omega
      · rw [Function.update_of_ne hqp] at hi
        exact absurd (hguard q i (h.below q i hi)).1 hqp
    · rw [hrest.1]
      exact h.order
  -- a vector of the other port is still there, but it is off the list
  · intro hexact q i hsome
    by_contra hno
    obtain ⟨a, ha⟩ := Option.ne_none_iff_exists'.mp hsome
    have hmem : a ∈ t.napis := ⟨q, i, by rw [hq, if_neg (show ¬(q = p ∧ _) from hno), ha]⟩
    rw [← hlist.unique hexact] at hmem
    exact hmem

theorem resume_step (h : NapiOk s) (henabled : s.Enabled (.resume p plan)) :
    (KeepsVectors (.ok s) (.resume p plan) → NapiInv (s.exec (.resume p plan))) ∧
      (ListExact (s.exec (.resume p plan)) → KeepsVectors (.ok s) (.resume p plan)) := by
  obtain ⟨hprobed, hfresh⟩ := henabled
  obtain ⟨t, ok, hinit, hspec, -⟩ := ixgbeInitInterruptScheme_spec h.lists hfresh p
  rw [exec, hinit]
  constructor
  · intro hguard
    refine hspec.napiOk t.probed ?_ hfresh h.inj (fun q _ => h.below q) ?_ ?_
    · rw [hspec.napis_eq]
      congr 1
      ext a
      constructor
      · rintro ⟨q, i, -, hi⟩
        exact ⟨q, i, hi⟩
      · rintro ⟨q, i, hi⟩
        refine ⟨q, i, ?_, hi⟩
        rintro ⟨rfl, hreach⟩
        rw [hguard i hreach] at hi
        cases hi
    · intro q hq i
      -- the port that resumes is probed, so this is the other one
      have hqp : q ≠ p := by
        rintro rfl
        rw [hspec.rest.1, hprobed] at hq
        cases hq
      rw [hspec.others q i fun hqi => hqp hqi.1]
      exact h.gone q (hspec.rest.1 ▸ hq) i
    · rw [hspec.rest.1]
      exact h.order
  · intro hexact i hreach
    by_contra hsome
    obtain ⟨a, ha⟩ := Option.ne_none_iff_exists'.mp hsome
    have hmem : a ∈ t.napis := by
      rw [(hspec.lists.unique hexact).symm]
      exact .inl ⟨p, i, ha⟩
    rw [hspec.napis_eq] at hmem
    -- a vector that is overwritten stays on the list, and no slot has it
    rcases hmem with ⟨q, j, hqj, hj⟩ | ⟨j, hj, hja⟩
    · obtain ⟨rfl, rfl⟩ := h.inj p q i j a ha hj
      exact hqj ⟨rfl, hreach⟩
    · exact hfresh.unused j a (hspec.new j hj a hja) ⟨p, i, ha⟩

theorem change_queues_step (h : NapiOk s) (hprobed : ∀ q, s.probed q = true)
    (hfresh : Fresh plan {a | ∃ q i, s.qVector q i = some a ∧ ¬s.Frees .primary q i}) :
    ∃ t, s.ixgbeReinitLockedChangeQueues plan = .ok t ∧
      ((∀ q i, s.qVector q i ≠ none → s.Frees .primary q i ∨ q = .primary ∧ i ∈ plan.reached) →
        NapiOk t) ∧
      (Lists t.links 0 t.napis →
        ∀ q i, s.qVector q i ≠ none → s.Frees .primary q i ∨ q = .primary ∧ i ∈ plan.reached) := by
  obtain ⟨u, hclear, hulist, huq, hunum, hurest⟩ := ixgbeClearInterruptScheme_spec h .primary
  -- the vectors that the clearing leaves
  have hkept : ∀ q i a, u.qVector q i = some a ↔ s.qVector q i = some a ∧ ¬s.Frees .primary q i := by
    intro q i a
    rw [huq]
    split
    · next hf => exact iff_of_false nofun fun hi => hi.2 hf
    · next hf => exact ⟨fun hi => ⟨hi, hf⟩, fun hi => hi.1⟩
  have hfresh' : Fresh plan u.napis := by
    refine ⟨hfresh.ne_head, fun i a hi => ?_, hfresh.inj⟩
    rintro ⟨q, j, hj⟩
    exact hfresh.unused i a hi ⟨q, j, (hkept q j a).mp hj⟩
  obtain ⟨t, ok, hinit, hspec, -⟩ := ixgbeInitInterruptScheme_spec hulist
    ⟨hfresh.ne_head, fun _ _ _ => id, hfresh.inj⟩ .primary
  refine ⟨t, ?_, fun hguard => ?_, fun hexact q i hsome => ?_⟩
  · rw [ixgbeReinitLockedChangeQueues, hclear]
    exact bind_eq_ok.mpr ⟨u, rfl, bind_eq_ok.mpr ⟨(t, ok), hinit, rfl⟩⟩
  · refine hspec.napiOk t.probed ?_ hfresh' ?_ ?_ ?_ ?_
    · rw [hspec.napis_eq]
      congr 1
      refine Set.eq_empty_of_forall_notMem ?_
      rintro a ⟨q, i, hqi, hi⟩
      obtain ⟨hs, hf⟩ := (hkept q i a).mp hi
      exact (hguard q i (by simp [hs])).elim hf hqi
    · intro q r i j a hi hj
      exact h.inj q r i j a ((hkept q i a).mp hi).1 ((hkept r j a).mp hj).1
    · intro q hq i hi
      rw [hunum, Function.update_of_ne hq] at hi
      obtain ⟨a, ha⟩ := Option.ne_none_iff_exists'.mp (h.below q i hi)
      rw [(hkept q i a).mpr ⟨ha, fun hf => hq hf.1⟩]
      exact Option.some_ne_none a
    · intro q hq
      rw [hspec.rest.1, hurest.1, hprobed] at hq
      cases hq
    · rw [hspec.rest.1, hurest.1]
      exact h.order
  · by_contra hno
    obtain ⟨hf, hreach⟩ := not_or.mp hno
    obtain ⟨a, ha⟩ := Option.ne_none_iff_exists'.mp hsome
    have hua := (hkept q i a).mpr ⟨ha, hf⟩
    have hmem : a ∈ t.napis := ⟨q, i, (hspec.others q i hreach).trans hua⟩
    rw [(hspec.lists.unique hexact).symm] at hmem
    rcases hmem with hmem | ⟨j, hj, hja⟩
    · exact hmem
    · exact hfresh'.unused j a (hspec.new j hj a hja) ⟨q, i, hua⟩

theorem changeMtu_step {newMtu : Int32} (h : NapiOk s)
    (henabled : s.Enabled (.changeMtu newMtu plan)) :
    (KeepsVectors (.ok s) (.changeMtu newMtu plan) → NapiInv (s.exec (.changeMtu newMtu plan))) ∧
      (ListExact (s.exec (.changeMtu newMtu plan)) →
        KeepsVectors (.ok s) (.changeMtu newMtu plan)) := by
  obtain ⟨hsec, hfresh⟩ := henabled
  have hprobed : ∀ q, s.probed q = true := Port.forall_iff.mpr ⟨h.order hsec, hsec⟩
  have hmtu : ∀ mtu, NapiOk { s with mtu } := fun _ => ⟨h.lists, h.inj, h.below, h.gone, h.order⟩
  rw [exec, ixgbeChangeMtu]
  by_cases hchange : s.ChangesQueues newMtu
  · obtain ⟨t, hrun, hkeep, hneed⟩ :=
      change_queues_step (s := { s with mtu := newMtu }) (hmtu newMtu) hprobed hfresh
    rw [if_pos hchange, if_pos hchange.1, hrun]
    exact ⟨fun hguard => hkeep (hguard hchange), fun hexact _ => hneed hexact⟩
  · rw [if_neg hchange]
    refine ⟨fun _ => ?_, fun _ hc => absurd hc hchange⟩
    split
    · exact hmtu newMtu
    · exact h

theorem nextPort_not_probed (hsec : s.probed .secondary = false) : s.probed s.nextPort = false := by
  unfold nextPort
  split
  · exact hsec
  · next hpri => exact Bool.eq_false_iff.mpr hpri

def withAdapter (s : NapiCard) : NapiCard :=
  { s with
    links := if s.nextPort = Port.primary then s.links.init 0 else s.links
    qVector := Function.update s.qVector s.nextPort fun _ => none
    numQVectors := Function.update s.numQVectors s.nextPort 0 }

theorem withAdapter_qVector (h : NapiOk s) (hsec : s.probed .secondary = false) :
    s.withAdapter.qVector = s.qVector := by
  refine Function.update_eq_self_iff.mpr (funext fun i => ?_)
  exact (h.gone _ (nextPort_not_probed hsec) i).symm

theorem withAdapter_lists (h : NapiOk s) (hsec : s.probed .secondary = false) :
    Lists s.withAdapter.links 0 s.napis := by
  unfold withAdapter
  split
  · next hport =>
    have hempty : s.napis = ∅ := by
      refine Set.eq_empty_of_forall_notMem ?_
      rintro a ⟨q, i, hi⟩
      have hpri : s.probed .primary = false := hport ▸ nextPort_not_probed hsec
      have hnone : s.probed q = false := by
        cases q
        · exact hpri
        · exact hsec
      rw [h.gone q hnone] at hi
      cases hi
    rw [hempty]
    exact .init _ 0
  · exact h.lists

theorem withAdapter_spec (h : NapiOk s) (hsec : s.probed .secondary = false)
    (hfresh : Fresh plan s.napis) :
    ∃ t ok, s.withAdapter.ixgbeInitInterruptScheme s.nextPort plan = .ok (t, ok) ∧
      NapiOk { t with probed := Function.update t.probed s.nextPort true } ∧
      (ok = true ↔ plan.reached = plan.fcoe ++ List.range plan.plain) := by
  have hq := withAdapter_qVector h hsec
  have hgone := nextPort_not_probed hsec
  have hnapis : s.withAdapter.napis = s.napis := by
    unfold napis
    rw [hq]
  obtain ⟨t, ok, hinit, hspec, hok⟩ :=
    ixgbeInitInterruptScheme_spec (withAdapter_lists h hsec) hfresh s.nextPort
  refine ⟨t, ok, hinit, ?_, hok⟩
  refine hspec.napiOk _ ?_ (hnapis ▸ hfresh) (hq ▸ h.inj) ?_ ?_ ?_
  · rw [hspec.napis_eq, hq]
    congr 1
    ext a
    constructor
    · rintro ⟨q, i, -, hi⟩
      exact ⟨q, i, hi⟩
    · rintro ⟨q, i, hi⟩
      refine ⟨q, i, ?_, hi⟩
      rintro ⟨rfl, -⟩
      rw [h.gone _ hgone] at hi
      cases hi
  · intro q hne i hi
    rw [show s.withAdapter.numQVectors q = _ from Function.update_of_ne hne ..] at hi
    rw [hq]
    exact h.below q i hi
  · intro q hprobed i
    have hne : q ≠ s.nextPort := by
      rintro rfl
      rw [Function.update_self] at hprobed
      cases hprobed
    rw [Function.update_of_ne hne, hspec.rest.1] at hprobed
    rw [hspec.others q i fun hqi => hne hqi.1, hq]
    exact h.gone q hprobed i
  · intro _
    -- the secondary port is probed only after the primary one
    by_cases hport : s.nextPort = .primary
    · rw [hport]
      exact Function.update_self ..
    · rw [Function.update_of_ne (Ne.symm hport), hspec.rest.1]
      by_contra hpri
      exact hport (if_neg hpri)

section Probe

variable {fails : Option ProbeStep} {registered : Bool} {plan : VectorPlan}

theorem ixgbeProbe_early {step : ProbeStep} (hsec : ¬s.probed .secondary = true)
    (hearly : earlyFailure s.nextPort fails = some step) :
    s.ixgbeProbe fails registered plan = (stepFault s.nextPort step).elim (.ok s) .error := by
  rw [ixgbeProbe, if_neg hsec]
  simp only [hearly]

theorem ixgbeProbe_init {ok : Bool} (hsec : ¬s.probed .secondary = true)
    (hearly : earlyFailure s.nextPort fails = none)
    (hinit : s.withAdapter.ixgbeInitInterruptScheme s.nextPort plan = .ok (t, ok)) :
    s.ixgbeProbe fails registered plan =
      if ok then
        if s.nextPort = .secondary ∧ !registered then .error (.slot (.released .primary))
        else .ok { t with probed := Function.update t.probed s.nextPort true }
      else (stepFault s.nextPort .interruptScheme).elim (.ok s) .error := by
  rw [ixgbeProbe, if_neg hsec]
  simp only [hearly]
  exact congrArg (· >>= _) hinit

theorem probe_step (h : NapiOk s) (henabled : s.Enabled (.probe fails registered plan)) :
    (KeepsVectors (.ok s) (.probe fails registered plan) →
        NapiInv (s.exec (.probe fails registered plan))) ∧
      (ListExact (s.exec (.probe fails registered plan)) →
        KeepsVectors (.ok s) (.probe fails registered plan)) := by
  rw [exec]
  by_cases hsec : s.probed .secondary = true
  · rw [ixgbeProbe, if_pos hsec]
    exact ⟨fun _ => h, fun _ => .inl hsec⟩
  · cases hearly : earlyFailure s.nextPort fails with
    | some step =>
      rw [ixgbeProbe_early hsec hearly]
      simp only [KeepsVectors, hsec, hearly, Bool.false_eq_true, false_or]
      cases hfault : stepFault s.nextPort step with
      | none => exact ⟨fun _ => h, fun _ => rfl⟩
      | some f => exact ⟨fun hno => (nomatch hno), False.elim⟩
    | none =>
      obtain ⟨t, ok, hinit, hkeep, hok⟩ :=
        withAdapter_spec h (Bool.eq_false_iff.mpr hsec) henabled
      rw [ixgbeProbe_init hsec hearly hinit]
      simp only [KeepsVectors, hsec, hearly, Bool.false_eq_true, false_or]
      cases hport : s.nextPort with
      | primary =>
        -- the net device of a primary port that fails is not the one of the card
        refine ⟨fun _ => ?_, fun _ => .inl rfl⟩
        rw [hport] at hkeep
        cases ok with
        | true => exact hkeep
        | false => exact h
      | secondary =>
        rw [hport] at hkeep
        have hiff : (Port.secondary = .primary ∨ registered = true ∧
            plan.reached = plan.fcoe ++ List.range plan.plain) ↔
            registered = true ∧ ok = true := by
          rw [or_iff_right (by simp), hok]
        rw [hiff]
        cases ok with
        | true =>
          cases registered with
          | true => exact ⟨fun _ => hkeep, fun _ => ⟨rfl, rfl⟩⟩
          | false => exact ⟨fun hguard => (nomatch hguard.1), False.elim⟩
        | false => exact ⟨fun hguard => (nomatch hguard.2), False.elim⟩

end Probe

theorem napiOk_initial : NapiOk {} := by
  refine ⟨?_, nofun, nofun, fun _ _ _ => rfl, nofun⟩
  exact ⟨[], ⟨List.nodup_singleton 0, rfl, rfl⟩, by simp [napis]⟩

/-- **One step.** -/
theorem napi_step {r t : Except NapiFault NapiCard} {op : NapiOp} (h : NapiInv r)
    (hstep : NapiStep r op t) :
    (KeepsVectors r op → NapiInv t) ∧ (ListExact t → KeepsVectors r op) := by
  cases r with
  | error f => exact h.elim
  | ok s =>
    obtain ⟨henabled, rfl⟩ := hstep
    have hs : s.NapiOk := h
    cases op with
    | probe fails registered plan => exact probe_step hs henabled
    | remove =>
      refine ⟨fun hno => hno.elim, fun hexact => ?_⟩
      rw [exec, ixgbeRemove] at hexact
      split at hexact <;> exact hexact
    | setRunning running =>
      exact ⟨fun _ => ⟨hs.lists, hs.inj, hs.below, hs.gone, hs.order⟩, fun _ => trivial⟩
    | changeMtu newMtu plan => exact changeMtu_step hs henabled
    | suspend p => exact suspend_step hs p
    | resume p plan => exact resume_step hs henabled

/-- **The list is exact along a run exactly if** no call of it harms the vectors that are there. -/
theorem napi_list_exact_iff {ops : List NapiOp} {r : Except NapiFault NapiCard}
    (h : Run NapiStep (.ok {}) ops r) :
    Always NapiStep ListExact (.ok {}) ops ↔
      Run (Guarded NapiStep KeepsVectors) (.ok {}) ops r := by
  exact always_iff_guarded (I := NapiInv) (fun _ _ _ _ h h' => h.unique h')
    (fun _ h => h.listExact) (fun _ _ _ h hstep => napi_step h hstep) h napiOk_initial

/-- One vector, at the address `a`. -/
def oneVector (a : Nat) : VectorPlan := { plain := 1, kzalloc := fun vIdx => some (a + vIdx) }

theorem fresh_oneVector {a : Nat} {used : Set Nat} (h : ∀ b ∈ used, b < a) (ha : a ≠ 0) :
    Fresh (oneVector a) used := by
  refine ⟨fun vIdx h0 => ?_, fun vIdx b hb hused => ?_, fun i j b hi hj => ?_⟩
  · have hsum := Option.some.inj h0
    omega
  · have hsum := Option.some.inj hb
    have hlt := h b hused
    omega
  · have hsum := Option.some.inj (hi.trans hj.symm)
    omega

theorem probes_oneVector : ∃ s t : NapiCard,
    exec {} (.probe none true (oneVector 1)) = .ok s ∧
      s.exec (.probe none true (oneVector 2)) = .ok t ∧
      (∀ q i, s.qVector q i = match q, i with
        | .primary, 0 => some 1
        | _, _ => none) ∧
      (∀ q i, t.qVector q i = match q, i with
        | .primary, 0 => some 1
        | .secondary, 0 => some 2
        | _, _ => none) ∧
      s.numQVectors .primary = 1 ∧ s.probed .primary = true ∧ t.probed .secondary = true ∧
      t.mtu = wfsDefaultMtu := by
  refine ⟨_, _, rfl, rfl, fun q i => ?_, fun q i => ?_, rfl, rfl, rfl, rfl⟩
  · cases q <;> cases i <;> rfl
  · cases q <;> cases i <;> rfl

def resumeRun : List NapiOp :=
  [.probe none true (oneVector 1), .suspend .primary, .resume .primary (oneVector 1)]

theorem napi_list_exact_resumeRun : Always NapiStep ListExact (.ok {}) resumeRun := by
  have hfirst : Fresh (oneVector 1) ({} : NapiCard).napis :=
    fresh_oneVector (by simp [napis]) (by decide)
  obtain ⟨s, -, hs, -, hq, -, hnum, hprobed, -⟩ := probes_oneVector
  have hs0 : NapiStep (.ok {}) (.probe none true (oneVector 1)) (.ok s) := ⟨hfirst, hs.symm⟩
  have hsok : NapiInv (.ok s) := (napi_step (r := .ok {}) napiOk_initial hs0).1 (.inr (.inl rfl))
  obtain ⟨t, ht, -, hq', -, hrest⟩ := ixgbeClearInterruptScheme_spec hsok .primary
  have hfrees : ∀ q i, s.qVector q i ≠ none → q = .primary ∧ i < s.numQVectors .primary := by
    intro q i hsome
    rw [hq] at hsome
    rw [hnum]
    cases q <;> cases i <;> simp_all
  have hnone : ∀ q i, t.qVector q i = none := by
    intro q i
    rw [hq']
    split
    · rfl
    · next hno => exact not_not.mp fun hsome => hno (hfrees q i hsome)
  have hguarded : Run (Guarded NapiStep KeepsVectors) (.ok {}) resumeRun
      (t.exec (.resume .primary (oneVector 1))) := by
    refine .cons ⟨?_, hs0⟩ (.cons ⟨hfrees, hprobed, ht.symm⟩ (.single ⟨?_, ⟨?_, ?_⟩, rfl⟩))
    · exact .inr (.inl rfl)
    · exact fun i _ => hnone _ i
    · exact hrest.1 ▸ hprobed
    · exact fresh_oneVector (by simp [napis, hnone]) (by decide)
  exact (napi_list_exact_iff (hguarded.mono fun _ _ _ h => h.2)).mpr hguarded

/-- Both ports are probed, and the MTU of the running interface lowered to `ETH_DATA_LEN`. -/
def lowerMtuRun : List NapiOp :=
  [.probe none true (oneVector 1), .probe none true (oneVector 2), .setRunning true,
    .changeMtu 1500 (oneVector 3)]

theorem napi_list_loses_lowerMtuRun :
    (∃ r, Run NapiStep (.ok {}) lowerMtuRun r) ∧ ¬Always NapiStep ListExact (.ok {}) lowerMtuRun := by
  obtain ⟨s, t, hs, ht, hqs, hqt, -, -, hsec, hmtu⟩ := probes_oneVector
  have h1 : NapiStep (.ok {}) (.probe none true (oneVector 1)) (.ok s) :=
    ⟨fresh_oneVector (by simp [napis]) (by decide), hs.symm⟩
  have h2 : NapiStep (.ok s) (.probe none true (oneVector 2)) (.ok t) := by
    refine ⟨fresh_oneVector ?_ (by decide), ht.symm⟩
    rintro b ⟨q, i, hi⟩
    rw [hqs] at hi
    cases q with
    | primary =>
      cases i with
      | zero =>
        cases hi
        decide
      | succ i => cases hi
    | secondary => cases i <;> cases hi
  have h3 : NapiStep (.ok t) (.setRunning true) (.ok { t with running := true }) := ⟨hsec, rfl⟩
  have h4 : NapiStep (.ok { t with running := true }) (.changeMtu 1500 (oneVector 3))
      (exec { t with running := true } (.changeMtu 1500 (oneVector 3))) := by
    refine ⟨⟨hsec, fresh_oneVector ?_ (by decide)⟩, rfl⟩
    rintro b ⟨q, i, hi, -⟩
    rw [hqt] at hi
    cases q <;> cases i <;> simp_all <;> omega
  have hrun : Run NapiStep (.ok {}) lowerMtuRun _ := .cons h1 (.cons h2 (.cons h3 (.single h4)))
  refine ⟨⟨_, hrun⟩, fun halways => ?_⟩
  -- up to the change of the MTU the list is exact
  have hinv1 : NapiInv (.ok s) := (napi_step (r := .ok {}) napiOk_initial h1).1 (.inr (.inl rfl))
  have hinv2 : NapiInv (.ok t) := (napi_step hinv1 h2).1 (.inr (.inr ⟨rfl, rfl⟩))
  have hinv3 := (napi_step hinv2 h3).1 trivial
  -- and then it lacks the vector of the secondary port
  have hguard := (napi_step hinv3 h4).2 (halways _ _ List.prefix_rfl hrun)
  have hchange : ChangesQueues { t with running := true } 1500 := by
    refine ⟨by decide, rfl, ?_⟩
    rw [hmtu]
    decide
  rcases hguard hchange .secondary 0 (by simp [hqt]) with hfrees | hnew
  · exact absurd hfrees.1 (by decide)
  · exact absurd hnew.1 (by decide)

end NapiCard

end VmkDrivers.Wfs
