/-
  VmkDrivers.Wfs.FibMap

  The calls of the forwarding table as operations on a map.

  `FibOp.apply` is what a call is meant to do to the map, `FibOp.applyAt` the
  same on a key of one's choice.  The table does the latter on the key that
  `my_search` hits (`FibOp.hit`), and a call is `Keyed` when that makes no
  difference.
-/

import VmkDrivers.Wfs.FibRefine

namespace VmkDrivers.Wfs

open VmkDrivers.Lib

abbrev FibMap := FibKey → Option UInt8

namespace FibOp

/-! ## What the calls are meant to do -/

def givenKey : FibOp → Option FibKey
  | .update _ _ _ vid mac _ _ => some ⟨vid &&& 0xfff, mac⟩
  | .lookup _ vid mac => some ⟨vid &&& 0xfff, mac⟩
  | .delete _ vid mac => some ⟨vid &&& 0xfff, mac⟩
  | .deleteWfsid _ => none
  | .timer => none

def hit (m : FibMap) : FibOp → Option FibKey
  | .update key _ _ vid mac _ _ => some (if m key = none then ⟨vid &&& 0xfff, mac⟩ else key)
  | .lookup key _ _ => some key
  | .delete key _ _ => some key
  | .deleteWfsid _ => none
  | .timer => none

/-- The map after a call on the entry with key `k`. -/
def applyAt (k : Option FibKey) (m : FibMap) : FibOp → FibMap
  | .update _ _ _ _ _ _ wfsid =>
    match k with
    | some k => Function.update m k (some wfsid)
    | none => m
  | .lookup _ _ _ => m
  | .delete _ _ _ =>
    match k with
    | some k => Function.update m k none
    | none => m
  | .deleteWfsid wfsid => fun k => if m k = some wfsid then none else m k
  | .timer => m

/-- What a call on the entry with key `k` returns. -/
def answerAt (k : Option FibKey) (m : FibMap) : FibOp → Option UInt8
  | .lookup _ _ _ => some ((k.bind m).getD wfsidAll)
  | _ => none

def apply (m : FibMap) (op : FibOp) : FibMap := op.applyAt op.givenKey m

def answer (m : FibMap) (op : FibOp) : Option UInt8 := op.answerAt op.givenKey m

/-! ## The calls -/

/-- The allocation a call makes does not fail. -/
def Allocates : FibOp → Prop
  | .update _ kmalloc _ _ _ _ _ => kmalloc = true
  | _ => True

def ValidId : FibOp → Prop
  | .update _ _ _ _ _ _ wfsid => Fib.ValidWfsid wfsid
  | .deleteWfsid wfsid => Fib.ValidWfsid wfsid
  | _ => True

instance : DecidablePred Allocates
  | .update _ kmalloc _ _ _ _ _ => inferInstanceAs (Decidable (kmalloc = true))
  | .lookup .. => .isTrue trivial
  | .delete .. => .isTrue trivial
  | .deleteWfsid .. => .isTrue trivial
  | .timer => .isTrue trivial

instance : DecidablePred ValidId
  | .update _ _ _ _ _ _ wfsid => inferInstanceAs (Decidable (Fib.ValidWfsid wfsid))
  | .lookup .. => .isTrue trivial
  | .delete .. => .isTrue trivial
  | .deleteWfsid wfsid => inferInstanceAs (Decidable (Fib.ValidWfsid wfsid))
  | .timer => .isTrue trivial

def learns : FibOp → Option FibKey
  | .update _ _ _ vid mac _ _ => some ⟨vid &&& 0xfff, mac⟩
  | _ => none

/-- The key left over in the local variable of `my_search`. -/
def leftover : FibOp → Option FibKey
  | .update key _ _ _ _ _ _ => some key
  | .lookup key _ _ => some key
  | .delete key _ _ => some key
  | .deleteWfsid _ => none
  | .timer => none

/-- The key left over in the local variable of `my_search` is the one the call is about, or
    it makes no difference to the map `m`. -/
def Keyed (m : FibMap) : FibOp → Prop
  | .update key _ _ vid mac _ wfsid =>
    key = ⟨vid &&& 0xfff, mac⟩ ∨ m key = none ∨
      (m key = some wfsid ∧ m ⟨vid &&& 0xfff, mac⟩ = some wfsid)
  | .lookup key vid mac => m key = m ⟨vid &&& 0xfff, mac⟩
  | .delete key vid mac =>
    key = ⟨vid &&& 0xfff, mac⟩ ∨ (m key = none ∧ m ⟨vid &&& 0xfff, mac⟩ = none)
  | .deleteWfsid _ => True
  | .timer => True

theorem keyed_of_leftover {op : FibOp} (h : op.leftover = op.givenKey) (m : FibMap) :
    op.Keyed m := by
  cases op with
  | update => exact .inl (Option.some.inj h)
  | lookup => exact congrArg m (Option.some.inj h)
  | delete => exact .inl (Option.some.inj h)
  | deleteWfsid => trivial
  | timer => trivial

end FibOp

/-! ## The latest update -/

def mapAfter (ops : List FibOp) : FibMap := ops.foldl FibOp.apply fun _ => none

/-! ## What the calls do -/

/-- What holds of the map: it has learned no key outside `keys`, and stands for stations. -/
structure FibMap.Within (m : FibMap) (keys : Finset FibKey) : Prop where
  learned : ∀ k, m k ≠ none → k ∈ keys
  valid : ∀ k w, m k = some w → Fib.ValidWfsid w

variable {m : FibMap} {keys : Finset FibKey}

theorem FibMap.Within.set (h : m.Within keys) {k : FibKey} {w : UInt8} (hk : k ∈ keys)
    (hw : Fib.ValidWfsid w) : FibMap.Within (Function.update m k (some w)) keys := by
  constructor
  · intro k' hk'
    by_cases heq : k' = k
    · rw [heq]
      exact hk
    · rw [Function.update_of_ne heq] at hk'
      exact h.learned k' hk'
  · intro k' w' hk'
    by_cases heq : k' = k
    · rw [heq, Function.update_self, Option.some.injEq] at hk'
      exact hk' ▸ hw
    · rw [Function.update_of_ne heq] at hk'
      exact h.valid k' w' hk'

theorem FibMap.Within.sub {m' : FibMap} (h : m.Within keys)
    (hsub : ∀ k w, m' k = some w → m k = some w) : FibMap.Within m' keys := by
  refine ⟨fun k hk => ?_, fun k w hk => h.valid k w (hsub k w hk)⟩
  obtain ⟨w, hw⟩ := Option.ne_none_iff_exists'.mp hk
  apply h.learned k
  rw [hsub k w hw]
  exact Option.some_ne_none w

theorem FibMap.Within.applyAt_hit (h : m.Within keys) {op : FibOp} (hvalid : op.ValidId)
    (hlearns : ∀ k, op.learns = some k → k ∈ keys) :
    FibMap.Within (op.applyAt (op.hit m) m) keys := by
  cases op with
  | update key k₁ k₂ vid mac ip wfsid =>
    refine h.set ?_ hvalid
    split
    · exact hlearns _ rfl
    · next hkey => exact h.learned key hkey
  | lookup key vid mac => exact h
  | delete key vid mac =>
    refine h.sub ?_
    intro k w hk
    by_cases heq : k = key
    · rw [heq] at hk
      change Function.update m key none key = some w at hk
      rw [Function.update_self] at hk
      exact nomatch hk
    · change Function.update m key none k = some w at hk
      rwa [Function.update_of_ne heq] at hk
  | deleteWfsid wfsid =>
    refine h.sub ?_
    intro k w hk
    change (if m k = some wfsid then none else m k) = some w at hk
    split at hk
    · exact nomatch hk
    · exact hk
  | timer => exact h

theorem update_eq_update_iff {k k' : FibKey} {v : Option UInt8} :
    Function.update m k v = Function.update m k' v ↔ k = k' ∨ (m k = v ∧ m k' = v) := by
  constructor
  · intro h
    by_cases hk : k = k'
    · exact .inl hk
    · have hl := congrFun h k
      have hr := congrFun h k'
      rw [Function.update_self, Function.update_of_ne hk] at hl
      rw [Function.update_self, Function.update_of_ne (Ne.symm hk)] at hr
      exact .inr ⟨hl.symm, hr⟩
  · rintro (rfl | ⟨hl, hr⟩)
    · rfl
    · rw [Function.update_eq_self_iff.mpr hl.symm, Function.update_eq_self_iff.mpr hr.symm]

/-- **A call is the operation it should be exactly when it is keyed.** -/
theorem FibOp.keyed_iff (h : m.Within keys) (op : FibOp) :
    op.Keyed m ↔ op.applyAt (op.hit m) m = op.apply m ∧ op.answerAt (op.hit m) m = op.answer m := by
  cases op with
  | update key k₁ k₂ vid mac ip wfsid =>
    show _ ↔ Function.update m (if m key = none then ⟨vid &&& 0xfff, mac⟩ else key) _ =
      Function.update m ⟨vid &&& 0xfff, mac⟩ (some wfsid) ∧ none = none
    rw [and_iff_left rfl]
    by_cases hkey : m key = none
    · rw [if_pos hkey]
      exact iff_of_true (.inr (.inl hkey)) rfl
    · rw [if_neg hkey, update_eq_update_iff]
      simp only [Keyed, hkey, false_or]
  | lookup key vid mac =>
    show m key = m _ ↔ m = m ∧ some ((m key).getD wfsidAll) = some ((m _).getD wfsidAll)
    rw [and_iff_right rfl, Option.some.injEq]
    refine ⟨fun heq => by rw [heq], fun heq => ?_⟩
    -- no station has the id `WFSID_ALL`
    have hall : ∀ k w, m k = some w → w ≠ wfsidAll := by
      rintro k w hk rfl
      exact h.valid k _ hk (by decide)
    cases hl : m key with
    | none =>
      cases hr : m ⟨vid &&& 0xfff, mac⟩ with
      | none => rfl
      | some w =>
        rw [hl, hr] at heq
        exact absurd heq.symm (hall _ w hr)
    | some w =>
      cases hr : m ⟨vid &&& 0xfff, mac⟩ with
      | none =>
        rw [hl, hr] at heq
        exact absurd heq (hall _ w hl)
      | some w' =>
        rw [hl, hr] at heq
        exact congrArg some heq
  | delete key vid mac =>
    show _ ↔ Function.update m key none = Function.update m ⟨vid &&& 0xfff, mac⟩ none ∧
      none = none
    rw [and_iff_left rfl, update_eq_update_iff]
    exact Iff.rfl
  | deleteWfsid wfsid => exact iff_of_true trivial ⟨rfl, rfl⟩
  | timer => exact iff_of_true trivial ⟨rfl, rfl⟩

namespace Fib

variable (rb : Balancer Nat) {s : Fib} {keys : Finset FibKey} {op : FibOp} {res : Option UInt8}
  {m : FibMap} {ops : List FibOp}

structure Inv (s : Fib) (keys : Finset FibKey) : Prop where
  ok : FibOk s
  within : FibMap.Within s.content keys

theorem Inv.length_lt (h : Inv s keys) (hkeys : keys.card < fibSizeMax) :
    s.fibRoot.inorder.length < fibSizeMax := by
  have hle := h.ok.length_le h.within.learned
  omega

/-- **One call** returns, unless a `BUG_ON` stops a station id that is none, and is the
    operation on the key that is hit. -/
theorem Inv.call (h : Inv s keys) (hkeys : keys.card < fibSizeMax) (halloc : op.Allocates)
    (hvalid : op.ValidId) :
    ∃ t, op.step rb s = .ok (t, op.answerAt (op.hit s.content) s.content) ∧ FibOk t ∧
      t.content = op.applyAt (op.hit s.content) s.content := by
  have hlt := h.length_lt hkeys
  cases op with
  | update key k₁ k₂ vid mac ip wfsid =>
    obtain rfl : k₁ = true := halloc
    obtain ⟨t, ht, hok, hcontent⟩ := update_spec rb h.ok hlt key k₂ vid mac ip hvalid
    exact ⟨t, by rw [FibOp.step, ht]; rfl, hok, hcontent⟩
  | lookup key vid mac =>
    refine ⟨s, ?_, h.ok, rfl⟩
    rw [FibOp.step, lookup_eq h.ok]
    rfl
  | delete key vid mac => exact ⟨_, rfl, delete_spec rb h.ok key vid mac⟩
  | deleteWfsid wfsid =>
    obtain ⟨t, ht, hspec⟩ := deleteWfsid_spec rb h.ok hvalid
    exact ⟨t, by rw [FibOp.step, ht]; rfl, hspec⟩
  | timer =>
    obtain ⟨t, ht, hspec⟩ := timer_spec rb h.ok hlt
    exact ⟨t, by rw [FibOp.step, ht]; rfl, hspec⟩

theorem validId_of_step {t : Fib} (h : op.step rb s = .ok (t, res)) : op.ValidId := by
  cases op with
  | update key k₁ k₂ vid mac ip wfsid =>
    intro hw
    rw [FibOp.step, ixgbeWfsFibUpdate, if_pos hw] at h
    exact nomatch h
  | lookup key vid mac => trivial
  | delete key vid mac => trivial
  | deleteWfsid wfsid =>
    intro hw
    rw [FibOp.step, ixgbeWfsFibDeleteWfsid, if_pos hw] at h
    exact nomatch h
  | timer => trivial

/-- **A call keeps the table in order.** -/
theorem Inv.of_step {t : Fib} (h : Inv s keys) (hkeys : keys.card < fibSizeMax)
    (halloc : op.Allocates) (hlearns : ∀ k, op.learns = some k → k ∈ keys)
    (hstep : op.step rb s = .ok (t, res)) :
    Inv t keys ∧ t.content = op.applyAt (op.hit s.content) s.content ∧
      res = op.answerAt (op.hit s.content) s.content := by
  have hvalid := validId_of_step rb hstep
  obtain ⟨u, hu, hok, hcontent⟩ := h.call rb hkeys halloc hvalid
  rw [hstep, Except.ok.injEq, Prod.mk.injEq] at hu
  obtain ⟨rfl, rfl⟩ := hu
  refine ⟨⟨hok, ?_⟩, hcontent, rfl⟩
  rw [hcontent]
  exact h.within.applyAt_hit hvalid hlearns

/-! ## Sequences of calls -/

/-- From `s`, which stands for `m`, every call of `ops` takes the table to the map it should
    and returns what it should. -/
def Refines (m : FibMap) (s : Fib) (ops : List FibOp) : Prop :=
  ∀ pre op, pre ++ [op] <+: ops → ∀ t u res, Run (FibStep rb) s pre t →
    op.step rb t = .ok (u, res) →
      u.content = op.apply (pre.foldl FibOp.apply m) ∧
        res = op.answer (pre.foldl FibOp.apply m)

theorem refines_nil : Refines rb m s [] := by
  intro pre op h
  exact absurd (List.prefix_nil.mp h) (by simp)

theorem refines_cons {t : Fib} (hstep : op.step rb s = .ok (t, res)) :
    Refines rb m s (op :: ops) ↔
      (t.content = op.apply m ∧ res = op.answer m) ∧ Refines rb (op.apply m) t ops := by
  constructor
  · intro h
    refine ⟨h [] op (by simp) s t res (.nil s) hstep, ?_⟩
    intro pre op' hpre u v res' hrun hstep'
    exact h (op :: pre) op' ((List.prefix_cons_inj op).mpr hpre) u v res'
      (.cons ⟨res, hstep⟩ hrun) hstep'
  · rintro ⟨hhead, htail⟩ pre op' hpre u v res' hrun hstep'
    cases hrun with
    | nil =>
      obtain ⟨rfl, _⟩ := List.cons_prefix_cons.mp hpre
      rw [hstep, Except.ok.injEq, Prod.mk.injEq] at hstep'
      obtain ⟨rfl, rfl⟩ := hstep'
      exact hhead
    | cons hfirst hrest =>
      obtain ⟨rfl, hpre'⟩ := List.cons_prefix_cons.mp hpre
      rw [hfirst.unique ⟨res, hstep⟩] at hrest
      exact htail _ op' hpre' u v res' hrest hstep'

def learned (ops : List FibOp) : Finset FibKey := (ops.filterMap FibOp.learns).toFinset

theorem Inv.run (h : Inv s keys) (hkeys : keys.card < fibSizeMax)
    (halloc : ∀ op ∈ ops, op.Allocates) (hlearns : ∀ op ∈ ops, ∀ k, op.learns = some k → k ∈ keys)
    (hvalid : ∀ op ∈ ops, op.ValidId) : ∃ t, Run (FibStep rb) s ops t := by
  induction ops generalizing s with
  | nil => exact ⟨s, .nil s⟩
  | cons op ops ih =>
    rw [List.forall_mem_cons] at halloc hlearns hvalid
    obtain ⟨u, hstep, _⟩ := h.call rb hkeys halloc.1 hvalid.1
    obtain ⟨hu, _⟩ := h.of_step rb hkeys halloc.1 hlearns.1 hstep
    obtain ⟨t, ht⟩ := ih hu halloc.2 hlearns.2 hvalid.2
    exact ⟨t, .cons ⟨_, hstep⟩ ht⟩

theorem validId_of_run {t : Fib} (h : Run (FibStep rb) s ops t) : ∀ op ∈ ops, op.ValidId := by
  induction h with
  | nil s => exact List.forall_mem_nil _
  | cons hstep _ ih =>
    obtain ⟨res, hstep⟩ := hstep
    exact List.forall_mem_cons.mpr ⟨validId_of_step rb hstep, ih⟩

/-- **A sequence of calls** refines the map exactly when every call in it is keyed. -/
theorem Inv.refines_iff {t : Fib} (h : Inv s keys) (hkeys : keys.card < fibSizeMax)
    (halloc : ∀ op ∈ ops, op.Allocates) (hlearns : ∀ op ∈ ops, ∀ k, op.learns = some k → k ∈ keys)
    (hrun : Run (FibStep rb) s ops t) :
    Refines rb s.content s ops ↔
      Run (Guarded (FibStep rb) fun s op => op.Keyed s.content) s ops t := by
  induction hrun with
  | nil s => exact iff_of_true (refines_nil rb) (.nil s)
  | @cons s u t op ops hfirst hrest ih =>
    rw [List.forall_mem_cons] at halloc hlearns
    obtain ⟨res, hstep⟩ := hfirst
    obtain ⟨hu, hcontent, hres⟩ := h.of_step rb hkeys halloc.1 hlearns.1 hstep
    have hih := ih hu halloc.2 hlearns.2
    have hkeyed := FibOp.keyed_iff h.within op
    rw [← hcontent, ← hres] at hkeyed
    rw [refines_cons rb hstep, ← hkeyed]
    constructor
    · rintro ⟨hk, hr⟩
      rw [← (hkeyed.mp hk).1] at hr
      exact .cons ⟨hk, res, hstep⟩ (hih.mp hr)
    · intro hr
      cases hr with
      | cons hg hrest' =>
        rw [hg.2.unique ⟨res, hstep⟩] at hrest'
        refine ⟨hg.1, ?_⟩
        rw [← (hkeyed.mp hg.1).1]
        exact hih.mpr hrest'

theorem Inv.of_init (kmalloc : Nat → Bool) (h : (ixgbeWfsFibInit kmalloc).2 = true)
    (keys : Finset FibKey) :
    Inv (ixgbeWfsFibInit kmalloc).1 keys ∧ (ixgbeWfsFibInit kmalloc).1.content = fun _ => none := by
  obtain ⟨hok, hcontent⟩ := init_spec (Prod.ext rfl h : ixgbeWfsFibInit kmalloc = (_, true))
  refine ⟨⟨hok, ?_⟩, hcontent⟩
  rw [hcontent]
  exact ⟨fun _ hk => absurd rfl hk, fun _ _ hk => nomatch hk⟩

/-- **The forwarding table as a map.** Let no allocation fail and fewer than `FIB_SIZE_MAX`
    keys be learned.  Then every sequence of calls with station ids returns, and the table
    refines the map of these calls if and only if the key that `my_search` finds in its
    local variable is, in every call, the key the call is about, or makes no difference. -/
theorem fib_refines_map_iff (rb : Balancer Nat) (kmalloc : Nat → Bool) (ops : List FibOp)
    (hinit : (ixgbeWfsFibInit kmalloc).2 = true) (halloc : ∀ op ∈ ops, op.Allocates)
    (hlearned : (learned ops).card < fibSizeMax) :
    ((∃ t, Run (FibStep rb) (ixgbeWfsFibInit kmalloc).1 ops t) ↔ ∀ op ∈ ops, op.ValidId) ∧
    ∀ t, Run (FibStep rb) (ixgbeWfsFibInit kmalloc).1 ops t →
      (Refines rb (fun _ => none) (ixgbeWfsFibInit kmalloc).1 ops ↔
        Run (Guarded (FibStep rb) fun s op => op.Keyed s.content)
          (ixgbeWfsFibInit kmalloc).1 ops t) := by
  obtain ⟨hinv, hempty⟩ := Inv.of_init kmalloc hinit (learned ops)
  have hlearns : ∀ op ∈ ops, ∀ k, op.learns = some k → k ∈ learned ops := by
    intro op hop k hk
    exact List.mem_toFinset.mpr (List.mem_filterMap.mpr ⟨op, hop, hk⟩)
  refine ⟨⟨?_, hinv.run rb hlearned halloc hlearns⟩, ?_⟩
  · rintro ⟨t, hrun⟩
    exact validId_of_run rb hrun
  · intro t hrun
    rw [← hempty]
    exact hinv.refines_iff rb hlearned halloc hlearns hrun

theorem keyed_of_run {t : Fib} (h : Run (FibStep rb) s ops t)
    (hown : ∀ op ∈ ops, op.leftover = op.givenKey) :
    Run (Guarded (FibStep rb) fun s op => op.Keyed s.content) s ops t := by
  induction h with
  | nil s => exact .nil s
  | cons hstep _ ih =>
    rw [List.forall_mem_cons] at hown
    exact .cons ⟨FibOp.keyed_of_leftover hown.1 _, hstep⟩ (ih hown.2)

/-- The calls of a station that learns, looks up, moves and forgets one MAC address, with
    the key of each call left over in the local variable of `my_search`. -/
def keyedCalls : List FibOp :=
  let mac : Mac := #v[2, 0, 0, 0, 0, 1]
  [.update ⟨5, mac⟩ true true 5 mac 0 1, .lookup ⟨5, mac⟩ 5 mac,
    .update ⟨5, mac⟩ true true 0x1005 mac 0 3, .lookup ⟨5, mac⟩ 5 mac, .deleteWfsid 3,
    .update ⟨5, mac⟩ true true 5 mac 0 2, .delete ⟨5, mac⟩ 5 mac, .timer, .lookup ⟨5, mac⟩ 5 mac]

theorem fib_refines_map_keyedCalls :
    Refines .plain (fun _ => none) (ixgbeWfsFibInit fun _ => true).1 keyedCalls := by
  have hall := fib_refines_map_iff .plain (fun _ => true) keyedCalls
    init_of_kmalloc (by decide) (by decide)
  obtain ⟨t, hrun⟩ := hall.1.mpr (by decide)
  exact (hall.2 t hrun).mpr (keyed_of_run .plain hrun (by decide))

def strayUpdate : FibOp := .update ⟨0, #v[0, 0, 0, 0, 0, 0]⟩ true true 5 #v[2, 0, 0, 0, 0, 1] 0 1

def strayLookup : FibOp := .lookup ⟨0, #v[0, 0, 0, 0, 0, 0]⟩ 5 #v[2, 0, 0, 0, 0, 1]

/-- The address is not found. -/
theorem fib_lookup_misses_strayLookup :
    (∃ t, Run (FibStep .plain) (ixgbeWfsFibInit fun _ => true).1 [strayUpdate] t ∧
      strayLookup.step .plain t = .ok (t, some wfsidAll) ∧
      strayLookup.answer (mapAfter [strayUpdate]) = some 1) ∧
    ¬Refines .plain (fun _ => none) (ixgbeWfsFibInit fun _ => true).1
      [strayUpdate, strayLookup] := by
  have hcard : (learned [strayUpdate]).card < fibSizeMax := by decide
  obtain ⟨hinv, hempty⟩ := Inv.of_init (fun _ => true) init_of_kmalloc
    (learned [strayUpdate])
  have halloc : strayUpdate.Allocates := by decide
  obtain ⟨t, hstep, hok, hcontent⟩ := hinv.call .plain hcard halloc (by decide)
  have hrun := Run.single (T := FibStep .plain) ⟨_, hstep⟩
  -- the key with zeros is not in the table
  have hmiss : t.content ⟨0, #v[0, 0, 0, 0, 0, 0]⟩ = none := by
    rw [hcontent, hempty]
    decide
  have hlookup : strayLookup.step .plain t = .ok (t, some wfsidAll) := by
    show Except.ok (t, some (t.ixgbeWfsFibLookup _ _ _)) = _
    rw [lookup_eq hok, hmiss]
    rfl
  have hanswer : strayLookup.answer (mapAfter [strayUpdate]) = some 1 := by decide
  refine ⟨⟨t, hrun, hlookup, hanswer⟩, ?_⟩
  intro hrefines
  have hres := (hrefines [strayUpdate] strayLookup List.prefix_rfl t t _ hrun hlookup).2
  rw [show [strayUpdate].foldl FibOp.apply (fun _ => none) = mapAfter [strayUpdate] from rfl,
    hanswer] at hres
  exact absurd hres (by decide)

end Fib

end VmkDrivers.Wfs
