/-
  VmkDrivers.Vmkplexer.ProcfsTree

  The proc tree stays a tree, where the vmkernel does not refuse a node that is
  linked already, and no path goes on behind a file of the caller.

  A node that `vmk_ProcEntryCreate` refuses stays in the list of its parent when
  it is freed, and a path that goes on behind a file is taken for that of the
  file (`procfs_dangling`).  Apart from these, after each call the tree is
  consistent, a call that fails changes nothing, and only its owner removes a
  node (`procfs_tree`).
-/

import VmkDrivers.Lib.LinkedTree
import VmkDrivers.Lib.Transition
import VmkDrivers.Vmkplexer.ProcfsLookups

namespace VmkDrivers.Vmkplexer

open VmkDrivers.Lib

/-! ## What is promised -/

def Procfs.children (d : Procfs) (n : Nat) : List Nat :=
  (d.entries n).elim [] ProcfsEntry.childList

def Procfs.Linked (d : Procfs) (n : Nat) : Prop :=
  ∃ p, Descends d.children procRoot p ∧ n ∈ d.children p

/-- The path names the node; the empty path is that of the directory itself. -/
def Procfs.Names (d : Procfs) (parent : Option Nat) (path : List Char) (n : Nat) : Prop :=
  ∃ pde, d.pdes (parent.getD procRoot) = some pde ∧
    Leads d pde.vmkplxrProcEntry (pathNames (pathBuffer path)) n

structure TreeConsistent (d : Procfs) : Prop where
  allocated : ∀ n, Descends d.children procRoot n → ∃ e, d.entries n = some e
  parent : ∀ n, Descends d.children procRoot n → n ≠ procRoot →
    ∃! p, Descends d.children procRoot p ∧ n ∈ d.children p
  once : ∀ n, Descends d.children procRoot n → (d.children n).Nodup
  dirs : ∀ n e, Descends d.children procRoot n → d.entries n = some e → e.childList ≠ [] →
    e.isDir = true
  names : ∀ n c c' e e', Descends d.children procRoot n → c ∈ d.children n → c' ∈ d.children n →
    d.entries c = some e → d.entries c' = some e' → e.name = e'.name → c = c'
  registered : d.registered.Nodup ∧ ∀ n, n ∈ d.registered ↔ procBus < n ∧ d.Linked n

structure CallRight (d : Procfs) (e : ProcfsCall) (ok : Bool) (d' : Procfs) : Prop where
  failed : ok = false → d' = d
  detached : ∀ n, d.Linked n → ¬d'.Linked n → ∃ moduleId path parent node,
    e = .remove moduleId path parent ∧ d.entries n = some node ∧ node.moduleID = moduleId ∧
      node.childList = [] ∧ d.Names parent path n

/-- The call comes to `vmk_ProcEntryCreate`. -/
def Procfs.creates (d : Procfs) (call : CreateCall) : Bool :=
  match d.pdes (call.parent.getD procRoot) with
  | none => false
  | some pde =>
    match d.findEntry pde.vmkplxrProcEntry call.path,
      d.findParentEntry pde.vmkplxrProcEntry call.path with
    | .ok none, .ok (some _) =>
      call.path.length < procfsMaxName ∧ call.pde.isSome ∧ call.entry.isSome
    | _, _ => false

def Procfs.removesFile (d : Procfs) (moduleId : Nat) (path : List Char) (parent : Option Nat) : Bool :=
  match d.pdes (parent.getD procRoot) with
  | none => false
  | some pde =>
    match d.findEntry pde.vmkplxrProcEntry path with
    | .ok (some n) =>
      d.stops pde.vmkplxrProcEntry (pathNames (pathBuffer path)) ∧
        (d.entries n).any fun e => e.moduleID = moduleId
    | _ => false

/-- `vmk_ProcEntryCreate` succeeds where it is called, and no path goes on behind a file of the
    caller that it is to remove. -/
def ProcfsCareful (s : Except Fault Procfs) (e : ProcfsCall) : Prop :=
  match s, e with
  | .ok d, .create call => d.creates call = true → call.created = true
  | .ok d, .remove moduleId path parent => d.removesFile moduleId path parent = false
  | .error _, _ => True

instance (s : Except Fault Procfs) (e : ProcfsCall) : Decidable (ProcfsCareful s e) :=
  match s, e with
  | .ok _, .create _ => inferInstanceAs (Decidable (_ → _))
  | .ok _, .remove .. => inferInstanceAs (Decidable (_ = _))
  | .error _, _ => inferInstanceAs (Decidable True)

/-! ## The invariant -/

def Procfs.Live (d : Procfs) (n : Nat) : Prop := ∃ e, d.entries n = some e

structure ProcfsInv (d : Procfs) : Prop where
  tree : LinkedTree d.Live d.children procRoot
  dirs : ∀ n e, d.entries n = some e → e.childList ≠ [] → e.isDir = true
  names : ∀ n e c c' ec ec', d.entries n = some e → c ∈ e.childList → c' ∈ e.childList →
    d.entries c = some ec → d.entries c' = some ec' → ec.name = ec'.name → c = c'
  registered : d.registered.Nodup ∧ ∀ n, n ∈ d.registered ↔ procBus < n ∧ d.Live n
  predefined : ∀ n ≤ procBus, ∃ e, d.entries n = some e ∧ e.moduleID = Procfs.vmkernelModuleID
  own : ∀ n e, procBus < n → d.entries n = some e →
    ∃ p, e.privateData = some p ∧ d.pdes p = some ⟨n⟩

section Calls

variable {d d' : Procfs} {a n : Nat} {e : ProcfsEntry} {call : CreateCall} {moduleId : Nat}
  {path : List Char} {parent : Option Nat}

theorem Procfs.children_of (h : d.entries n = some e) : d.children n = e.childList := by
  rw [Procfs.children, h]
  rfl

theorem init_entries (h : Procfs.init.entries n = some e) : n ≤ procBus ∧ e.isDir = true ∧
    ((n = procRoot ∧ e.childList = [4, 3, 2, 1]) ∨ (n ≠ procRoot ∧ e.childList = [])) := by
  rcases n with _ | _ | _ | _ | _ | n
  · cases h
    exact ⟨by decide, rfl, .inl ⟨rfl, rfl⟩⟩
  iterate 4
    cases h
    exact ⟨by decide, rfl, .inr ⟨by decide, rfl⟩⟩
  · cases h

theorem init_live : Procfs.init.Live n ↔ n ≤ procBus := by
  constructor
  · rintro ⟨e, he⟩
    exact (init_entries he).1
  · intro hn
    have hall : ∀ m ≤ procBus, (Procfs.init.entries m).isSome = true := by decide
    exact Option.isSome_iff_exists.mp (hall n hn)

theorem init_children (h : Procfs.init.Live n) :
    (n = procRoot ∧ Procfs.init.children n = [4, 3, 2, 1]) ∨
      (n ≠ procRoot ∧ Procfs.init.children n = []) := by
  obtain ⟨e, he⟩ := h
  rw [Procfs.children_of he]
  exact (init_entries he).2.2

namespace ProcfsInv

theorem walkable (h : ProcfsInv d) : Walkable d d.Live := by
  rintro a ⟨e, he⟩
  refine ⟨e, he, fun c hc => h.tree.child_live ⟨e, he⟩ ?_⟩
  rwa [Procfs.children_of he]

theorem linked_iff (h : ProcfsInv d) : d.Linked n ↔ d.Live n ∧ n ≠ procRoot := by
  constructor
  · rintro ⟨p, hp, hn⟩
    have hlive := h.tree.live_of_descends hp
    exact ⟨h.tree.child_live hlive hn, fun heq => h.tree.not_root hlive (heq ▸ hn)⟩
  · rintro ⟨hlive, hne⟩
    obtain ⟨p, hp, -⟩ := h.tree.existsUnique_parent (h.tree.descends hlive) hne
    exact ⟨p, hp⟩

theorem consistent (h : ProcfsInv d) : TreeConsistent d where
  allocated n hn := h.tree.live_of_descends hn
  parent n hn hne := h.tree.existsUnique_parent hn hne
  once n hn := h.tree.nodup (h.tree.live_of_descends hn)
  dirs n e _ he hne := h.dirs n e he hne
  names n c c' e e' hn hc hc' he he' hname := by
    obtain ⟨en, hen⟩ := h.tree.live_of_descends hn
    rw [Procfs.children_of hen] at hc hc'
    exact h.names n en c c' e e' hen hc hc' he he' hname
  registered := by
    refine ⟨h.registered.1, fun n => ?_⟩
    rw [h.registered.2 n, h.linked_iff]
    refine and_congr_right fun hn => (and_iff_left ?_).symm
    exact Nat.ne_of_gt (Nat.lt_of_le_of_lt (Nat.zero_le _) hn)

theorem init : ProcfsInv Procfs.init := by
  have hlower : ∀ {p c}, Procfs.init.Live p → c ∈ Procfs.init.children p →
      p = procRoot ∧ c ∈ [4, 3, 2, 1] := fun hp hc => by
    rcases init_children hp with ⟨rfl, hall⟩ | ⟨-, hnil⟩
    · exact ⟨rfl, hall ▸ hc⟩
    · rw [hnil] at hc
      cases hc
  have hbound : ∀ {c}, c ∈ [4, 3, 2, 1] → c ≤ procBus ∧ c ≠ procRoot := by decide
  have hroot : Procfs.init.Live procRoot := init_live.mpr (Nat.zero_le _)
  refine ⟨⟨hroot, fun hp hc => ?_, fun hp => ?_, fun hp hq hc hc' => ?_, fun hp hmem => ?_,
    fun {n} hn => ?_⟩, fun n e he _ => (init_entries he).2.1, fun n e c c' ec ec' he hc hc' => ?_,
    ⟨List.nodup_nil, fun n => ?_⟩, by decide, fun n e hn he => ?_⟩
  · exact init_live.mpr (hbound (hlower hp hc).2).1
  · rcases init_children hp with ⟨-, hall⟩ | ⟨-, hnil⟩
    · rw [hall]
      decide
    · rw [hnil]
      exact List.nodup_nil
  · rw [(hlower hp hc).1, (hlower hq hc').1]
  · exact (hbound (hlower hp hmem).2).2 rfl
  · by_cases heq : n = procRoot
    · exact heq ▸ .root
    · have hall : ∀ m ≤ procBus, m ≠ procRoot → m ∈ Procfs.init.children procRoot := by decide
      exact .child .root (hall n (init_live.mp hn) heq)
  · rw [← Procfs.children_of he] at hc hc'
    have hall : ∀ c ∈ [4, 3, 2, 1], ∀ c' ∈ [4, 3, 2, 1],
        (Procfs.init.entries c).map ProcfsEntry.name =
          (Procfs.init.entries c').map ProcfsEntry.name → c = c' := by decide
    intro hec hec' hname
    refine hall c (hlower ⟨e, he⟩ hc).2 c' (hlower ⟨e, he⟩ hc').2 ?_
    rw [hec, hec', Option.map_some, Option.map_some, hname]
  · rw [init_live]
    refine iff_of_false List.not_mem_nil ?_
    exact fun hand => Nat.not_le.mpr hand.1 hand.2
  · exact absurd (init_entries he).1 (Nat.not_le.mpr hn)

theorem add {p q : Nat} {ep new : ProcfsEntry} (h : ProcfsInv d) (hp : d.entries p = some ep)
    (hdir : ep.isDir = true) (hn : d.entries n = none) (hq : d.pdes q = none)
    (hname : ∀ c ∈ ep.childList, ∀ e, d.entries c = some e → e.name ≠ new.name)
    (hleaf : new.childList = []) (hdata : new.privateData = some q)
    (hentries : d'.entries = Function.update (Function.update d.entries n (some new)) p
        (some { ep with childList := n :: ep.childList }))
    (hpdes : d'.pdes = Function.update d.pdes q (some ⟨n⟩))
    (hregistered : d'.registered = n :: d.registered) :
    ProcfsInv d' ∧ ∀ a, d'.Live a ↔ d.Live a ∨ a = n := by
  have hpn : p ≠ n := fun heq => by
    rw [heq, hn] at hp
    cases hp
  have hnew : ¬d.Live n := by
    rintro ⟨e, he⟩
    rw [hn] at he
    cases he
  have hat_p : d'.entries p = some { ep with childList := n :: ep.childList } := by
    rw [hentries, Function.update_self]
  have hat_n : d'.entries n = some new := by
    rw [hentries, Function.update_of_ne hpn.symm, Function.update_self]
  have hother : ∀ a, a ≠ p → a ≠ n → d'.entries a = d.entries a := fun a hap han => by
    rw [hentries, Function.update_of_ne hap, Function.update_of_ne han]
  have hlive : ∀ a, d'.Live a ↔ d.Live a ∨ a = n := fun a => by
    by_cases hap : a = p
    · rw [hap]
      exact iff_of_true ⟨_, hat_p⟩ (.inl ⟨_, hp⟩)
    · by_cases han : a = n
      · rw [han]
        exact iff_of_true ⟨_, hat_n⟩ (.inr rfl)
      · rw [Procfs.Live, Procfs.Live, hother a hap han, or_iff_left han]
  have hsame : ∀ a e', d'.entries a = some e' → a ≠ n → ∃ e, d.entries a = some e ∧
      e'.name = e.name ∧ e'.privateData = e.privateData ∧ e'.moduleID = e.moduleID ∧
      e'.isDir = e.isDir ∧ e'.childList = if a = p then n :: e.childList else e.childList := by
    intro a e' he' han
    by_cases hap : a = p
    · subst hap
      rw [hat_p] at he'
      cases he'
      exact ⟨ep, hp, rfl, rfl, rfl, rfl, (if_pos rfl).symm⟩
    · rw [hother a hap han] at he'
      exact ⟨e', he', rfl, rfl, rfl, rfl, (if_neg hap).symm⟩
  -- the new node is the only one that is new in a list
  have hchild : ∀ a e' c, d'.entries a = some e' → c ∈ e'.childList → ∃ e, d.entries a = some e ∧
      ((a = p ∧ c = n) ∨ (c ∈ e.childList ∧ c ≠ n)) := fun a e' c he' hc => by
    have han : a ≠ n := fun heq => by
      rw [heq, hat_n] at he'
      cases he'
      rw [hleaf] at hc
      cases hc
    obtain ⟨e, he, -, -, -, -, hchildren⟩ := hsame a e' he' han
    have hold : c ∈ e.childList → c ∈ e.childList ∧ c ≠ n := fun hc => by
      obtain ⟨e₂, he₂, hall⟩ := h.walkable a ⟨e, he⟩
      obtain rfl := Option.some.inj (he.symm.trans he₂)
      exact ⟨hc, fun heq => hnew (heq ▸ hall c hc)⟩
    refine ⟨e, he, ?_⟩
    rw [hchildren] at hc
    split at hc
    · next hap => exact (List.mem_cons.mp hc).imp (fun hcn => ⟨hap, hcn⟩) hold
    · exact .inr (hold hc)
  refine ⟨⟨?_, fun a e' he' hne => ?_, fun a e' c c' ec ec' he' hc hc' hec hec' heq => ?_, ?_,
    fun a ha => ?_, fun a e' ha he' => ?_⟩, hlive⟩
  · refine h.tree.link ⟨ep, hp⟩ hnew hlive (fun a ha => ?_) ?_
    · obtain ⟨e, he⟩ := ha
      have han : a ≠ n := fun heq => hnew (heq ▸ ⟨e, he⟩)
      obtain ⟨e', he'⟩ := (hlive a).mpr (.inl ⟨e, he⟩)
      obtain ⟨e₂, he₂, -, -, -, -, hchildren⟩ := hsame a e' he' han
      obtain rfl := Option.some.inj (he.symm.trans he₂)
      rw [Procfs.children_of he', Procfs.children_of he, hchildren]
    · rw [Procfs.children_of hat_n, hleaf]
  · by_cases han : a = n
    · rw [han, hat_n] at he'
      exact absurd hleaf (Option.some.inj he' ▸ hne)
    · obtain ⟨e, he, -, -, -, hdir', hchildren⟩ := hsame a e' he' han
      rw [hdir']
      split at hchildren
      · next hap =>
        rw [hap, hp] at he
        exact Option.some.inj he ▸ hdir
      · exact h.dirs a e he (hchildren ▸ hne)
  · have hclash : ∀ c e ec', c ∈ ep.childList → c ≠ n → d'.entries c = some ec' →
        d'.entries n = some e → e.name ≠ ec'.name := fun c e ec' hc hcn hec' he heq => by
      obtain ⟨ec, hec, hname', -⟩ := hsame c ec' hec' hcn
      rw [hat_n] at he
      exact hname c hc ec hec (hname' ▸ Option.some.inj he ▸ heq.symm)
    obtain ⟨e, he, hc⟩ := hchild a e' c he' hc
    obtain ⟨e₂, he₂, hc'⟩ := hchild a e' c' he' hc'
    obtain rfl := Option.some.inj (he.symm.trans he₂)
    rcases hc with ⟨rfl, rfl⟩ | ⟨hc, hcn⟩
    · rcases hc' with ⟨-, rfl⟩ | ⟨hc', hcn'⟩
      · rfl
      · obtain rfl := Option.some.inj (hp.symm.trans he)
        exact absurd heq (hclash c' ec ec' hc' hcn' hec' hec)
    · rcases hc' with ⟨rfl, rfl⟩ | ⟨hc', hcn'⟩
      · obtain rfl := Option.some.inj (hp.symm.trans he)
        exact absurd heq.symm (hclash c ec' ec hc hcn hec hec')
      · obtain ⟨ec₂, hec₂, hname₂, -⟩ := hsame c ec hec hcn
        obtain ⟨ec₃, hec₃, hname₃, -⟩ := hsame c' ec' hec' hcn'
        exact h.names a e c c' ec₂ ec₃ he hc hc' hec₂ hec₃ (hname₂ ▸ hname₃ ▸ heq)
  · have hbus : procBus < n := by
      by_contra hle
      obtain ⟨e, he, -⟩ := h.predefined n (Nat.not_lt.mp hle)
      exact hnew ⟨e, he⟩
    rw [hregistered]
    refine ⟨List.nodup_cons.mpr ⟨fun hmem => hnew ((h.registered.2 n).mp hmem).2, h.registered.1⟩,
      fun a => ?_⟩
    rw [List.mem_cons, h.registered.2 a, hlive a]
    constructor
    · rintro (rfl | ⟨ha, hal⟩)
      · exact ⟨hbus, .inr rfl⟩
      · exact ⟨ha, .inl hal⟩
    · rintro ⟨ha, hal | rfl⟩
      · exact .inr ⟨ha, hal⟩
      · exact .inl rfl
  · obtain ⟨e, he, hmodule⟩ := h.predefined a ha
    obtain ⟨e', he'⟩ := (hlive a).mpr (.inl ⟨e, he⟩)
    have han : a ≠ n := fun heq => hnew (heq ▸ ⟨e, he⟩)
    obtain ⟨e₂, he₂, -, -, hmodule', -⟩ := hsame a e' he' han
    obtain rfl := Option.some.inj (he.symm.trans he₂)
    exact ⟨e', he', hmodule'.trans hmodule⟩
  · by_cases han : a = n
    · rw [han, hat_n] at he'
      refine ⟨q, Option.some.inj he' ▸ hdata, ?_⟩
      rw [hpdes, Function.update_self, han]
    · obtain ⟨e, he, -, hdata', -⟩ := hsame a e' he' han
      obtain ⟨r, hr, hpr⟩ := h.own a e ha he
      refine ⟨r, hdata'.trans hr, ?_⟩
      have hrq : r ≠ q := fun heq => by
        rw [heq, hq] at hpr
        cases hpr
      rw [hpdes, Function.update_of_ne hrq, hpr]

theorem erase (h : ProcfsInv d) (hn : d.entries n = some e) (hbus : procBus < n)
    (hleaf : e.childList = [])
    (hentries : d'.entries = Function.update (d.removeEntryFromParent n).entries n none)
    (hpdes : d'.pdes = fun q => if some q = e.privateData then none else d.pdes q)
    (hregistered : d'.registered = d.registered.erase n) :
    ProcfsInv d' ∧ ∀ a, d'.Live a ↔ d.Live a ∧ a ≠ n := by
  have hat : ∀ a, a ≠ n → d'.entries a =
      (d.entries a).map fun e => { e with childList := e.childList.erase n } := fun a han => by
    rw [hentries, Function.update_of_ne han]
    rfl
  have hgone : d'.entries n = none := by rw [hentries, Function.update_self]
  have hsame : ∀ a e', d'.entries a = some e' → a ≠ n ∧ ∃ e, d.entries a = some e ∧
      e' = { e with childList := e.childList.erase n } := fun a e' he' => by
    have han : a ≠ n := fun heq => by
      rw [heq, hgone] at he'
      cases he'
    rw [hat a han] at he'
    obtain ⟨e, he, rfl⟩ := Option.map_eq_some_iff.mp he'
    exact ⟨han, e, he, rfl⟩
  have hlive : ∀ a, d'.Live a ↔ d.Live a ∧ a ≠ n := fun a => by
    constructor
    · rintro ⟨e', he'⟩
      obtain ⟨han, e, he, -⟩ := hsame a e' he'
      exact ⟨⟨e, he⟩, han⟩
    · rintro ⟨⟨e, he⟩, han⟩
      exact ⟨_, (hat a han).trans (congrArg _ he)⟩
  have hroot : n ≠ procRoot := Nat.ne_of_gt (Nat.lt_of_le_of_lt (Nat.zero_le _) hbus)
  refine ⟨⟨?_, fun a e' he' hne => ?_, fun a e' c c' ec ec' he' hc hc' hec hec' heq => ?_, ?_,
    fun a ha => ?_, fun a e' ha he' => ?_⟩, hlive⟩
  · refine h.tree.unlink hroot (by rw [Procfs.children_of hn, hleaf]) hlive fun a ha han => ?_
    obtain ⟨e, he⟩ := ha
    rw [Procfs.children_of ((hat a han).trans (congrArg _ he)), Procfs.children_of he]
  · obtain ⟨-, e, he, rfl⟩ := hsame a e' he'
    refine h.dirs a e he fun hnil => hne ?_
    rw [hnil, List.erase_nil]
  · obtain ⟨-, e, he, rfl⟩ := hsame a e' he'
    obtain ⟨-, ec₀, hec₀, rfl⟩ := hsame c ec hec
    obtain ⟨-, ec₁, hec₁, rfl⟩ := hsame c' ec' hec'
    exact h.names a e c c' ec₀ ec₁ he (List.mem_of_mem_erase hc) (List.mem_of_mem_erase hc') hec₀
      hec₁ heq
  · rw [hregistered]
    refine ⟨h.registered.1.erase n, fun a => ?_⟩
    rw [h.registered.1.mem_erase_iff, h.registered.2 a, hlive a]
    exact ⟨fun ⟨hne, ha, hal⟩ => ⟨ha, hal, hne⟩, fun ⟨ha, hal, hne⟩ => ⟨hne, ha, hal⟩⟩
  · obtain ⟨e, he, hmodule⟩ := h.predefined a ha
    have han : a ≠ n := fun heq => Nat.not_le.mpr hbus (heq ▸ ha)
    exact ⟨_, (hat a han).trans (congrArg _ he), hmodule⟩
  · obtain ⟨han, ea, hea, rfl⟩ := hsame a e' he'
    obtain ⟨r, hr, hpr⟩ := h.own a ea ha hea
    suffices hne : some r ≠ e.privateData by
      refine ⟨r, hr, ?_⟩
      rw [hpdes]
      exact (if_neg hne).trans hpr
    -- a `proc_dir_entry` is that of one node
    intro heq
    obtain ⟨r', hr', hpr'⟩ := h.own n e hbus hn
    obtain rfl := Option.some.inj (heq.trans hr')
    rw [hpr] at hpr'
    exact han (ProcDirEntry.mk.inj (Option.some.inj hpr'))

end ProcfsInv

/-! ## The calls -/

theorem find_congr (h : ProcfsInv d) (hn : d.entries n = none)
    (hentries : d'.entries = Function.update d.entries n (some e)) (ha : d.Live a) :
    d'.findEntry a path = d.findEntry a path ∧
      d'.findParentEntry a path = d.findParentEntry a path := by
  have hsame : ∀ a, d.Live a → d'.entries a = d.entries a := fun a ⟨ea, hea⟩ => by
    have han : a ≠ n := fun heq => by
      rw [heq, hn] at hea
      cases hea
    rw [hentries, Function.update_of_ne han]
  have hwalk := fun entry names => walk_congr h.walkable hsame ha entry names
  refine ⟨?_, ?_⟩
  · rw [Procfs.findEntry, Procfs.findEntry, hwalk]
  · rw [Procfs.findParentEntry, Procfs.findParentEntry]
    split
    · rfl
    · rw [hwalk]

/-- What a creation does: it fails and changes nothing, or is refused by `vmk_ProcEntryCreate` and does
    not leave the tree as it was, or adds a node. -/
def CreateOutcome (d : Procfs) (call : CreateCall) (ok : Bool) (d' : Procfs) : Prop :=
  (ok = false ∧ d' = d ∧ (d.creates call = true → call.created = true)) ∨
    (ok = false ∧ d' ≠ d ∧ d.creates call = true ∧ call.created = false) ∨
    (ok = true ∧ call.created = true ∧ ProcfsInv d' ∧ ∀ a, d.Live a → d'.Live a)

theorem create_spec (h : ProcfsInv d) (hposs : d.Possible (.create call)) :
    ∃ ok d', d.call (.create call) = .ok (ok, d') ∧ CreateOutcome d call ok d' := by
  obtain ⟨-, ⟨pde, hpde, e, he, hdir⟩, hq, hn⟩ := hposs
  have hpde : d.pdes (call.parent.getD procRoot) = some pde := hpde
  have he : d.entries pde.vmkplxrProcEntry = some e := he
  have hearly : d.createProcEntry call = .ok (none, d) → d.creates call ≠ true →
      ∃ ok d', d.call (.create call) = .ok (ok, d') ∧ CreateOutcome d call ok d' := by
    intro hcall hcreates
    refine ⟨false, d, ?_, .inl ⟨rfl, rfl, fun hc => absurd hc hcreates⟩⟩
    rw [Procfs.call, hcall]
    rfl
  have hcreates : d.creates call =
      match d.findEntry pde.vmkplxrProcEntry call.path,
        d.findParentEntry pde.vmkplxrProcEntry call.path with
      | .ok none, .ok (some _) =>
        call.path.length < procfsMaxName ∧ call.pde.isSome ∧ call.entry.isSome
      | _, _ => false := by
    rw [Procfs.creates, hpde]
  by_cases hlen : procfsMaxName ≤ call.path.length
  · refine hearly (by rw [Procfs.createProcEntry, if_pos hlen]) ?_
    rw [hcreates]
    split <;> simp [Nat.not_lt.mpr hlen]
  cases hpdeCall : call.pde with
  | none =>
    refine hearly (by rw [Procfs.createProcEntry, if_neg hlen, hpdeCall]) ?_
    rw [hcreates]
    split <;> simp [hpdeCall]
  | some q =>
  cases hentryCall : call.entry with
  | none =>
    refine hearly (by rw [Procfs.createProcEntry, if_neg hlen, hpdeCall, hentryCall]) ?_
    rw [hcreates]
    split <;> simp [hentryCall]
  | some n =>
  replace hq := hq q hpdeCall
  replace hn := hn n hentryCall
  let newEntry : ProcfsEntry :=
    { name := (baseName call.path).take (procfsMaxName - 1)
      moduleID := call.moduleId
      isDir := call.isDir
      privateData := some q }
  let d₁ : Procfs := { d with
    entries := Function.update d.entries n (some newEntry)
    pdes := Function.update d.pdes q (some ⟨n⟩) }
  have hcall : d.createProcEntry call =
      (d₁.attachEntry pde.vmkplxrProcEntry call.path n call.created).map fun r =>
        if r.1.isNone then (some q, r.2)
        else (none, { r.2 with
          entries := Function.update r.2.entries n none
          pdes := Function.update r.2.pdes q none }) := by
    rw [Procfs.createProcEntry, if_neg hlen, hpdeCall, hentryCall]
    simp only [follow_some hpde, bind, Except.bind]
    cases d₁.attachEntry pde.vmkplxrProcEntry call.path n call.created with
    | error f => rfl
    | ok r =>
      obtain ⟨_ | status, d₂⟩ := r
      · rfl
      · rfl
  have hrestore : { d₁ with
      entries := Function.update d₁.entries n none
      pdes := Function.update d₁.pdes q none } = d := by
    have hentries : Function.update d₁.entries n none = d.entries :=
      (Function.update_idem _ _ _).trans (Function.update_eq_self_iff.mpr hn.symm)
    have hpdes : Function.update d₁.pdes q none = d.pdes :=
      (Function.update_idem _ _ _).trans (Function.update_eq_self_iff.mpr hq.symm)
    rw [hentries, hpdes]
  -- a node that is not linked is freed, and nothing is left of it
  have hfailed : ∀ status, d₁.attachEntry pde.vmkplxrProcEntry call.path n call.created =
      .ok (some status, d₁) → d.call (.create call) = .ok (false, d) := fun status hattach => by
    rw [Procfs.call, hcall, hattach]
    exact congrArg (fun d => Except.ok (false, d)) hrestore
  have hlookup : d₁.findEntry pde.vmkplxrProcEntry call.path =
        d.findEntry pde.vmkplxrProcEntry call.path ∧
      d₁.findParentEntry pde.vmkplxrProcEntry call.path =
        d.findParentEntry pde.vmkplxrProcEntry call.path := find_congr h hn rfl ⟨e, he⟩
  obtain ⟨hfind, hparent⟩ := hlookup
  rcases findParentEntry_spec h.walkable ⟨e, he⟩ he hdir (Nat.not_le.mp hlen) with
    ⟨m, hm⟩ | ⟨hnone, hpnone⟩ | ⟨p, ep, hnone, hsome, -, hep, hdir', hall⟩
  · refine ⟨false, d, hfailed .exist ?_, .inl ⟨rfl, rfl, fun hc => ?_⟩⟩
    · rw [Procfs.attachEntry, if_neg hlen, hfind, hm]
      rfl
    · rw [hcreates, hm] at hc
      cases hc
  · refine ⟨false, d, hfailed .failure ?_, .inl ⟨rfl, rfl, fun hc => ?_⟩⟩
    · rw [Procfs.attachEntry, if_neg hlen, hfind, hparent, hnone, hpnone]
      rfl
    · rw [hcreates, hnone, hpnone] at hc
      cases hc
  · have hc : d.creates call = true := by
      rw [hcreates, hnone, hsome]
      simp [hpdeCall, hentryCall, Nat.not_le.mp hlen]
    have hpn : p ≠ n := fun heq => by
      rw [heq, hn] at hep
      cases hep
    have hep₁ : d₁.entries p = some ep := (Function.update_of_ne hpn _ _).trans hep
    have hadd : d₁.addEntryToParent p n = .ok { d₁ with
        entries := Function.update d₁.entries p
          (some { ep with childList := n :: ep.childList }) } := by
      rw [Procfs.addEntryToParent, follow_some hep₁]
      rfl
    cases hcreated : call.created with
    | false =>
      let d₂ : Procfs := { d₁ with
        entries := Function.update (Function.update d₁.entries p
          (some { ep with childList := n :: ep.childList })) n none
        pdes := Function.update d₁.pdes q none }
      refine ⟨false, d₂, ?_, .inr (.inl ⟨rfl, fun heq => ?_, hc, hcreated⟩)⟩
      · rw [Procfs.call, hcall, Procfs.attachEntry, if_neg hlen, hfind, hparent, hnone, hsome]
        simp only [bind, Except.bind, hadd, hcreated]
        rfl
      · -- the parent still has the node in its list
        have hat : d₂.entries p = some { ep with childList := n :: ep.childList } :=
          (Function.update_of_ne hpn _ _).trans (Function.update_self _ _ _)
        rw [heq, hep] at hat
        have hlist := congrArg ProcfsEntry.childList (Option.some.inj hat)
        exact List.cons_ne_self n ep.childList hlist.symm
    | true =>
      let d₂ : Procfs := { d₁ with
        entries := Function.update d₁.entries p (some { ep with childList := n :: ep.childList })
        registered := n :: d.registered }
      have hname : newEntry.name = baseName call.path :=
        List.take_of_length_le
          (Nat.le_trans (baseName_length _) (Nat.le_pred_of_lt (Nat.not_le.mp hlen)))
      have hadded : ProcfsInv d₂ ∧ ∀ a, d₂.Live a ↔ d.Live a ∨ a = n :=
        h.add hep hdir' hn hq (hname ▸ hall) rfl rfl rfl rfl rfl
      obtain ⟨h', hlive⟩ := hadded
      refine ⟨true, d₂, ?_, .inr (.inr ⟨rfl, hcreated, h', fun a ha => (hlive a).mpr (.inl ha)⟩)⟩
      rw [Procfs.call, hcall, Procfs.attachEntry, if_neg hlen, hfind, hparent, hnone, hsome]
      simp only [bind, Except.bind, hadd, hcreated]
      rfl

/-- What a removal does: it fails and changes nothing, or takes out a node of the caller without
    children. -/
def RemoveOutcome (d : Procfs) (moduleId : Nat) (path : List Char) (parent : Option Nat) (ok : Bool)
    (d' : Procfs) : Prop :=
  (ok = false ∧ d' = d ∧ d.removesFile moduleId path parent = false) ∨
    (ok = true ∧ ProcfsInv d' ∧ ∃ n node, d.entries n = some node ∧ node.moduleID = moduleId ∧
      node.childList = [] ∧ n ≠ procRoot ∧ (∀ a, d'.Live a ↔ d.Live a ∧ a ≠ n) ∧
      (d.Names parent path n ↔ d.removesFile moduleId path parent = false))

theorem remove_spec (h : ProcfsInv d) (hposs : d.Possible (.remove moduleId path parent)) :
    ∃ ok d', d.call (.remove moduleId path parent) = .ok (ok, d') ∧
      RemoveOutcome d moduleId path parent ok d' := by
  obtain ⟨hmodule, pde, hpde, e, he, hdir⟩ := hposs
  have hpde : d.pdes (parent.getD procRoot) = some pde := hpde
  have he : d.entries pde.vmkplxrProcEntry = some e := he
  obtain ⟨r, hr, hfound⟩ := findEntry_spec h.walkable ⟨e, he⟩ he hdir path
  have hremoves : d.removesFile moduleId path parent = r.any fun n =>
      decide (d.stops pde.vmkplxrProcEntry (pathNames (pathBuffer path)) = true ∧
        (d.entries n).any (fun e => e.moduleID = moduleId) = true) := by
    simp only [Procfs.removesFile, hpde, hr]
    cases r <;> rfl
  have hfailed : d.removeProcEntry moduleId path parent = .ok (false, d) →
      d.removesFile moduleId path parent = false →
      ∃ ok d', d.call (.remove moduleId path parent) = .ok (ok, d') ∧
        RemoveOutcome d moduleId path parent ok d' :=
    fun hcall hno => ⟨false, d, hcall, .inl ⟨rfl, rfl, hno⟩⟩
  by_cases hlen : procfsMaxName ≤ path.length
  · refine hfailed (by rw [Procfs.removeProcEntry, if_pos hlen]) ?_
    have hne : path ≠ [] := fun heq => by
      rw [heq] at hlen
      exact absurd hlen (by decide)
    rw [Procfs.findEntry, if_neg hne, if_pos hlen] at hr
    rw [hremoves, ← Except.ok.inj hr]
    rfl
  have hrefused : ∀ status, d.detachEntry moduleId pde.vmkplxrProcEntry path = .ok (.error status, d) →
      d.removeProcEntry moduleId path parent = .ok (false, d) := fun status hdetach => by
    rw [Procfs.removeProcEntry, if_neg hlen]
    simp only [follow_some hpde, bind, Except.bind, hdetach]
    rfl
  cases r with
  | none =>
    refine hfailed (hrefused .notFound ?_) hremoves
    rw [Procfs.detachEntry, hr]
    rfl
  | some n =>
    obtain ⟨⟨node, hn⟩, hnamed, hfile⟩ := hfound n rfl
    have hdetach : d.detachEntry moduleId pde.vmkplxrProcEntry path =
        if node.moduleID ≠ moduleId then .ok (.error .noPermission, d)
        else if node.isDir ∧ node.childList ≠ [] then .ok (.error .busy, d)
        else .ok (.ok n,
          { d.removeEntryFromParent n with registered := d.registered.erase n }) := by
      rw [Procfs.detachEntry, hr]
      simp only [bind, Except.bind, follow_some hn]
      rfl
    rw [Option.any_some, hn, Option.any_some] at hremoves
    by_cases howner : node.moduleID = moduleId
    · by_cases hbusy : node.isDir ∧ node.childList ≠ []
      · rw [if_neg (not_not_intro howner), if_pos hbusy] at hdetach
        refine hfailed (hrefused .busy hdetach) ?_
        -- at a directory no walk stops
        rw [hremoves, decide_eq_false_iff_not]
        rintro ⟨hstops, -⟩
        obtain ⟨e', he', hdir'⟩ := hfile hstops
        obtain rfl := Option.some.inj (hn.symm.trans he')
        rw [hbusy.1] at hdir'
        cases hdir'
      · rw [if_neg (not_not_intro howner), if_neg hbusy] at hdetach
        have hleaf : node.childList = [] := by
          by_contra hne
          exact hbusy ⟨h.dirs n node hn hne, hne⟩
        have hbus : procBus < n := by
          by_contra hle
          obtain ⟨e', he', hvmkernel⟩ := h.predefined n (Nat.not_lt.mp hle)
          obtain rfl := Option.some.inj (hn.symm.trans he')
          exact hmodule (howner.symm.trans hvmkernel)
        obtain ⟨q, hdata, hq⟩ := h.own n node hbus hn
        let d₁ : Procfs :=
          { entries := Function.update (d.removeEntryFromParent n).entries n none
            pdes := fun p => if some p = some q then none else d.pdes p
            registered := d.registered.erase n }
        have hcall : d.removeProcEntry moduleId path parent = .ok (true, d₁) := by
          have hnode : (d.removeEntryFromParent n).entries n =
              some { node with childList := node.childList.erase n } := by
            rw [show (d.removeEntryFromParent n).entries n = (d.entries n).map fun e =>
              { e with childList := e.childList.erase n } from rfl, hn]
            rfl
          have hpde₁ : follow (d.removeEntryFromParent n).pdes (some q) = .ok ⟨n⟩ := follow_some hq
          rw [Procfs.removeProcEntry, if_neg hlen]
          simp only [follow_some hpde, bind, Except.bind, hdetach, follow_some hnode, hdata, hpde₁,
            vmkAssert, if_true]
          rfl
        have herased : ProcfsInv d₁ ∧ ∀ a, d₁.Live a ↔ d.Live a ∧ a ≠ n :=
          h.erase hn hbus hleaf rfl (by rw [hdata]) rfl
        refine ⟨true, d₁, hcall, .inr ⟨rfl, herased.1, n, node, hn, howner, hleaf, ?_, herased.2, ?_⟩⟩
        · exact Nat.ne_of_gt (Nat.lt_of_le_of_lt (Nat.zero_le _) hbus)
        · have hnames : d.Names parent path n ↔
              Leads d pde.vmkplxrProcEntry (pathNames (pathBuffer path)) n := by
            constructor
            · rintro ⟨pde', hpde', hleads⟩
              obtain rfl := Option.some.inj (hpde.symm.trans hpde')
              exact hleads
            · exact fun hleads => ⟨pde, hpde, hleads⟩
          rw [hnames, hremoves, decide_eq_true howner, decide_eq_false_iff_not, and_iff_left rfl,
            Bool.not_eq_true]
          refine ⟨fun hleads => ?_, hnamed⟩
          by_contra hstops
          exact not_leads_of_stops h.walkable h.names ⟨e, he⟩ (Bool.not_eq_false _ ▸ hstops) hleads
    · rw [if_pos howner] at hdetach
      refine hfailed (hrefused .noPermission hdetach) ?_
      rw [hremoves, decide_eq_false howner, decide_eq_false_iff_not]
      rintro ⟨-, hfalse⟩
      cases hfalse

theorem call_spec {e : ProcfsCall} (h : ProcfsInv d) (hposs : d.Possible e) :
    ∃ ok d', d.call e = .ok (ok, d') ∧
      (ProcfsCareful (.ok d) e → ProcfsInv d' ∧ CallRight d e ok d') ∧
      (CallRight d e ok d' → ProcfsCareful (.ok d) e) := by
  cases e with
  | create call =>
    obtain ⟨ok, d', hcall, houtcome⟩ := create_spec h hposs
    refine ⟨ok, d', hcall, ?_⟩
    rcases houtcome with ⟨rfl, rfl, hguard⟩ | ⟨rfl, hne, hcreates, hrefused⟩ |
      ⟨rfl, hcreated, h', hlive⟩
    · refine ⟨fun _ => ⟨h, fun _ => rfl, fun n hn hn' => absurd hn hn'⟩, fun _ => hguard⟩
    · refine ⟨fun hguard => ?_, fun hright => absurd (hright.failed rfl) hne⟩
      have hcreated : call.created = true := hguard hcreates
      rw [hrefused] at hcreated
      cases hcreated
    · refine ⟨fun _ => ⟨h', nofun, fun n hn hn' => ?_⟩, fun _ _ => hcreated⟩
      rw [h.linked_iff] at hn
      exact absurd (h'.linked_iff.mpr ⟨hlive n hn.1, hn.2⟩) hn'
  | remove moduleId path parent =>
    obtain ⟨ok, d', hcall, houtcome⟩ := remove_spec h hposs
    refine ⟨ok, d', hcall, ?_⟩
    rcases houtcome with ⟨rfl, rfl, hguard⟩ |
      ⟨rfl, h', n, node, hn, howner, hleaf, hroot, hlive, hnames⟩
    · exact ⟨fun _ => ⟨h, fun _ => rfl, fun n hn hn' => absurd hn hn'⟩, fun _ => hguard⟩
    · have hbefore : d.Linked n := h.linked_iff.mpr ⟨⟨node, hn⟩, hroot⟩
      have hbehind : ¬d'.Linked n := fun hlinked =>
        ((hlive n).mp (h'.linked_iff.mp hlinked).1).2 rfl
      refine ⟨fun hguard => ⟨h', nofun, fun m hm hm' => ?_⟩, fun hright => ?_⟩
      · have hmn : m = n := by
          by_contra hmn
          rw [h.linked_iff] at hm
          exact hm' (h'.linked_iff.mpr ⟨(hlive m).mpr ⟨hm.1, hmn⟩, hm.2⟩)
        rw [hmn]
        exact ⟨moduleId, path, parent, node, rfl, hn, howner, hleaf, hnames.mpr hguard⟩
      · obtain ⟨_, _, _, _, hcall', -, -, -, hnamed⟩ := hright.detached n hbefore hbehind
        cases hcall'
        exact hnames.mp hnamed

end Calls

/-! ## Every run -/

theorem procfsInv_of_run {s : Except Fault Procfs} {es : List ProcfsCall}
    (hrun : Run (Guarded ProcfsStep ProcfsCareful) (.ok .init) es s) :
    ∃ d, s = .ok d ∧ ProcfsInv d := by
  refine hrun.invariant (I := fun s => ∃ d, s = .ok d ∧ ProcfsInv d) ?_ ⟨_, rfl, ProcfsInv.init⟩
  rintro _ e t ⟨d, rfl, h⟩ ⟨hguard, hstep⟩
  have hnext : (if d.Possible e then some ((d.call e).map Prod.snd) else none) = some t := hstep
  by_cases hposs : d.Possible e
  · obtain ⟨ok, d', hcall, hkeep, -⟩ := call_spec h hposs
    rw [if_pos hposs, hcall] at hnext
    exact ⟨d', (Option.some.inj hnext).symm, (hkeep hguard).1⟩
  · rw [if_neg hposs] at hnext
    cases hnext

/-- **The proc tree.** Where `vmk_ProcEntryCreate` has not refused a node, and no module has removed
    one of its files by a path that goes on behind it, the tree is consistent, and of the calls that
    may come next, just those that keep to this leave it so, change nothing if they fail, and take
    out a node only for its owner, who names it, and without children. -/
theorem procfs_tree {s : Except Fault Procfs} {es : List ProcfsCall}
    (hrun : Run (Guarded ProcfsStep ProcfsCareful) (.ok .init) es s) :
    ∃ d, s = .ok d ∧ TreeConsistent d ∧ ∀ e, d.Possible e → ∃ ok d', d.call e = .ok (ok, d') ∧
      (TreeConsistent d' ∧ CallRight d e ok d' ↔ ProcfsCareful s e) := by
  obtain ⟨d, rfl, h⟩ := procfsInv_of_run hrun
  refine ⟨d, rfl, h.consistent, fun e hposs => ?_⟩
  obtain ⟨ok, d', hcall, hkeep, hneed⟩ := call_spec h hposs
  refine ⟨ok, d', hcall, fun hright => hneed hright.2, fun hguard => ?_⟩
  exact ⟨(hkeep hguard).1.consistent, (hkeep hguard).2⟩

/-- A directory and a file in it are made and removed; the directory is not while the file is in it. -/
def carefulRun : List ProcfsCall :=
  [.create ⟨7, "a".toList, true, none, some 10, some 10, true⟩,
    .create ⟨8, "a//f".toList, false, none, some 11, some 11, true⟩,
    .create ⟨8, "f".toList, false, some 10, some 12, some 12, true⟩,
    .remove 7 "a".toList none, .remove 7 "f".toList (some 10), .remove 8 "a/f".toList none,
    .remove 7 "a".toList none]

theorem procfs_tree_carefulRun :
    ∃ d, Run (Guarded ProcfsStep ProcfsCareful) (.ok .init) carefulRun (.ok d) ∧
      d.registered = [] ∧ d.entries 11 = none ∧ TreeConsistent d := by
  have hexec : ∃ d, Run.exec
      (fun s e => if ProcfsCareful s e then procfsNext? s e else none)
      (.ok Procfs.init) carefulRun = some (.ok d) ∧ d.registered = [] ∧ d.entries 11 = none :=
    ⟨_, rfl, rfl, rfl⟩
  obtain ⟨d, hd, hregistered, hfreed⟩ := hexec
  have hsound : ∀ s e t, (if ProcfsCareful s e then procfsNext? s e else none) = some t →
      Guarded ProcfsStep ProcfsCareful s e t := fun s e t h =>
    (guarded_eq_some_iff (T := ProcfsStep) (fun _ _ _ => Iff.rfl) s e t).mp h
  have hrun := Run.of_exec hsound hd
  obtain ⟨d', hd', hconsistent, -⟩ := procfs_tree hrun
  cases hd'
  exact ⟨d, hrun, hregistered, hfreed, hconsistent⟩

/-- The node of a directory that `vmk_ProcEntryCreate` refuses is freed, and still in the list of the
    root; a file is removed by a path that goes on behind it. -/
theorem procfs_dangling :
    (∃ d, Run ProcfsStep (.ok .init)
        [.create ⟨7, "a".toList, true, none, some 10, some 10, false⟩] (.ok d) ∧
      10 ∈ d.children procRoot ∧ d.entries 10 = none ∧ ¬TreeConsistent d) ∧
    ∃ d d', Run ProcfsStep (.ok .init)
        [.create ⟨7, "f".toList, false, none, some 10, some 10, true⟩] (.ok d) ∧
      d.Possible (.remove 7 "f/x".toList none) ∧
      d.call (.remove 7 "f/x".toList none) = .ok (true, d') ∧
      d.registered = [10] ∧ d'.registered = [] ∧
      ¬CallRight d (.remove 7 "f/x".toList none) true d' := by
  refine ⟨?_, ?_⟩
  · have hexec : ∃ d, Run.exec procfsNext? (.ok Procfs.init)
        [.create ⟨7, "a".toList, true, none, some 10, some 10, false⟩] = some (.ok d) ∧
        d.children procRoot = [10, 4, 3, 2, 1] ∧ d.entries 10 = none := ⟨_, rfl, rfl, rfl⟩
    obtain ⟨d, hd, hchildren, hfreed⟩ := hexec
    have hmem : 10 ∈ d.children procRoot := by
      rw [hchildren]
      decide
    refine ⟨d, Run.of_exec (fun _ _ _ h => h) hd, hmem, hfreed, fun hconsistent => ?_⟩
    obtain ⟨e, he⟩ := hconsistent.allocated 10 (.child .root hmem)
    rw [hfreed] at he
    cases he
  · have hexec : ∃ d d', procfsNext? (.ok Procfs.init)
          (.create ⟨7, "f".toList, false, none, some 10, some 10, true⟩) = some (.ok d) ∧
        d.Possible (.remove 7 "f/x".toList none) ∧
        d.call (.remove 7 "f/x".toList none) = .ok (true, d') ∧
        d.registered = [10] ∧ d'.registered = [] ∧
        ¬ProcfsCareful (.ok d) (.remove 7 "f/x".toList none) :=
      ⟨_, _, rfl, by decide, rfl, rfl, rfl, by decide⟩
    obtain ⟨d, d', hd, hposs, hcall, hbefore, hbehind, hcareless⟩ := hexec
    have hstep : ProcfsStep (.ok .init)
        (.create ⟨7, "f".toList, false, none, some 10, some 10, true⟩) (.ok d) := hd
    refine ⟨d, d', .single hstep, hposs, hcall, hbefore, hbehind, fun hright => hcareless ?_⟩
    have hguarded : Guarded ProcfsStep ProcfsCareful (.ok .init)
        (.create ⟨7, "f".toList, false, none, some 10, some 10, true⟩) (.ok d) :=
      ⟨fun _ => rfl, hstep⟩
    obtain ⟨d₂, hd₂, h⟩ := procfsInv_of_run (.single hguarded)
    cases hd₂
    obtain ⟨ok, d₃, hcall₃, -, hneed⟩ := call_spec h hposs
    obtain ⟨rfl, rfl⟩ := Prod.mk.inj (Except.ok.inj (hcall.symm.trans hcall₃))
    exact hneed hright

end VmkDrivers.Vmkplexer
