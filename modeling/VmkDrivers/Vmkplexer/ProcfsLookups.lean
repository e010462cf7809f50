/-
  VmkDrivers.Vmkplexer.ProcfsLookups

  What the lookups of the proc tree find.

  A walk finds the node that its names lead to, or where it meets a file with
  names left, that file (`walk_spec`).  A path that is not found, but whose
  parent is, has for its parent a directory without a child of its base name
  (`findParentEntry_spec`).
-/

import VmkDrivers.Vmkplexer.ProcfsPaths

namespace VmkDrivers.Vmkplexer

inductive Leads (d : Procfs) : Nat → List (List Char) → Nat → Prop
  | nil (a : Nat) : Leads d a [] a
  | cons {a b c : Nat} {e child : ProcfsEntry} {names : List (List Char)}
      (ha : d.entries a = some e) (hdir : e.isDir = true) (hc : c ∈ e.childList)
      (hchild : d.entries c = some child) (h : Leads d c names b) :
      Leads d a (child.name :: names) b

def Procfs.stops (d : Procfs) (a : Nat) : List (List Char) → Bool
  | [] => false
  | name :: names =>
    match d.entries a with
    | none => false
    | some e =>
      if e.isDir = false then true
      else
        match d.findChildEntry name e.childList with
        | .ok (some c) => d.stops c names
        | _ => false

variable {d d' : Procfs} {P : Nat → Prop} {a b n : Nat} {e : ProcfsEntry} {name : List Char}
  {names : List (List Char)} {cs : List Nat} {path : List Char}

/-- The entries in `P` are allocated, and so are those in their lists. -/
def Walkable (d : Procfs) (P : Nat → Prop) : Prop :=
  ∀ a, P a → ∃ e, d.entries a = some e ∧ ∀ c ∈ e.childList, P c

theorem findChildEntry_spec (name : List Char) (h : ∀ c ∈ cs, ∃ e, d.entries c = some e) :
    (d.findChildEntry name cs = .ok none ∧ ∀ c ∈ cs, ∀ e, d.entries c = some e → e.name ≠ name) ∨
      ∃ c ∈ cs, ∃ e, d.findChildEntry name cs = .ok (some c) ∧ d.entries c = some e ∧
        e.name = name := by
  induction cs with
  | nil => exact .inl ⟨rfl, nofun⟩
  | cons c cs ih =>
    obtain ⟨e, he⟩ := h c List.mem_cons_self
    have hgo : d.findChildEntry name (c :: cs) =
        if e.name = name then .ok (some c) else d.findChildEntry name cs := by
      rw [Procfs.findChildEntry, follow_some he]
      rfl
    rw [hgo]
    by_cases hname : e.name = name
    · rw [if_pos hname]
      exact .inr ⟨c, List.mem_cons_self, e, rfl, he, hname⟩
    · rw [if_neg hname]
      rcases ih fun c hc => h c (List.mem_cons_of_mem _ hc) with ⟨hnone, hall⟩ |
        ⟨c', hc', e', hfound, he', hname'⟩
      · refine .inl ⟨hnone, fun c' hc' e' he' => ?_⟩
        rcases List.mem_cons.mp hc' with rfl | hc'
        · rw [he] at he'
          exact Option.some.inj he' ▸ hname
        · exact hall c' hc' e' he'
      · exact .inr ⟨c', List.mem_cons_of_mem _ hc', e', hfound, he', hname'⟩

theorem walk_cons (hP : Walkable d P) (ha : P a) (name : List Char) :
    ∃ e, d.entries a = some e ∧
      ((e.isDir = false ∧ ∀ entry names, d.walk a entry (name :: names) = .ok entry ∧
          d.stops a (name :: names) = true) ∨
        (e.isDir = true ∧ (∀ entry names, d.walk a entry (name :: names) = .ok none) ∧
          ∀ c ∈ e.childList, ∀ e', d.entries c = some e' → e'.name ≠ name) ∨
        ∃ c ∈ e.childList, ∃ e', e.isDir = true ∧ P c ∧ d.entries c = some e' ∧ e'.name = name ∧
          ∀ entry names, d.walk a entry (name :: names) = d.walk c (some c) names ∧
            d.stops a (name :: names) = d.stops c names) := by
  obtain ⟨e, he, hcs⟩ := hP a ha
  refine ⟨e, he, ?_⟩
  cases hdir : e.isDir with
  | false =>
    refine .inl ⟨rfl, fun entry names => ⟨?_, ?_⟩⟩
    · simp [Procfs.walk, follow_some he, bind, Except.bind, hdir, pure, Except.pure]
    · simp [Procfs.stops, he, hdir]
  | true =>
    refine .inr ?_
    have hchildren : ∀ c ∈ e.childList, ∃ e', d.entries c = some e' := fun c hc => by
      obtain ⟨e', he', -⟩ := hP c (hcs c hc)
      exact ⟨e', he'⟩
    rcases findChildEntry_spec name hchildren with ⟨hnone, hall⟩ | ⟨c, hc, e', hfound, he', hname⟩
    · refine .inl ⟨rfl, fun entry names => ?_, hall⟩
      simp [Procfs.walk, follow_some he, bind, Except.bind, hdir, hnone, pure, Except.pure]
    · refine .inr ⟨c, hc, e', rfl, hcs c hc, he', hname, fun entry names => ⟨?_, ?_⟩⟩
      · simp [Procfs.walk, follow_some he, bind, Except.bind, hdir, hfound]
      · simp [Procfs.stops, he, hdir, hfound]

theorem walk_spec (hP : Walkable d P) (ha : P a) (names : List (List Char)) :
    ∃ r, d.walk a (some a) names = .ok r ∧ ∀ b, r = some b → P b ∧
      (d.stops a names = false → Leads d a names b) ∧
      (d.stops a names = true → ∃ e, d.entries b = some e ∧ e.isDir = false) := by
  induction names generalizing a with
  | nil =>
    refine ⟨some a, rfl, fun b hb => ?_⟩
    cases hb
    exact ⟨ha, fun _ => .nil a, nofun⟩
  | cons name names ih =>
    obtain ⟨e, he, ⟨hdir, hstop⟩ | ⟨-, hwalk, -⟩ | ⟨c, hc, e', hdir, hPc, he', rfl, hgo⟩⟩ :=
      walk_cons hP ha name
    · refine ⟨some a, (hstop _ names).1, fun b hb => ?_⟩
      cases hb
      refine ⟨ha, fun hno => ?_, fun _ => ⟨e, he, hdir⟩⟩
      rw [(hstop none names).2] at hno
      cases hno
    · exact ⟨none, hwalk _ names, nofun⟩
    · obtain ⟨r, hr, hall⟩ := ih hPc
      refine ⟨r, (hgo _ names).1.trans hr, fun b hb => ?_⟩
      obtain ⟨hPb, hleads, hfile⟩ := hall b hb
      rw [(hgo none names).2]
      exact ⟨hPb, fun hno => .cons he hdir hc he' (hleads hno), hfile⟩

theorem walk_append (hP : Walkable d P) (ha : P a) (names names' : List (List Char)) :
    (d.walk a (some a) names = .ok none ∧ d.walk a (some a) (names ++ names') = .ok none) ∨
      ∃ b, P b ∧ d.walk a (some a) names = .ok (some b) ∧
        d.walk a (some a) (names ++ names') = d.walk b (some b) names' := by
  induction names generalizing a with
  | nil => exact .inr ⟨a, ha, rfl, rfl⟩
  | cons name names ih =>
    obtain ⟨e, he, ⟨hdir, hstop⟩ | ⟨-, hwalk, -⟩ | ⟨c, hc, e', hdir, hPc, he', rfl, hgo⟩⟩ :=
      walk_cons hP ha name
    · refine .inr ⟨a, ha, (hstop _ names).1, ?_⟩
      -- at the file, what is left of the names does not matter
      have hfile : d.walk a (some a) names' = .ok (some a) := by
        cases names' with
        | nil => rfl
        | cons name' names' =>
          simp [Procfs.walk, follow_some he, bind, Except.bind, hdir, pure, Except.pure]
      exact (hstop _ _).1.trans hfile.symm
    · exact .inl ⟨hwalk _ names, hwalk _ _⟩
    · rw [(hgo _ names).1, List.cons_append, (hgo _ (names ++ names')).1]
      exact ih hPc

theorem walk_none (ha : d.entries a = some e) (hdir : e.isDir = true) (hne : names ≠ []) :
    d.walk a none names = d.walk a (some a) names := by
  cases names with
  | nil => exact absurd rfl hne
  | cons name names => simp [Procfs.walk, follow_some ha, bind, Except.bind, hdir]

theorem findEntry_spec (hP : Walkable d P) (ha : P a) (he : d.entries a = some e)
    (hdir : e.isDir = true) (path : List Char) :
    ∃ r, d.findEntry a path = .ok r ∧ ∀ n, r = some n → P n ∧
      (d.stops a (pathNames (pathBuffer path)) = false →
        Leads d a (pathNames (pathBuffer path)) n) ∧
      (d.stops a (pathNames (pathBuffer path)) = true →
        ∃ e, d.entries n = some e ∧ e.isDir = false) := by
  by_cases hnil : path = []
  · refine ⟨some a, by rw [Procfs.findEntry, if_pos hnil], fun n hn => ?_⟩
    cases hn
    rw [hnil]
    exact ⟨ha, fun _ => .nil a, nofun⟩
  by_cases hlen : procfsMaxName ≤ path.length
  · exact ⟨none, by rw [Procfs.findEntry, if_neg hnil, if_pos hlen], nofun⟩
  rw [Procfs.findEntry, if_neg hnil, if_neg hlen]
  by_cases hnames : pathNames (pathBuffer path) = []
  · rw [hnames]
    exact ⟨none, rfl, nofun⟩
  · rw [walk_none he hdir hnames]
    exact walk_spec hP ha _

theorem not_leads_of_stops (hP : Walkable d P)
    (hnames : ∀ n e c c' ec ec', d.entries n = some e → c ∈ e.childList → c' ∈ e.childList →
      d.entries c = some ec → d.entries c' = some ec' → ec.name = ec'.name → c = c')
    (ha : P a) (hstops : d.stops a names = true) : ¬Leads d a names b := by
  intro hleads
  induction hleads with
  | nil a => cases hstops
  | @cons a b c e child names hea hdir hc hchild _ ih =>
    obtain ⟨e₂, he₂, hround⟩ := walk_cons hP ha child.name
    obtain rfl := Option.some.inj (hea.symm.trans he₂)
    rcases hround with ⟨hfile, -⟩ | ⟨-, -, hall⟩ | ⟨c', hc', e', -, hPc', he', hname, hgo⟩
    · rw [hdir] at hfile
      cases hfile
    · exact hall c hc child hchild rfl
    · obtain rfl := hnames a e c' c e' child hea hc' hc he' hchild hname
      exact ih hPc' ((hgo none names).2 ▸ hstops)

theorem walk_congr (hP : Walkable d P) (heq : ∀ a, P a → d'.entries a = d.entries a) (ha : P a)
    (entry : Option Nat) (names : List (List Char)) :
    d'.walk a entry names = d.walk a entry names := by
  have hfind : ∀ (name : List Char) (cs : List Nat), (∀ c ∈ cs, P c) →
      d'.findChildEntry name cs = d.findChildEntry name cs := fun name cs hcs => by
    induction cs with
    | nil => rfl
    | cons c cs ih =>
      rw [Procfs.findChildEntry, Procfs.findChildEntry, follow, follow,
        heq c (hcs c List.mem_cons_self), ih fun c hc => hcs c (List.mem_cons_of_mem _ hc)]
  induction names generalizing a entry with
  | nil => rfl
  | cons name names ih =>
    obtain ⟨e, he, hcs⟩ := hP a ha
    have he' : d'.entries a = some e := (heq a ha).trans he
    rw [Procfs.walk, Procfs.walk, follow_some he, follow_some he']
    simp only [bind, Except.bind, hfind name e.childList hcs]
    have hchildren : ∀ c ∈ e.childList, ∃ e', d.entries c = some e' := fun c hc => by
      obtain ⟨e', he', -⟩ := hP c (hcs c hc)
      exact ⟨e', he'⟩
    rcases findChildEntry_spec name hchildren with ⟨hnone, -⟩ | ⟨c, hc, -, hfound, -, -⟩
    · rw [hnone]
    · rw [hfound]
      split
      · rfl
      · exact ih (hcs c hc) _

theorem findParentEntry_spec (hP : Walkable d P) (ha : P a) (he : d.entries a = some e)
    (hdir : e.isDir = true) (hlen : path.length < procfsMaxName) :
    (∃ n, d.findEntry a path = .ok (some n)) ∨
      (d.findEntry a path = .ok none ∧ d.findParentEntry a path = .ok none) ∨
      ∃ p e', d.findEntry a path = .ok none ∧ d.findParentEntry a path = .ok (some p) ∧ P p ∧
        d.entries p = some e' ∧ e'.isDir = true ∧
        ∀ c ∈ e'.childList, ∀ e'', d.entries c = some e'' → e''.name ≠ baseName path := by
  by_cases hnil : path = []
  · exact .inl ⟨a, by rw [Procfs.findEntry, if_pos hnil]⟩
  have hbuffer : pathBuffer path = copyPath false path :=
    List.take_of_length_le (Nat.le_trans (copyPath_length false path) (Nat.le_pred_of_lt hlen))
  have hcopy : copyPath false path ≠ [] := by
    obtain ⟨c, path', rfl⟩ := List.exists_cons_of_ne_nil hnil
    simp [copyPath]
  have hfind : d.findEntry a path = d.walk a (some a) (pathNames (copyPath false path)) := by
    rw [Procfs.findEntry, if_neg hnil, if_neg (Nat.not_le.mpr hlen), hbuffer,
      walk_none he hdir (pathNames_ne_nil hcopy)]
  -- one round from the parent: the base name is not there
  have hround : ∀ p base, P p → base = baseName path → d.walk p (some p) [base] = .ok none →
      ∃ e', d.entries p = some e' ∧ e'.isDir = true ∧
        ∀ c ∈ e'.childList, ∀ e'', d.entries c = some e'' → e''.name ≠ baseName path := by
    rintro p base hp rfl hwalk
    obtain ⟨e', he', ⟨-, hstop⟩ | ⟨hdir', -, hall⟩ | ⟨c, -, -, -, -, -, -, hgo⟩⟩ :=
      walk_cons hP hp (baseName path)
    · rw [(hstop _ _).1] at hwalk
      cases hwalk
    · exact ⟨e', he', hdir', hall⟩
    · rw [(hgo _ _).1] at hwalk
      cases hwalk
  by_cases hslash : '/' ∈ copyPath false path
  · obtain ⟨q, base, hq, hbase⟩ := exists_last_slash hslash
    have hparent : d.findParentEntry a path = d.walk a none (pathNames q) := by
      rw [Procfs.findParentEntry, hbuffer, hq, parentPath_append hbase]
    by_cases hq' : q = []
    · -- a parent path that is empty finds nothing
      rw [hq'] at hparent
      obtain ⟨r, hr, -⟩ := walk_spec hP ha (pathNames (copyPath false path))
      cases r with
      | none => exact .inr (.inl ⟨hfind.trans hr, hparent⟩)
      | some n => exact .inl ⟨n, hfind.trans hr⟩
    · rw [walk_none he hdir (pathNames_ne_nil hq')] at hparent
      rw [pathNames_parent hq hq' hbase] at hfind
      rcases walk_append hP ha (pathNames q) (if base = [] then [] else [base]) with
        ⟨hnone, hwhole⟩ | ⟨p, hp, hsome, hwhole⟩
      · exact .inr (.inl ⟨hfind.trans hwhole, hparent.trans hnone⟩)
      · by_cases hempty : base = []
        · rw [if_pos hempty] at hwhole hfind
          exact .inl ⟨p, hfind.trans hwhole⟩
        · rw [if_neg hempty] at hwhole hfind
          obtain ⟨r, hr, -⟩ := walk_spec hP hp [base]
          cases r with
          | some n => exact .inl ⟨n, hfind.trans (hwhole.trans hr)⟩
          | none =>
            have hname : base = baseName path := by
              rw [← baseName_copyPath, hq, baseName_append hbase]
            obtain ⟨e', he', hdir', hall⟩ := hround p base hp hname hr
            exact .inr (.inr ⟨p, e', hfind.trans (hwhole.trans hr), hparent.trans hsome, hp, he',
              hdir', hall⟩)
  · have hparent : d.findParentEntry a path = .ok (some a) := by
      rw [Procfs.findParentEntry, hbuffer, parentPath, if_neg hslash]
    rw [pathNames_of_notMem hcopy hslash] at hfind
    obtain ⟨r, hr, -⟩ := walk_spec hP ha [copyPath false path]
    cases r with
    | some n => exact .inl ⟨n, hfind.trans hr⟩
    | none =>
      have hname : copyPath false path = baseName path := by
        rw [← baseName_copyPath, baseName_of_notMem hslash]
      obtain ⟨e', he', hdir', hall⟩ := hround a _ ha hname hr
      exact .inr (.inr ⟨a, e', hfind.trans hr, hparent, ha, he', hdir', hall⟩)

end VmkDrivers.Vmkplexer
