/-
  VmkDrivers.Vmkplexer.ProcfsSpelling

  Whether a path names the node that it spells.

  `scanEntry` is the lookup as the code makes it, in the buffer with the copy
  of the path: the loop looks for the next slash, writes a nul over it, and
  compares the names of the children with the string that it has cut off.  What
  is behind the nul that ends the copy, `junk`, does not matter: the lookup is
  that of the model (`scanEntry_eq`).

  The node that a path spells is reached by its components (`spelled`).  Where
  the walk meets a file with components left, it is abandoned, and `entry` still
  is that file: "Return the node found; otherwise NULL".
-/

import VmkDrivers.Lib.CString
import VmkDrivers.Lib.ExceptLoop
import VmkDrivers.Lib.Transition
import VmkDrivers.Vmkplexer.ProcfsLookups

namespace VmkDrivers.Vmkplexer

open VmkDrivers.Lib

def nul : Char := '\x00'

/-- `slashPtr`, which is `pathEnd` where there is no slash. -/
def slashPtr (buf : List Char) (name pathEnd : Nat) : Nat :=
  (strchr nul buf name '/').getD pathEnd

theorem le_slashPtr (buf : List Char) {name pathEnd : Nat} (h : name < pathEnd) :
    name ≤ slashPtr buf name pathEnd := by
  rw [slashPtr]
  cases hslash : strchr nul buf name '/' with
  | none => exact Nat.le_of_lt h
  | some i => exact le_of_strchr hslash

/-- `VmkplxrProcfsFindEntry`, from `name` on. -/
def Procfs.scan (d : Procfs) (pathEnd : Nat) (buf : List Char) (rootDirEntry : Nat)
    (entry : Option Nat) (name : Nat) : Except Fault (Option Nat) :=
  if _ : name < pathEnd then do
    let dir ← follow d.entries (some rootDirEntry)
    if dir.isDir = false then return entry
    else
      let slash := slashPtr buf name pathEnd
      let cut := if slash < pathEnd then buf.set slash nul else buf
      match ← d.findChildEntry (strAt nul cut name) dir.childList with
      | none => return none
      | some c => d.scan pathEnd cut c (some c) (slash + 1)
  else .ok entry
termination_by pathEnd - name
decreasing_by
  have := le_slashPtr buf ‹name < pathEnd›
  omega

/-- `vmkplxr_ProcfsFindEntry`, with what the buffer holds behind the copy. -/
def Procfs.scanEntry (d : Procfs) (junk : List Char) (rootDirEntry : Option Nat)
    (entryPath : List Char) : Except Fault (Option Nat) :=
  let rootDirEntry := rootDirEntry.getD procRoot
  if entryPath = [] then .ok (some rootDirEntry)
  else if procfsMaxName ≤ entryPath.length then .ok none
  else
    let path := pathBuffer entryPath ++ nul :: junk
    d.scan (strnlen nul path procfsMaxName) path rootDirEntry none 0

/-! ## What a path spells -/

def components (path : List Char) : List (List Char) := (path.splitOn '/').filter (· ≠ [])

def Procfs.childNamed (d : Procfs) (name : List Char) (childList : List Nat) : Option Nat :=
  childList.find? fun c => (d.entries c).any (·.name = name)

def Procfs.spelled (d : Procfs) (a : Nat) : List (List Char) → Option Nat
  | [] => some a
  | name :: names => do
    let e ← d.entries a
    if e.isDir then
      let c ← d.childNamed name e.childList
      d.spelled c names
    else none

def Procfs.ThroughDirs (d : Procfs) (a : Nat) (names : List (List Char)) : Prop :=
  ∀ front rest n, names = front ++ rest → rest ≠ [] → d.spelled a front = some n →
    ∃ e, d.entries n = some e ∧ e.isDir = true

/-- The lookup of a path finds the node that it spells, whatever the buffer held, and a node that is
    detached is that one. -/
def Procfs.NamesSpelled (d : Procfs) (rootDirEntry : Nat) (path : List Char) : Prop :=
  (∀ junk, d.scanEntry junk (some rootDirEntry) path =
      .ok (d.spelled rootDirEntry (components path))) ∧
    ∀ ownerID entry d', d.detachEntry ownerID rootDirEntry path = .ok (.ok entry, d') →
      d.spelled rootDirEntry (components path) = some entry

variable {d : Procfs} {P : Nat → Prop} {a c n : Nat} {e : ProcfsEntry} {name : List Char}
  {names : List (List Char)} {cs : List Nat} {path base r : List Char}

/-! ## The scan -/

theorem pathNames_slash (h : '/' ∉ base) (r : List Char) :
    pathNames (base ++ '/' :: r) = base :: pathNames r := by
  induction base with
  | nil => simp [pathNames]
  | cons c base ih =>
    rw [List.mem_cons, not_or] at h
    rw [List.cons_append, pathNames_cons, if_neg fun heq => h.1 heq.symm, ih h.2]

theorem copyPath_sublist (s : Bool) (path : List Char) : (copyPath s path).Sublist path := by
  induction path generalizing s with
  | nil => exact .slnil
  | cons c path ih =>
    rw [copyPath]
    split
    · exact (ih _).cons c
    · exact (ih _).cons_cons c

theorem set_slash (pre base r : List Char) :
    (pre ++ (base ++ '/' :: r)).set (pre.length + base.length) nul =
      pre ++ (base ++ nul :: r) := by
  rw [List.set_append_right _ _ (Nat.le_add_right _ _), Nat.add_sub_cancel_left,
    List.set_append_right _ _ (Nat.le_refl _), Nat.sub_self, List.set_cons_zero]

theorem scan_eq (pre path junk : List Char) (h : nul ∉ path) (a : Nat) (entry : Option Nat) :
    d.scan (pre.length + path.length) (pre ++ (path ++ nul :: junk)) a entry pre.length =
      d.walk a entry (pathNames path) := by
  by_cases hnil : path = []
  · subst hnil
    rw [Procfs.scan, dif_neg (by simp)]
    rfl
  have hlt : pre.length < pre.length + path.length :=
    Nat.lt_add_of_pos_right (List.length_pos_iff.mpr hnil)
  rw [Procfs.scan, dif_pos hlt]
  by_cases hslash : '/' ∈ path
  -- the name ends at its slash, and the scan goes on behind it
  · obtain ⟨base, r, rfl, hbase⟩ := List.eq_append_cons_of_mem hslash
    have hptr : slashPtr (pre ++ (base ++ '/' :: r ++ nul :: junk)) pre.length
        (pre.length + (base ++ '/' :: r).length) = pre.length + base.length := by
      rw [slashPtr, strchr_append h hbase, Option.getD_some]
    have hcut : pre.length + base.length < pre.length + (base ++ '/' :: r).length := by
      simp
    have hnul : nul ∉ base ∧ nul ∉ r := by
      rw [List.mem_append, List.mem_cons, not_or, not_or] at h
      exact ⟨h.1, h.2.2⟩
    have hname : strAt nul (pre ++ (base ++ nul :: (r ++ nul :: junk))) pre.length = base :=
      strAt_append hnul.1
    have hrest : ∀ c, d.scan (pre.length + (base ++ '/' :: r).length)
        (pre ++ (base ++ nul :: (r ++ nul :: junk))) c (some c) (pre.length + base.length + 1) =
          d.walk c (some c) (pathNames r) := fun c => by
      -- the induction is on what is left of the path, the buffer growing in front
      have := scan_eq (pre ++ base ++ [nul]) r junk hnul.2 c (some c)
      simp only [List.length_append, List.length_cons, List.length_nil, List.append_assoc,
        List.cons_append, List.nil_append] at this ⊢
      rw [← this]
      congr 1
      · omega
    rw [pathNames_slash hbase, Procfs.walk]
    simp only [List.append_assoc, List.cons_append] at hptr ⊢
    simp only [hptr, if_pos hcut, set_slash, hname]
    refine bind_congr fun dir => ?_
    split
    · rfl
    · refine bind_congr fun child => ?_
      cases child with
      | none => rfl
      | some c => exact hrest c
  -- the last name ends with the path
  · have hptr : slashPtr (pre ++ (path ++ nul :: junk)) pre.length (pre.length + path.length) =
        pre.length + path.length := by
      rw [slashPtr, strchr_of_notMem h hslash, Option.getD_none]
    have hend : ∀ c, d.scan (pre.length + path.length) (pre ++ (path ++ nul :: junk)) c (some c)
        (pre.length + path.length + 1) = d.walk c (some c) [] := fun c => by
      rw [Procfs.scan, dif_neg (Nat.not_lt.mpr (Nat.le_succ _)), Procfs.walk]
    rw [pathNames_of_notMem hnil hslash, Procfs.walk]
    simp only [hptr, if_neg (Nat.lt_irrefl _), strAt_append h]
    refine bind_congr fun dir => ?_
    split
    · rfl
    · refine bind_congr fun child => ?_
      cases child with
      | none => rfl
      | some c => exact hend c
termination_by path.length

theorem scanEntry_eq (junk : List Char) (a : Option Nat) (h : nul ∉ path) :
    d.scanEntry junk a path = d.findEntry (a.getD procRoot) path := by
  rw [Procfs.scanEntry, Procfs.findEntry]
  by_cases hnil : path = []
  · simp only [if_pos hnil]
  by_cases hlen : procfsMaxName ≤ path.length
  · simp only [if_neg hnil, if_pos hlen]
  simp only [if_neg hnil, if_neg hlen]
  have hnul : nul ∉ pathBuffer path := fun hc =>
    h ((copyPath_sublist _ path).subset (List.mem_of_mem_take hc))
  have hlength : (pathBuffer path).length < procfsMaxName :=
    Nat.lt_succ_of_le (List.length_take_le _ _)
  rw [strnlen_append hnul hlength]
  simpa using scan_eq [] (pathBuffer path) junk hnul (a.getD procRoot) none

/-! ## The components -/

@[simp] theorem components_nil : components [] = [] := by
  simp [components]

theorem components_slash (h : '/' ∉ base) (r : List Char) :
    components (base ++ '/' :: r) = (if base = [] then [] else [base]) ++ components r := by
  rw [components, List.splitOn_append_cons_self_of_not_mem h, List.filter_cons]
  split <;> simp_all [components]

theorem components_of_notMem (hnil : path ≠ []) (h : '/' ∉ path) : components path = [path] := by
  rw [components, List.splitOn_eq_singleton h]
  simp [hnil]

theorem ends_of_notMem (h : '/' ∉ base) : ends false base = false := by
  induction base with
  | nil => rfl
  | cons c base ih =>
    rw [List.mem_cons, not_or] at h
    rw [ends, decide_eq_false fun heq => h.1 heq.symm, ih h.2]

theorem copyPath_true (r : List Char) :
    ∃ r', copyPath true r = copyPath false r' ∧ components r = components r' ∧
      r'.length ≤ r.length ∧ r'.head? ≠ some '/' := by
  induction r with
  | nil => exact ⟨[], rfl, rfl, Nat.le_refl _, nofun⟩
  | cons c r ih =>
    by_cases hc : c = '/'
    · obtain ⟨r', hcopy, hcomponents, hlength, hhead⟩ := ih
      refine ⟨r', ?_, ?_, Nat.le_succ_of_le hlength, hhead⟩
      · rw [copyPath, if_pos ⟨rfl, hc⟩, hcopy]
      · rw [hc, ← hcomponents]
        exact components_slash (List.not_mem_nil) r
    · refine ⟨c :: r, ?_, rfl, Nat.le_refl _, fun h => hc (Option.some.inj h)⟩
      rw [copyPath, copyPath, if_neg fun h => hc h.2, if_neg fun h => hc h.2]

theorem pathNames_copyPath (path : List Char) (h : path.head? ≠ some '/') :
    pathNames (copyPath false path) = components path := by
  by_cases hnil : path = []
  · rw [hnil, components_nil]
    rfl
  by_cases hslash : '/' ∈ path
  · obtain ⟨base, r, rfl, hbase⟩ := List.eq_append_cons_of_mem hslash
    obtain ⟨r', hcopy, hcomponents, hlength, hhead⟩ := copyPath_true r
    have hne : base ≠ [] := fun heq => h (by rw [heq]; rfl)
    have hends : ends false base = false := ends_of_notMem hbase
    -- of the slashes in a row only the first is copied
    have hwhole : copyPath false (base ++ '/' :: r) = base ++ '/' :: copyPath false r' := by
      rw [copyPath_append, copyPath_of_notMem _ hbase, copyPath, hends, if_neg (by simp), ← hcopy]
      simp
    rw [hwhole, pathNames_slash hbase, pathNames_copyPath r' hhead, components_slash hbase,
      if_neg hne, hcomponents, List.singleton_append]
  · rw [copyPath_of_notMem _ hslash, pathNames_of_notMem hnil hslash,
      components_of_notMem hnil hslash]
termination_by path.length
decreasing_by
  have hlength := congrArg List.length ‹path = base ++ '/' :: r›
  rw [List.length_append, List.length_cons] at hlength
  omega

/-! ## The walk -/

theorem findChildEntry_eq (name : List Char) (h : ∀ c ∈ cs, ∃ e, d.entries c = some e) :
    d.findChildEntry name cs = .ok (d.childNamed name cs) := by
  induction cs with
  | nil => rfl
  | cons c cs ih =>
    obtain ⟨e, he⟩ := h c List.mem_cons_self
    have hrest := ih fun c hc => h c (List.mem_cons_of_mem _ hc)
    rw [Procfs.findChildEntry, follow_some he, Procfs.childNamed, List.find?_cons, he]
    by_cases hname : e.name = name
    · simp [hname, bind, Except.bind, pure, Except.pure]
    · simp [hname, bind, Except.bind, hrest, Procfs.childNamed]

theorem throughDirs_nil : d.ThroughDirs a [] := by
  intro front rest n hnames hrest
  exact absurd (List.append_eq_nil_iff.mp hnames.symm).2 hrest

theorem throughDirs_cons (he : d.entries a = some e) :
    d.ThroughDirs a (name :: names) ↔
      e.isDir = true ∧ ∀ c, d.childNamed name e.childList = some c → d.ThroughDirs c names := by
  constructor
  · intro h
    have hdir : e.isDir = true := by
      obtain ⟨e', he', hdir⟩ := h [] (name :: names) a rfl (List.cons_ne_nil _ _) rfl
      exact Option.some.inj (he.symm.trans he') ▸ hdir
    refine ⟨hdir, fun c hc front rest n hnames hrest hn => ?_⟩
    refine h (name :: front) rest n (congrArg (name :: ·) hnames) hrest ?_
    simpa [Procfs.spelled, he, hdir, hc] using hn
  · rintro ⟨hdir, h⟩ front rest n hnames hrest hn
    cases front with
    | nil => exact Option.some.inj hn ▸ ⟨e, he, hdir⟩
    | cons name' front =>
      obtain ⟨rfl, htail⟩ := List.cons.inj hnames
      cases hc : d.childNamed name e.childList with
      | none => simp [Procfs.spelled, he, hdir, hc] at hn
      | some c =>
        refine h c hc front rest n htail hrest ?_
        simpa [Procfs.spelled, he, hdir, hc] using hn

theorem walk_spelled (hP : Walkable d P) (ha : P a) (names : List (List Char)) :
    (d.ThroughDirs a names ∧ d.walk a (some a) names = .ok (d.spelled a names)) ∨
      (¬d.ThroughDirs a names ∧ d.spelled a names = none ∧
        ∃ n, d.walk a (some a) names = .ok (some n)) := by
  induction names generalizing a with
  | nil => exact .inl ⟨throughDirs_nil, rfl⟩
  | cons name names ih =>
    obtain ⟨e, he, hcs⟩ := hP a ha
    have hchild : d.findChildEntry name e.childList = .ok (d.childNamed name e.childList) :=
      findChildEntry_eq name fun c hc => (hP c (hcs c hc)).imp fun _ => And.left
    rw [throughDirs_cons he]
    cases hdir : e.isDir with
    | false =>
      -- the walk is abandoned, and `entry` is the file
      refine .inr ⟨fun h => Bool.false_ne_true h.1, ?_, a, ?_⟩
      · simp [Procfs.spelled, he, hdir]
      · simp [Procfs.walk, follow_some he, bind, Except.bind, hdir, pure, Except.pure]
    | true =>
      cases hc : d.childNamed name e.childList with
      -- no such child: nothing is found, and nothing is spelled
      | none =>
        refine .inl ⟨⟨rfl, (by simp)⟩, ?_⟩
        simp [Procfs.walk, Procfs.spelled, follow_some he, he, bind, Except.bind, hdir,
          hchild, hc, pure, Except.pure]
      | some c =>
        have hPc : P c := hcs c (List.mem_of_find?_eq_some hc)
        have hspelled : d.spelled a (name :: names) = d.spelled c names := by
          simp [Procfs.spelled, he, hdir, hc]
        have hgo : d.walk a (some a) (name :: names) = d.walk c (some c) names := by
          simp [Procfs.walk, follow_some he, bind, Except.bind, hdir, hchild, hc]
        rw [hspelled, hgo]
        rcases ih hPc with ⟨hthrough, hwalk⟩ | ⟨hthrough, hnone, n, hwalk⟩
        · exact .inl ⟨⟨rfl, fun c' hc' => Option.some.inj hc' ▸ hthrough⟩, hwalk⟩
        · exact .inr ⟨fun h => hthrough (h.2 c rfl), hnone, n, hwalk⟩
theorem findEntry_spelled (hP : Walkable d P) (ha : P a) (he : d.entries a = some e)
    (hdir : e.isDir = true) (hlen : path.length < procfsMaxName) (hhead : path.head? ≠ some '/') :
    (d.ThroughDirs a (components path) ∧ d.findEntry a path = .ok (d.spelled a (components path))) ∨
      (¬d.ThroughDirs a (components path) ∧ d.spelled a (components path) = none ∧
        ∃ n, d.findEntry a path = .ok (some n)) := by
  by_cases hnil : path = []
  · rw [hnil, components_nil, Procfs.findEntry, if_pos rfl]
    exact .inl ⟨throughDirs_nil, rfl⟩
  have hbuffer : pathBuffer path = copyPath false path :=
    List.take_of_length_le (Nat.le_trans (copyPath_length false path) (Nat.le_pred_of_lt hlen))
  have hne : pathNames (copyPath false path) ≠ [] := by
    obtain ⟨c, path', rfl⟩ := List.exists_cons_of_ne_nil hnil
    exact pathNames_ne_nil (by simp [copyPath])
  rw [Procfs.findEntry, if_neg hnil, if_neg (Nat.not_le.mpr hlen), hbuffer,
    walk_none he hdir hne, pathNames_copyPath path hhead]
  exact walk_spelled hP ha (components path)

theorem findEntry_of_detach {ownerID entry : Nat} {d' : Procfs}
    (h : d.detachEntry ownerID a path = .ok (.ok entry, d')) :
    d.findEntry a path = .ok (some entry) := by
  obtain ⟨found, hfind, h⟩ := bind_eq_ok.mp h
  cases found with
  | none => cases h
  | some n =>
    obtain ⟨e, -, h⟩ := bind_eq_ok.mp h
    split at h
    · cases h
    · split at h
      · cases h
      · cases h
        exact hfind

/-- A path names the node that it spells exactly where everything that it spells on the way is a
    directory. -/
theorem names_spelled_iff (hP : Walkable d P) (ha : P a) (he : d.entries a = some e)
    (hdir : e.isDir = true) (hlen : path.length < procfsMaxName) (hhead : path.head? ≠ some '/')
    (hnul : nul ∉ path) : d.NamesSpelled a path ↔ d.ThroughDirs a (components path) := by
  have hscan : ∀ junk, d.scanEntry junk (some a) path = d.findEntry a path := fun junk =>
    scanEntry_eq junk (some a) hnul
  rcases findEntry_spelled hP ha he hdir hlen hhead with
    ⟨hthrough, hfind⟩ | ⟨hthrough, hnone, n, hfind⟩
  · refine ⟨fun _ => hthrough, fun _ => ⟨fun junk => (hscan junk).trans hfind, ?_⟩⟩
    intro ownerID entry d' hdetach
    have hfound := hfind.symm.trans (findEntry_of_detach hdetach)
    exact Except.ok.inj hfound
  · refine ⟨fun h => ?_, fun h => absurd h hthrough⟩
    have hfound := (hscan []).symm.trans (h.1 [])
    rw [hfind, hnone] at hfound
    cases hfound

/-- "net" in the first tree, from "proc" on. -/
theorem names_spelled_net : Procfs.init.NamesSpelled procRoot "net".toList ↔
    Procfs.init.ThroughDirs procRoot (components "net".toList) := by
  have hP : Walkable Procfs.init (· ≤ procBus) := by
    intro a ha
    have hfive : a = 0 ∨ a = 1 ∨ a = 2 ∨ a = 3 ∨ a = 4 := by
      simp only [procBus] at ha
      omega
    rcases hfive with rfl | rfl | rfl | rfl | rfl <;> exact ⟨_, rfl, by decide⟩
  exact names_spelled_iff hP (by decide) rfl rfl (by decide) (by decide) (by decide)

/-- "f/x", where "f" is a file: the lookup finds "f", and its module detaches it so. -/
theorem names_file :
    ∃ d, Run ProcfsStep (.ok .init)
        [.create ⟨7, "f".toList, false, none, some 9, some 9, true⟩] (.ok d) ∧
      d.findEntry procRoot "f/x".toList = .ok (some 9) ∧
      (∃ d', d.detachEntry 7 procRoot "f/x".toList = .ok (.ok 9, d')) ∧
      ¬d.NamesSpelled procRoot "f/x".toList := by
  have hexec : ∃ d d', procfsNext? (.ok Procfs.init)
        (.create ⟨7, "f".toList, false, none, some 9, some 9, true⟩) = some (.ok d) ∧
      d.findEntry procRoot "f/x".toList = .ok (some 9) ∧
      d.detachEntry 7 procRoot "f/x".toList = .ok (.ok 9, d') ∧
      d.spelled procRoot (components "f/x".toList) = none :=
    ⟨_, _, rfl, rfl, rfl, rfl⟩
  obtain ⟨d, d', hd, hfind, hdetach, hspelled⟩ := hexec
  have hstep : ProcfsStep (.ok .init)
      (.create ⟨7, "f".toList, false, none, some 9, some 9, true⟩) (.ok d) := hd
  refine ⟨d, .single hstep, hfind, ⟨d', hdetach⟩, fun h => ?_⟩
  have hsame := h.2 _ _ _ hdetach
  rw [hspelled] at hsame
  cases hsame

end VmkDrivers.Vmkplexer
