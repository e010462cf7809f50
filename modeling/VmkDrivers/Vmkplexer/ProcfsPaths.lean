/-
  VmkDrivers.Vmkplexer.ProcfsPaths

  How the functions of the proc tree take a path apart.

  A lookup goes through the names of a path (`pathNames`), the parent is looked
  up by what is in front of the last slash (`parentPath`), and a new node is
  named by what is behind the last slash of the path before it is normalized
  (`baseName`).  The three agree (`pathNames_parent`, `baseName_copyPath`).
-/

import VmkDrivers.Vmkplexer.Procfs

namespace VmkDrivers.Vmkplexer

variable {s : Bool} {path q r base : List Char}

/-! ## The last slash -/

theorem baseName_append (h : '/' ∉ base) : baseName (q ++ '/' :: base) = base := by
  have hall : ∀ c ∈ base.reverse, decide (c ≠ '/') = true := fun c hc =>
    decide_eq_true fun heq => h (heq ▸ List.mem_reverse.mp hc)
  rw [baseName, List.reverse_append, List.reverse_cons, List.append_assoc,
    List.takeWhile_append_of_pos hall, List.singleton_append,
    List.takeWhile_cons_of_neg (by simp), List.append_nil, List.reverse_reverse]

theorem baseName_of_notMem (h : '/' ∉ path) : baseName path = path := by
  have hall : ∀ c ∈ path.reverse, decide (c ≠ '/') = true := fun c hc =>
    decide_eq_true fun heq => h (heq ▸ List.mem_reverse.mp hc)
  have hwhole : (path.reverse ++ []).takeWhile (· ≠ '/') = path.reverse ++ [] :=
    List.takeWhile_append_of_pos hall
  rw [List.append_nil] at hwhole
  rw [baseName, hwhole, List.reverse_reverse]

theorem baseName_length (path : List Char) : (baseName path).length ≤ path.length := by
  rw [baseName, List.length_reverse]
  exact Nat.le_trans (List.takeWhile_sublist _).length_le (Nat.le_of_eq List.length_reverse)

theorem exists_last_slash (h : '/' ∈ path) : ∃ q base, path = q ++ '/' :: base ∧ '/' ∉ base := by
  induction path with
  | nil => cases h
  | cons c path ih =>
    by_cases hin : '/' ∈ path
    · obtain ⟨q, base, rfl, hbase⟩ := ih hin
      exact ⟨c :: q, base, rfl, hbase⟩
    · have hc : c = '/' := ((List.mem_cons.mp h).resolve_right hin).symm
      exact ⟨[], path, by rw [hc]; rfl, hin⟩

theorem parentPath_append (h : '/' ∉ base) : parentPath (q ++ '/' :: base) = some q := by
  have hall : ∀ c ∈ base.reverse, decide (c ≠ '/') = true := fun c hc =>
    decide_eq_true fun heq => h (heq ▸ List.mem_reverse.mp hc)
  rw [parentPath, if_pos (by simp), List.reverse_append, List.reverse_cons, List.append_assoc,
    List.dropWhile_append_of_pos hall, List.singleton_append,
    List.dropWhile_cons_of_neg (by simp), List.tail_cons, List.reverse_reverse]

/-! ## The copy -/

/-- Whether the last character is a slash, where `s` is what was in front. -/
def ends : Bool → List Char → Bool
  | s, [] => s
  | _, c :: path => ends (c = '/') path

theorem copyPath_append (s : Bool) (q r : List Char) :
    copyPath s (q ++ r) = copyPath s q ++ copyPath (ends s q) r := by
  induction q generalizing s with
  | nil => rfl
  | cons c q ih =>
    rw [List.cons_append, copyPath, copyPath, ends]
    split
    · next h => rw [ih, show decide (c = '/') = true from decide_eq_true h.2]
    · rw [ih, List.cons_append]

theorem copyPath_of_notMem (s : Bool) (h : '/' ∉ path) : copyPath s path = path := by
  induction path generalizing s with
  | nil => rfl
  | cons c path ih =>
    rw [List.mem_cons, not_or] at h
    rw [copyPath, if_neg fun hand => h.1 hand.2.symm, ih _ h.2]

theorem copyPath_length (s : Bool) (path : List Char) : (copyPath s path).length ≤ path.length := by
  induction path generalizing s with
  | nil => exact Nat.le_refl _
  | cons c path ih =>
    rw [copyPath]
    split
    · exact Nat.le_succ_of_le (ih true)
    · exact Nat.succ_le_succ (ih _)

theorem copyPath_idem (s : Bool) (path : List Char) :
    copyPath s (copyPath s path) = copyPath s path := by
  induction path generalizing s with
  | nil => rfl
  | cons c path ih =>
    by_cases h : s ∧ c = '/'
    · have hskip : copyPath s (c :: path) = copyPath true path := by rw [copyPath, if_pos h]
      rw [hskip, h.1, ih true]
    · have hkeep : copyPath s (c :: path) = c :: copyPath (c = '/') path := by
        rw [copyPath, if_neg h]
      rw [hkeep, copyPath, if_neg h, ih]

theorem copyPath_ends (h : ends s path = true) :
    (s = true ∧ copyPath s path = []) ∨ ∃ q, copyPath s path = q ++ ['/'] := by
  induction path generalizing s with
  | nil => exact .inl ⟨h, rfl⟩
  | cons c path ih =>
    rw [ends] at h
    rw [copyPath]
    split
    · next hand =>
      rw [decide_eq_true hand.2] at h
      exact (ih h).imp_left fun hnil => ⟨hand.1, hnil.2⟩
    · rcases ih h with ⟨hc, hnil⟩ | ⟨q, hq⟩
      · rw [hnil, of_decide_eq_true hc]
        exact .inr ⟨[], rfl⟩
      · rw [hq]
        exact .inr ⟨c :: q, rfl⟩

theorem copyPath_last_slash (hbase : '/' ∉ base) :
    ∃ q', copyPath false (q ++ '/' :: base) = q' ++ '/' :: base := by
  rw [copyPath_append, copyPath]
  cases hends : ends false q with
  | false => exact ⟨copyPath false q, by simp [copyPath_of_notMem _ hbase]⟩
  | true =>
    rcases copyPath_ends hends with ⟨hfalse, -⟩ | ⟨q', hq'⟩
    · cases hfalse
    · exact ⟨q', by simp [hq', copyPath_of_notMem _ hbase]⟩

theorem baseName_copyPath (path : List Char) : baseName (copyPath false path) = baseName path := by
  by_cases h : '/' ∈ path
  · obtain ⟨q, base, rfl, hbase⟩ := exists_last_slash h
    obtain ⟨q', hq'⟩ := copyPath_last_slash (q := q) hbase
    rw [hq', baseName_append hbase, baseName_append hbase]
  · rw [copyPath_of_notMem _ h]

theorem ends_of_copy (h : copyPath false path = q ++ '/' :: base) : ends false q = false := by
  by_contra hends
  have hends : ends false q = true := Bool.not_eq_false _ ▸ hends
  have hidem := copyPath_idem false path
  rw [h, copyPath_append, copyPath, hends, if_pos ⟨rfl, rfl⟩] at hidem
  have hlength := congrArg List.length hidem
  have := copyPath_length false q
  have := copyPath_length true base
  simp only [List.length_append, List.length_cons] at hlength
  omega

/-! ## The names -/

theorem pathNames_cons (c : Char) (path : List Char) : pathNames (c :: path) =
    if c = '/' then [] :: pathNames path
    else
      match pathNames path with
      | [] => [[c]]
      | name :: names => (c :: name) :: names := rfl

theorem pathNames_ne_nil (h : path ≠ []) : pathNames path ≠ [] := by
  cases path with
  | nil => exact absurd rfl h
  | cons c path =>
    rw [pathNames]
    split
    · exact List.cons_ne_nil _ _
    · split <;> exact List.cons_ne_nil _ _

theorem pathNames_of_notMem (hne : path ≠ []) (h : '/' ∉ path) : pathNames path = [path] := by
  induction path with
  | nil => exact absurd rfl hne
  | cons c path ih =>
    rw [List.mem_cons, not_or] at h
    rw [pathNames, if_neg fun heq => h.1 heq.symm]
    cases path with
    | nil => rfl
    | cons c' path => rw [ih (List.cons_ne_nil _ _) h.2]

theorem pathNames_append (hne : q ≠ []) (h : ends false q = false) :
    pathNames (q ++ '/' :: r) = pathNames q ++ pathNames r := by
  have hall : ∀ s, ends s q = false → pathNames (q ++ '/' :: r) = pathNames q ++ pathNames r := by
    clear h
    induction q with
    | nil => exact absurd rfl hne
    | cons c q ih =>
      intro s hends
      rw [ends] at hends
      cases q with
      | nil =>
        have hc : c ≠ '/' := of_decide_eq_false hends
        simp [pathNames, hc]
      | cons c' q =>
        have hrest := ih (List.cons_ne_nil _ _) _ hends
        rw [List.cons_append, pathNames_cons, hrest, pathNames_cons c (c' :: q)]
        split
        · rfl
        · obtain ⟨name, names, hnames⟩ :=
            List.exists_cons_of_ne_nil (pathNames_ne_nil (List.cons_ne_nil c' q))
          rw [hnames]
          rfl
  exact hall false h

theorem pathNames_parent (h : copyPath false path = q ++ '/' :: base) (hne : q ≠ [])
    (hbase : '/' ∉ base) : pathNames (copyPath false path) =
      pathNames q ++ if base = [] then [] else [base] := by
  rw [h, pathNames_append hne (ends_of_copy h)]
  split
  · next hnil => rw [hnil, pathNames]
  · next hnil => rw [pathNames_of_notMem hnil hbase]

end VmkDrivers.Vmkplexer
