import Mathlib.Data.List.Basic
import NativeHeader.Path

/-!
# The spelling of paths

A path is told by its names: two paths with the same names are the same text (`names_inj`).  Joining
puts a name after the steps of a directory (`names_join`), which are its names without the empty one
that a slash at the end leaves behind.  So a path that is joined from a directory and a row of names
(`below`) can be told from these (`names_below`), and so can the text that is written between
slashes (`below_eq_append`).
-/

namespace NativeHeader.Path

variable {path directory relative : List Char} {name : Name} {row : List Name}

/-! ## Names that an entry can have -/

/-- Whether a text can stand between two slashes and is a step of a path. -/
def IsStep (name : Name) : Prop := name ≠ [] ∧ '/' ∉ name

/-- Whether an entry of a directory can have this name. -/
def IsProper (name : Name) : Prop := IsStep name ∧ name ≠ ['.'] ∧ name ≠ ['.', '.']

instance : DecidablePred IsStep := fun name => inferInstanceAs (Decidable (name ≠ [] ∧ '/' ∉ name))

instance : DecidablePred IsProper := fun name =>
  inferInstanceAs (Decidable (IsStep name ∧ name ≠ ['.'] ∧ name ≠ ['.', '.']))

/-! ## Names -/

theorem names_slash (rest : List Char) : names ('/' :: rest) = [] :: names rest := by
  simp [names]

/-- A slash separates the names before it from those after it. -/
theorem names_append_slash (front back : List Char) :
    names (front ++ '/' :: back) = names front ++ names back := by
  induction front with
  | nil => exact names_slash back
  | cons c rest ih =>
    rw [List.cons_append, names, names, ih]
    by_cases hc : c = '/'
    · rw [if_pos hc, if_pos hc, List.cons_append]
    · rw [if_neg hc, if_neg hc]
      cases hrest : names rest with
      | nil => exact absurd hrest (names_ne_nil rest)
      | cons first more => simp

theorem names_of_no_slash (h : '/' ∉ name) : names name = [name] := by
  induction name with
  | nil => rfl
  | cons c rest ih =>
    rw [List.mem_cons, not_or] at h
    rw [names, if_neg (Ne.symm h.1), ih h.2]

theorem no_slash_of_mem_names (h : name ∈ names path) : '/' ∉ name := by
  induction path generalizing name with
  | nil =>
    rw [names, List.mem_singleton] at h
    simp [h]
  | cons c rest ih =>
    rw [names] at h
    by_cases hc : c = '/'
    · rw [if_pos hc, List.mem_cons] at h
      rcases h with rfl | h
      · simp
      · exact ih h
    · rw [if_neg hc] at h
      cases hrest : names rest with
      | nil => exact absurd hrest (names_ne_nil rest)
      | cons first more =>
        rw [hrest] at ih h
        rcases List.mem_cons.1 h with rfl | h
        · rw [List.mem_cons, not_or]
          exact ⟨fun heq => hc heq.symm, ih (List.mem_cons_self ..)⟩
        · exact ih (List.mem_cons_of_mem first h)

/-- The names of a path with slashes between them are the path. -/
theorem intercalate_names (path : List Char) : ['/'].intercalate (names path) = path := by
  induction path with
  | nil => rfl
  | cons c rest ih =>
    rw [names]
    cases hrest : names rest with
    | nil => exact absurd hrest (names_ne_nil rest)
    | cons first more =>
      rw [hrest] at ih
      by_cases hc : c = '/'
      · rw [if_pos hc, List.intercalate_cons_cons, ih, hc]
        rfl
      · rw [if_neg hc]
        cases more with
        | nil => simpa using ih
        | cons second more =>
          rw [List.intercalate_cons_cons] at ih ⊢
          simpa using ih

theorem names_inj {other : List Char} (h : names path = names other) : path = other := by
  rw [← intercalate_names path, h, intercalate_names]

theorem names_intercalate (hne : row ≠ []) (h : ∀ name ∈ row, '/' ∉ name) :
    names (['/'].intercalate row) = row := by
  induction row with
  | nil => exact absurd rfl hne
  | cons first rest ih =>
    obtain ⟨hslash, hrest⟩ := List.forall_mem_cons.1 h
    have hfirst := names_of_no_slash hslash
    cases rest with
    | nil => simpa using hfirst
    | cons second more =>
      rw [List.intercalate_cons_cons, List.append_assoc, List.singleton_append, names_append_slash,
        hfirst, ih (List.cons_ne_nil _ _) hrest, List.singleton_append]

/-- The last name of a path is empty only after a slash. -/
theorem getLast?_names_ne (hnil : path ≠ []) (hlast : path.getLast? ≠ some '/') :
    (names path).getLast? ≠ some [] := by
  intro hempty
  obtain ⟨row, hrow⟩ := List.getLast?_eq_some_iff.1 hempty
  by_cases hne : row = []
  · subst hne
    exact hnil (names_inj hrow)
  · have hslash : ∀ name ∈ row, '/' ∉ name := fun name hname =>
      no_slash_of_mem_names (hrow ▸ List.mem_append_left _ hname)
    have hpath : path = ['/'].intercalate row ++ ['/'] := by
      refine names_inj ?_
      rw [hrow, names_append_slash, names_intercalate hne hslash]
      rfl
    exact hlast (by rw [hpath, List.getLast?_concat])

/-! ## Steps -/

/-- The names that are followed from where a path begins.  The empty name after a slash at the end
is not one of them, and the empty path has none. -/
def steps (path : List Char) : List Name :=
  if path = [] ∨ path.getLast? = some '/' then (names path).dropLast else names path

@[simp] theorem steps_nil : steps [] = [] := rfl

/-- Every path is empty, or it ends in a slash, or its steps are its names. -/
theorem spelling_cases (path : List Char) :
    path = [] ∨ (∃ front, path = front ++ ['/']) ∨
      (path ≠ [] ∧ path.getLast? ≠ some '/' ∧ steps path = names path) := by
  by_cases hnil : path = []
  · exact .inl hnil
  · by_cases hlast : path.getLast? = some '/'
    · exact .inr (.inl (List.getLast?_eq_some_iff.1 hlast))
    · refine .inr (.inr ⟨hnil, hlast, ?_⟩)
      rw [steps, if_neg (not_or.2 ⟨hnil, hlast⟩)]

theorem names_append_singleton_slash (front : List Char) :
    names (front ++ ['/']) = names front ++ [[]] := names_append_slash front []

theorem steps_append_singleton (front : List Char) (c : Char) :
    steps (front ++ [c]) = if c = '/' then names front else names (front ++ [c]) := by
  have hlast : (front ++ [c]).getLast? = some c := List.getLast?_concat
  by_cases hc : c = '/'
  · subst hc
    rw [steps, if_pos (.inr hlast), if_pos rfl, names_append_singleton_slash, List.dropLast_concat]
  · rw [steps, if_neg (by simp [hc]), if_neg hc]

theorem steps_append_singleton_slash (front : List Char) :
    steps (front ++ ['/']) = names front := by
  rw [steps_append_singleton, if_pos rfl]

/-- The names of a path are its steps, unless an empty name follows them. -/
theorem names_eq_steps_or (path : List Char) :
    names path = steps path ∨ names path = steps path ++ [[]] := by
  rcases spelling_cases path with rfl | ⟨front, rfl⟩ | ⟨-, -, hsteps⟩
  · exact .inr rfl
  · exact .inr (by rw [names_append_singleton_slash, steps_append_singleton_slash])
  · exact .inl hsteps.symm

/-- A slash at the beginning of a path is an empty step. -/
theorem steps_slash (rest : List Char) : steps ('/' :: rest) = [] :: steps rest := by
  rcases List.eq_nil_or_concat' rest with rfl | ⟨front, last, rfl⟩
  · rfl
  · rw [← List.cons_append, steps_append_singleton, steps_append_singleton, List.cons_append,
      names_slash, names_slash]
    split <;> rfl

theorem mem_names_of_mem_steps (h : name ∈ steps path) : name ∈ names path := by
  rcases names_eq_steps_or path with hnames | hnames
  · exact hnames ▸ h
  · exact hnames ▸ List.mem_append_left _ h

theorem IsStep.steps_eq (h : IsStep name) : steps name = [name] := by
  have hlast : name.getLast? ≠ some '/' := fun hlast => h.2 (List.mem_of_getLast? hlast)
  rw [steps, if_neg (not_or.2 ⟨h.1, hlast⟩), names_of_no_slash h.2]

/-! ## Joining -/

/-- Joining puts the names of a path after the steps of a directory. -/
theorem names_join (directory relative : List Char) :
    names (join directory relative) = steps directory ++ names relative := by
  rcases spelling_cases directory with rfl | ⟨front, rfl⟩ | ⟨hnil, hlast, hsteps⟩
  · simp
  · rw [join, if_neg (by simp), if_pos (by simp), steps_append_singleton_slash, List.append_assoc,
      List.singleton_append, names_append_slash]
  · rw [join, if_neg hnil, if_neg hlast, hsteps, names_append_slash]

theorem join_append (directory relative rest : List Char) :
    join directory (relative ++ rest) = join directory relative ++ rest := by
  unfold join
  split
  · rfl
  · split <;> simp

theorem steps_join (directory relative : List Char) :
    steps (join directory relative) = steps directory ++ steps relative := by
  rcases List.eq_nil_or_concat' relative with rfl | ⟨front, c, rfl⟩
  · rcases spelling_cases directory with rfl | ⟨front, rfl⟩ | ⟨hnil, hlast, hsteps⟩
    · rfl
    · rw [join, if_neg (by simp), if_pos (by simp)]
      simp
    · rw [join, if_neg hnil, if_neg hlast, steps_append_singleton_slash, hsteps]
      simp
  · rw [join_append, steps_append_singleton, steps_append_singleton, ← join_append]
    by_cases hc : c = '/'
    · rw [if_pos hc, if_pos hc, names_join]
    · rw [if_neg hc, if_neg hc, names_join]

/-- What is written after a path is written after what it stands for. -/
theorem resolve_append (hnil : relative ≠ []) (directory rest : List Char) :
    resolve directory (relative ++ rest) = resolve directory relative ++ rest := by
  rw [resolve, resolve, List.head?_append_of_ne_nil _ hnil, join_append]
  split <;> rfl

/-- What a path stands for ends as the path does. -/
theorem getLast?_resolve (hnil : relative ≠ []) (directory : List Char) :
    (resolve directory relative).getLast? = relative.getLast? := by
  obtain ⟨front, last, rfl⟩ := (List.eq_nil_or_concat' relative).resolve_left hnil
  rw [List.getLast?_concat, resolve]
  split
  · exact List.getLast?_concat
  · rw [join_append]
    exact List.getLast?_concat

/-! ## Rows of names below a directory -/

/-- The path of a row of names, each in the directory that the ones before it lead to. -/
def below (directory : List Char) (row : List Name) : List Char := row.foldl join directory

@[simp] theorem below_nil (directory : List Char) : below directory [] = directory := rfl

@[simp] theorem below_cons (directory : List Char) (name : Name) (row : List Name) :
    below directory (name :: row) = below (join directory name) row := rfl

theorem below_append_singleton (directory : List Char) (row : List Name) (name : Name) :
    below directory (row ++ [name]) = join (below directory row) name := by
  rw [below, List.foldl_append]
  rfl

theorem steps_below (directory : List Char) (h : ∀ name ∈ row, IsStep name) :
    steps (below directory row) = steps directory ++ row := by
  induction row generalizing directory with
  | nil => simp
  | cons name rest ih =>
    obtain ⟨hname, hrest⟩ := List.forall_mem_cons.1 h
    rw [below_cons, ih _ hrest, steps_join, hname.steps_eq, List.append_assoc,
      List.singleton_append]

/-- A path is told by the directory and the row of names that it is joined from. -/
theorem names_below (directory : List Char) (hne : row ≠ []) (h : ∀ name ∈ row, IsStep name) :
    names (below directory row) = steps directory ++ row := by
  obtain ⟨front, last, rfl⟩ := (List.eq_nil_or_concat' row).resolve_left hne
  obtain ⟨hfront, hlast⟩ := List.forall_mem_append.1 h
  rw [List.forall_mem_singleton] at hlast
  rw [below_append_singleton, names_join, steps_below directory hfront,
    names_of_no_slash hlast.2, List.append_assoc]

/-- A row of names below a directory is the directory, a slash, and the names with slashes between
them, unless the directory is empty or has a slash at its end already. -/
theorem below_eq_append (hnil : directory ≠ []) (hlast : directory.getLast? ≠ some '/')
    (hne : row ≠ []) (h : ∀ name ∈ row, IsStep name) :
    below directory row = directory ++ '/' :: ['/'].intercalate row := by
  have hsteps : steps directory = names directory := if_neg (not_or.2 ⟨hnil, hlast⟩)
  refine names_inj ?_
  rw [names_below directory hne h, names_append_slash,
    names_intercalate hne fun name hname => (h name hname).2, hsteps]

/-- A row of names below a path below a directory. -/
theorem join_below (directory : List Char) (hne : row ≠ []) (h : ∀ name ∈ row, IsStep name) :
    join directory (below [] row) = below directory row := by
  refine names_inj ?_
  rw [names_join, names_below [] hne h, names_below directory hne h, steps_nil, List.nil_append]

end NativeHeader.Path
