import Mathlib.Data.List.TakeWhile
import NativeHeader.Proofs.Relisting
import NativeHeader.Proofs.Spelling

/-!
# Following paths

In a tree as it can be on a disk every entry has a name that can stand in a path, and no two entries
of a directory have the same (`WellNamed`).  There a row of names leads down from a directory, one
entry at a time (`descend`), and a path that is joined from a directory and such a row leads to what
the row leads to from there (`at?_below`).

The place of a path is the row of names that leads to the same from the top (`Path.place`).  It is
read off the spelling alone, and it is where the path leads if it leads anywhere
(`descend_place`).  So paths that lead to one file have the same place (`SameFile`), though their
spellings may differ.
-/

namespace NativeHeader

open NativeHeader.Path (Name IsStep IsProper)

namespace FileTree

variable {tree entry place : FileTree} {name : Name} {row : List Name}
  {path base relative : List Char} {above : List FileTree} {here : FileTree}
  {entries : List (Name × FileTree)}

/-! ## Well-named trees -/

/-- Whether every entry in a tree has a name that can stand in a path. -/
inductive HasProperNames : FileTree → Prop
  | file (content : List UInt8) : HasProperNames (.file content)
  | directory {entries : List (Name × FileTree)} : (∀ entry ∈ entries, IsProper entry.1) →
      (∀ entry ∈ entries, HasProperNames entry.2) → HasProperNames (.directory entries)

/-- A tree as it can be on a disk. -/
structure WellNamed (tree : FileTree) : Prop where
  distinct : tree.HasDistinctNames
  proper : tree.HasProperNames

theorem HasProperNames.proper_of_mem (h : tree.HasProperNames) {child : Name × FileTree}
    (hmem : child ∈ tree.children) : IsProper child.1 := by
  cases h with
  | file => cases hmem
  | directory proper _ => exact proper child hmem

theorem HasProperNames.of_mem_children (h : tree.HasProperNames) {child : Name × FileTree}
    (hmem : child ∈ tree.children) : child.2.HasProperNames := by
  cases h with
  | file => cases hmem
  | directory _ inside => exact inside child hmem

theorem WellNamed.of_mem_children (h : tree.WellNamed) {child : Name × FileTree}
    (hmem : child ∈ tree.children) : child.2.WellNamed :=
  ⟨h.distinct.of_mem_children hmem, h.proper.of_mem_children hmem⟩

theorem HasProperNames.putEntry (h : tree.HasProperNames) (hname : IsProper name)
    (hentry : entry.HasProperNames) :
    (FileTree.directory (FileTree.putEntry name entry tree.children)).HasProperNames := by
  refine .directory (fun child hchild => ?_) fun child hchild => ?_
  · rcases mem_of_mem_putEntry hchild with rfl | hchild
    · exact hname
    · exact h.proper_of_mem hchild
  · rcases mem_of_mem_putEntry hchild with rfl | hchild
    · exact hentry
    · exact h.of_mem_children hchild

theorem HasProperNames.lookup_getD (h : tree.HasProperNames) (name : Name) :
    ((tree.children.lookup name).getD (FileTree.directory [])).HasProperNames := by
  cases hentry : tree.children.lookup name with
  | none => exact .directory nofun nofun
  | some entry => exact h.of_mem_children (mem_of_lookup hentry)

theorem HasProperNames.insert (h : tree.HasProperNames) (hentry : entry.HasProperNames)
    (hrow : ∀ name ∈ row, IsProper name) : (FileTree.insert entry row tree).HasProperNames := by
  induction row generalizing tree with
  | nil => exact hentry
  | cons name rest ih =>
    obtain ⟨hname, hrest⟩ := List.forall_mem_cons.1 hrow
    exact h.putEntry hname (ih (h.lookup_getD name) hrest)

theorem WellNamed.insert (h : tree.WellNamed) (hentry : entry.WellNamed)
    (hrow : ∀ name ∈ row, IsProper name) : (FileTree.insert entry row tree).WellNamed :=
  ⟨h.distinct.insert hentry.distinct row, h.proper.insert hentry.proper hrow⟩

theorem lookup_of_mem (nodup : (entries.map Prod.fst).Nodup) (h : (name, entry) ∈ entries) :
    entries.lookup name = some entry := by
  induction entries with
  | nil => cases h
  | cons first rest ih =>
    rw [List.map_cons, List.nodup_cons] at nodup
    rw [List.lookup_cons]
    rcases List.mem_cons.1 h with rfl | h
    · simp
    · have hne : name ≠ first.1 := by
        intro heq
        exact nodup.1 (List.mem_map.2 ⟨_, h, heq⟩)
      rw [beq_eq_false_iff_ne.2 hne]
      exact ih nodup.2 h

theorem WellNamed.lookup_eq_some_iff (h : tree.WellNamed) :
    tree.children.lookup name = some entry ↔ (name, entry) ∈ tree.children :=
  ⟨mem_of_lookup, lookup_of_mem h.distinct.nodup_children⟩

/-! ## Descending -/

/-- What a row of names leads to, each naming an entry of what the ones before it lead to. -/
def descend : FileTree → List Name → Option FileTree
  | here, [] => some here
  | here, name :: rest => (here.children.lookup name).bind fun child => child.descend rest

@[simp] theorem descend_nil (here : FileTree) : here.descend [] = some here := rfl

@[simp] theorem descend_cons (here : FileTree) (name : Name) (rest : List Name) :
    here.descend (name :: rest) =
      (here.children.lookup name).bind fun child => child.descend rest := rfl

theorem descend_append (here : FileTree) (front back : List Name) :
    here.descend (front ++ back) = (here.descend front).bind (·.descend back) := by
  induction front generalizing here with
  | nil => rfl
  | cons name rest ih =>
    rw [List.cons_append, descend_cons, descend_cons]
    cases here.children.lookup name with
    | none => rfl
    | some child => exact ih child

theorem WellNamed.descend (h : tree.WellNamed) (hplace : tree.descend row = some place) :
    place.WellNamed := by
  induction row generalizing tree with
  | nil => exact Option.some.inj hplace ▸ h
  | cons name rest ih =>
    obtain ⟨child, hchild, hplace⟩ := Option.bind_eq_some_iff.1 hplace
    exact ih (h.of_mem_children (mem_of_lookup hchild)) hplace

/-- Only names that entries can have lead anywhere. -/
theorem WellNamed.proper_of_descend (h : tree.WellNamed) (hplace : tree.descend row = some place) :
    ∀ name ∈ row, IsProper name := by
  induction row generalizing tree with
  | nil => exact nofun
  | cons name rest ih =>
    obtain ⟨child, hchild, hplace⟩ := Option.bind_eq_some_iff.1 hplace
    have hmem := mem_of_lookup hchild
    exact List.forall_mem_cons.2
      ⟨h.proper.proper_of_mem hmem, ih (h.of_mem_children hmem) hplace⟩

/-! ## Following names -/

/-- Names that entries can have are followed downwards only. -/
theorem toOption_follow (above : List FileTree) (here : FileTree)
    (h : ∀ name ∈ row, IsProper name) : (follow above here row).toOption = here.descend row := by
  induction row generalizing above here with
  | nil => rfl
  | cons name rest ih =>
    obtain ⟨⟨hstep, hdot, hup⟩, hrest⟩ := List.forall_mem_cons.1 h
    cases here with
    | file content => rfl
    | directory entries =>
      rw [follow_directory, if_neg (not_or.2 ⟨hstep.1, hdot⟩), if_neg hup, descend_cons, children]
      cases entries.lookup name with
      | none => rfl
      | some child => exact ih _ _ hrest

/-- If names can be followed to the end, so can the first of them, and the others from there. -/
theorem follow_append {front back : List Name} (h : follow above here (front ++ back) = .ok place) :
    ∃ above' between, (∀ rest, follow above here (front ++ rest) = follow above' between rest) ∧
      follow above' between back = .ok place := by
  induction front generalizing above here with
  | nil => exact ⟨above, here, fun _ => rfl, h⟩
  | cons name front ih =>
    cases here with
    | file content => cases h
    | directory entries =>
      simp only [List.cons_append, follow_directory] at h ⊢
      by_cases hstay : name = [] ∨ name = ['.']
      · simp only [if_pos hstay] at h ⊢
        exact ih h
      · by_cases hup : name = ['.', '.']
        · simp only [if_neg hstay, if_pos hup] at h ⊢
          cases above with
          | nil => exact ih h
          | cons parent further => exact ih h
        · simp only [if_neg hstay, if_neg hup] at h ⊢
          cases hchild : entries.lookup name with
          | none => simp only [hchild, reduceCtorEq] at h
          | some child =>
            simp only [hchild] at h ⊢
            exact ih h

/-- A row of names is followed from a directory only. -/
theorem isDirectory_of_follow (hne : row ≠ []) (h : follow above here row = .ok place) :
    here.isDirectory = true := by
  cases here with
  | directory entries => rfl
  | file content =>
    obtain ⟨name, rest, rfl⟩ := List.exists_cons_of_ne_nil hne
    cases h

theorem follow_nil_name (h : here.isDirectory = true) : follow above here [[]] = .ok here := by
  cases here with
  | file content => cases h
  | directory entries => rfl

/-! ## What is found under a path -/

theorem hasFile_iff :
    tree.hasFile path = true ↔ ∃ content, tree.at? path = some (file content) := by
  rw [hasFile]
  rcases tree.at? path with _ | ⟨content⟩ | ⟨entries⟩ <;> simp [isFile]

theorem hasDirectory_iff :
    tree.hasDirectory path = true ↔ ∃ entries, tree.at? path = some (directory entries) := by
  rw [hasDirectory]
  rcases tree.at? path with _ | ⟨content⟩ | ⟨entries⟩ <;> simp [isDirectory]

theorem exists?_iff : tree.exists? path = true ↔ ∃ entry, tree.at? path = some entry := by
  rw [exists?, Option.isSome_iff_exists]

theorem exists?_of_hasFile (h : tree.hasFile path = true) : tree.exists? path = true := by
  obtain ⟨content, hcontent⟩ := hasFile_iff.1 h
  exact exists?_iff.2 ⟨_, hcontent⟩

theorem hasDirectory_of_hasFile (h : tree.hasFile path = true) :
    tree.hasDirectory path = false := by
  obtain ⟨content, hcontent⟩ := hasFile_iff.1 h
  rw [hasDirectory, hcontent]
  rfl

theorem at?_eq_some_iff :
    tree.at? path = some place ↔ follow [] tree (Path.names path) = .ok place := by
  rw [at?, find]
  cases follow [] tree (Path.names path) <;> simp [Except.toOption]

/-- From where a path leads, names are followed as if they stood after its steps. -/
theorem exists_follow_steps (h : tree.at? path = some place) :
    ∃ above, ∀ rest, follow [] tree (Path.steps path ++ rest) = follow above place rest := by
  have hfollow := at?_eq_some_iff.1 h
  rcases Path.names_eq_steps_or path with hnames | hnames
  · rw [hnames, ← List.append_nil (Path.steps path)] at hfollow
    obtain ⟨above, between, hrest, hbetween⟩ := follow_append hfollow
    cases hbetween
    exact ⟨above, hrest⟩
  · rw [hnames] at hfollow
    obtain ⟨above, between, hrest, hbetween⟩ := follow_append hfollow
    rw [follow_nil_name (isDirectory_of_follow (List.cons_ne_nil _ _) hbetween)] at hbetween
    cases hbetween
    exact ⟨above, hrest⟩

/-- A path that leads to a file ends in the name of it. -/
theorem names_eq_steps (h : tree.hasFile path = true) : Path.names path = Path.steps path := by
  obtain ⟨content, hfile⟩ := hasFile_iff.1 h
  obtain ⟨above, hrest⟩ := exists_follow_steps hfile
  rcases Path.names_eq_steps_or path with hnames | hnames
  · exact hnames
  · have hfollow := at?_eq_some_iff.1 hfile
    rw [hnames, hrest] at hfollow
    cases hfollow

/-- Something is found under a joined path only if there is a directory to look in. -/
theorem hasDirectory_of_join (h : tree.at? (Path.join base relative) = some place) :
    tree.hasDirectory base = true := by
  have hfollow := at?_eq_some_iff.1 h
  rw [Path.names_join] at hfollow
  obtain ⟨above, between, hrest, hbetween⟩ := follow_append hfollow
  have hdirectory := isDirectory_of_follow (Path.names_ne_nil relative) hbetween
  have hfound : follow [] tree (Path.names base) = .ok between := by
    rcases Path.names_eq_steps_or base with hnames | hnames
    · rw [hnames, ← List.append_nil (Path.steps base), hrest]
      rfl
    · rw [hnames, hrest, follow_nil_name hdirectory]
  rw [hasDirectory, at?_eq_some_iff.2 hfound]
  exact hdirectory

/-- What a name leads to in the directory under a path. -/
theorem at?_join (tree : FileTree) (base : List Char) (h : IsProper name) :
    tree.at? (Path.join base name) =
      (tree.at? base).bind fun place => place.children.lookup name := by
  have hnames : Path.names (Path.join base name) = Path.steps base ++ [name] := by
    rw [Path.names_join, Path.names_of_no_slash h.1.2]
  cases hbase : tree.at? base with
  | none =>
    cases hfound : tree.at? (Path.join base name) with
    | none => rfl
    | some entry =>
      have hthere := hasDirectory_of_join hfound
      rw [hasDirectory, hbase] at hthere
      cases hthere
  | some place =>
    obtain ⟨above, hrest⟩ := exists_follow_steps hbase
    have hrow : ∀ other ∈ [name], IsProper other := by simpa using h
    rw [at?, find, hnames, hrest, toOption_follow above place hrow]
    cases hlookup : place.children.lookup name <;> simp [hlookup]

/-- What a row of names leads to from the directory under a path. -/
theorem at?_below (tree : FileTree) (base : List Char) (h : ∀ name ∈ row, IsProper name) :
    tree.at? (Path.below base row) =
      (tree.at? base).bind fun place => place.descend row := by
  induction row generalizing base with
  | nil => cases hplace : tree.at? base <;> simp [hplace]
  | cons name rest ih =>
    obtain ⟨hname, hrest⟩ := List.forall_mem_cons.1 h
    rw [Path.below_cons, ih _ hrest, at?_join tree base hname]
    cases tree.at? base <;> rfl

/-- A slash at the end of a path to a directory changes nothing. -/
theorem at?_join_nil (h : tree.hasDirectory base = true) :
    tree.at? (Path.join base []) = tree.at? base := by
  obtain ⟨entries, hplace⟩ := hasDirectory_iff.1 h
  obtain ⟨above, hrest⟩ := exists_follow_steps hplace
  rw [hplace]
  refine at?_eq_some_iff.2 ?_
  rw [Path.names_join, Path.names, hrest, follow_nil_name rfl]

/-- More slashes at the end of a path to a directory change nothing either. -/
theorem hasDirectory_append_slashes {slashes : List Char} (hall : ∀ c ∈ slashes, c = '/')
    (h : tree.hasDirectory path = true) : tree.hasDirectory (path ++ slashes) = true := by
  induction slashes generalizing path with
  | nil => rwa [List.append_nil]
  | cons c rest ih =>
    obtain ⟨rfl, hrest⟩ := List.forall_mem_cons.1 hall
    have hslash : tree.hasDirectory (path ++ ['/']) = true := by
      obtain ⟨entries, hplace⟩ := hasDirectory_iff.1 h
      obtain ⟨above, hrest⟩ := exists_follow_steps hplace
      refine hasDirectory_iff.2 ⟨entries, at?_eq_some_iff.2 ?_⟩
      rw [Path.names_append_singleton_slash]
      rcases Path.names_eq_steps_or path with hnames | hnames
      · rw [hnames, hrest, follow_nil_name rfl]
      · rw [hnames, List.append_assoc, hrest]
        rfl
    have hdirectory := ih hrest hslash
    rwa [List.append_assoc, List.singleton_append] at hdirectory

/-- What is found without the slashes at the end of a path is found with them, if it is a
directory. -/
theorem hasDirectory_of_dropTrailingSlashes
    (h : tree.hasDirectory (Path.dropTrailingSlashes path) = true) :
    tree.hasDirectory path = true := by
  rw [Path.dropTrailingSlashes] at h
  split at h
  · exact h
  · have hsplit : Path.trimSlashes path ++ (path.reverse.takeWhile (· = '/')).reverse = path := by
      rw [Path.trimSlashes, ← List.reverse_append, List.takeWhile_append_dropWhile,
        List.reverse_reverse]
    rw [← hsplit]
    refine hasDirectory_append_slashes (fun c hc => ?_) h
    simpa using List.mem_takeWhile_imp (List.mem_reverse.1 hc)

end FileTree

/-! ## The place of a path -/

namespace Path

/-- The place that names lead to from a place; both are rows of names from the top, last first. -/
def placeFrom : List Name → List Name → List Name
  | here, [] => here
  | here, name :: rest =>
    if name = [] ∨ name = ['.'] then placeFrom here rest
    else if name = ['.', '.'] then placeFrom here.tail rest
    else placeFrom (name :: here) rest

/-- The row of names, last first, that leads from the top to where a path leads. -/
def place (path : List Char) : List Name := placeFrom [] (names path)

theorem placeFrom_append (here front back : List Name) :
    placeFrom here (front ++ back) = placeFrom (placeFrom here front) back := by
  induction front generalizing here with
  | nil => rfl
  | cons name rest ih =>
    rw [List.cons_append, placeFrom, placeFrom]
    split
    · exact ih here
    · split
      · exact ih here.tail
      · exact ih (name :: here)

theorem placeFrom_of_proper {row : List Name} (here : List Name) (h : ∀ name ∈ row, IsProper name) :
    placeFrom here row = row.reverse ++ here := by
  induction row generalizing here with
  | nil => rfl
  | cons name rest ih =>
    obtain ⟨⟨hstep, hdot, hup⟩, hrest⟩ := List.forall_mem_cons.1 h
    rw [placeFrom, if_neg (not_or.2 ⟨hstep.1, hdot⟩), if_neg hup, ih _ hrest]
    simp

end Path

namespace FileTree

variable {tree : FileTree} {path other : List Char} {trail : List Name} {above : List FileTree}
  {here found : FileTree}

/-- A trail from the top of a tree: the names passed, the directories passed, and what has been
reached, where the last comes first. -/
inductive Trail (tree : FileTree) : List Name → List FileTree → FileTree → Prop
  | top : Trail tree [] [] tree
  | child {trail : List Name} {above : List FileTree} {here child : FileTree} {name : Name} :
      Trail tree trail above here → here.children.lookup name = some child →
        Trail tree (name :: trail) (here :: above) child

theorem Trail.descend_eq (h : Trail tree trail above here) :
    tree.descend trail.reverse = some here := by
  induction h with
  | top => rfl
  | child _ hchild ih => rw [List.reverse_cons, descend_append, ih]; simp [hchild]

/-- Whoever follows names along a trail stays on a trail, whose names are read off the spelling. -/
theorem Trail.descend_placeFrom (h : Trail tree trail above here) {row : List Name}
    (hfound : follow above here row = .ok found) :
    tree.descend (Path.placeFrom trail row).reverse = some found := by
  induction row generalizing trail above here with
  | nil =>
    cases hfound
    exact h.descend_eq
  | cons name rest ih =>
    cases here with
    | file content => cases hfound
    | directory entries =>
      rw [follow_directory] at hfound
      rw [Path.placeFrom]
      by_cases hstay : name = [] ∨ name = ['.']
      · rw [if_pos hstay] at hfound ⊢
        exact ih h hfound
      · by_cases hup : name = ['.', '.']
        · rw [if_neg hstay, if_pos hup] at hfound ⊢
          cases h with
          | top => exact ih .top hfound
          | child hparent _ => exact ih hparent hfound
        · rw [if_neg hstay, if_neg hup] at hfound ⊢
          cases hchild : entries.lookup name with
          | none => simp only [hchild, reduceCtorEq] at hfound
          | some child =>
            simp only [hchild] at hfound
            exact ih (h.child hchild) hfound

/-- A path that leads somewhere leads to its place. -/
theorem descend_place (h : tree.at? path = some found) :
    tree.descend (Path.place path).reverse = some found :=
  Trail.top.descend_placeFrom (at?_eq_some_iff.1 h)

theorem WellNamed.at? (h : tree.WellNamed) (hfound : tree.at? path = some found) :
    found.WellNamed := h.descend (descend_place hfound)

/-- The entries of the directory under a path are what the joined paths lead to. -/
theorem WellNamed.mem_children_iff (h : tree.WellNamed) {base : List Char} {name : Name}
    {place entry : FileTree} (hplace : tree.at? base = some place) :
    (name, entry) ∈ place.children ↔
      IsProper name ∧ tree.at? (Path.join base name) = some entry := by
  have hwell := h.at? hplace
  constructor
  · intro hmem
    have hname := hwell.proper.proper_of_mem hmem
    rw [at?_join tree base hname, hplace]
    exact ⟨hname, hwell.lookup_eq_some_iff.2 hmem⟩
  · rintro ⟨hname, hentry⟩
    rw [at?_join tree base hname, hplace] at hentry
    exact hwell.lookup_eq_some_iff.1 hentry

/-- Whether two paths lead to one and the same file. -/
def SameFile (tree : FileTree) (path other : List Char) : Prop :=
  tree.hasFile path = true ∧ tree.hasFile other = true ∧ Path.place path = Path.place other

/-- Two spellings of one file that begin alike, and go on with names that entries can have, are the
same. -/
theorem SameFile.eq_of_steps (h : tree.SameFile path other) {shared row row' : List Name}
    (hpath : Path.steps path = shared ++ row) (hother : Path.steps other = shared ++ row')
    (hrow : ∀ name ∈ row, IsProper name) (hrow' : ∀ name ∈ row', IsProper name) :
    path = other := by
  obtain ⟨hfile, hfile', hplace⟩ := h
  have hnames := (names_eq_steps hfile).trans hpath
  have hnames' := (names_eq_steps hfile').trans hother
  rw [Path.place, Path.place, hnames, hnames', Path.placeFrom_append, Path.placeFrom_append,
    Path.placeFrom_of_proper _ hrow, Path.placeFrom_of_proper _ hrow',
    List.append_cancel_right_eq, List.reverse_inj] at hplace
  exact Path.names_inj (by rw [hnames, hnames', hplace])

end FileTree

end NativeHeader
