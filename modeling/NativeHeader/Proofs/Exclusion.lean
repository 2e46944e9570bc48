import NativeHeader.Proofs.Selecting

/-!
# Excluded files

What is left out of a search is left out by its spelling: a file that is excluded as `./a.json` is
still found as `a.json` (`other_spelling_is_found`).  But whatever an argument selects begins with
the steps that the argument begins with, and goes on with names of entries
(`steps_of_mem_selectedBy`).  So a file stays out that is excluded in the spelling of the argument:
both begin with the same steps, among which may be empty ones, `.` and `..`, and after that there
are none of these.  If this is so for all arguments, the excluded file stays out altogether
(`excluded_file_stays_out`).
-/

namespace NativeHeader.Search

open NativeHeader.Path (Name IsStep IsProper)
open NativeHeader.FileTree (WellNamed)

variable {search : Search} {edition : Edition} {tree : FileTree} {recursive : Bool}
  {base path argument : List Char} {shared row segments : List Name}

/-! ## How results are spelled -/

/-- The names of a pattern lead from a directory to paths that go on with names of entries. -/
theorem steps_of_mem_expandSegments (h : tree.WellNamed)
    (hsegments : ∀ segment ∈ segments, segment = [] ∨ IsProper segment)
    (hpath : path ∈ Glob.expandSegments edition tree recursive segments [base]) :
    ∃ row, (∀ name ∈ row, IsProper name) ∧ Path.steps path = Path.steps base ++ row := by
  induction segments generalizing base with
  | nil =>
    obtain rfl := List.mem_singleton.1 hpath
    exact ⟨[], nofun, (List.append_nil _).symm⟩
  | cons segment rest ih =>
    obtain ⟨name, hname, hpath⟩ := Glob.mem_expandSegments_cons.1 hpath
    obtain ⟨hsegment, hrest⟩ := List.forall_mem_cons.1 hsegments
    obtain ⟨row, hrow, hsteps⟩ := ih hrest hpath
    -- one name of the pattern adds a row of names of entries, which may be empty
    obtain ⟨first, hfirst, hjoin⟩ : ∃ first, (∀ other ∈ first, IsProper other) ∧
        Path.steps (Path.join base name) = Path.steps base ++ first := by
      rcases Glob.segmentNames_cases h hname with ⟨rfl, -, -⟩ | ⟨rfl, -, -⟩ |
        ⟨first, -, hfirst, hbelow, -⟩
      · rcases hsegment with rfl | hproper
        · exact ⟨[], nofun, by rw [Path.steps_join, Path.steps_nil]⟩
        · exact ⟨[name], by simpa using hproper, by rw [Path.steps_join, hproper.1.steps_eq]⟩
      · exact ⟨[], nofun, by rw [Path.steps_join, Path.steps_nil]⟩
      · refine ⟨first, hfirst, ?_⟩
        rw [hbelow, Path.steps_below base fun other hother => (hfirst other hother).1]
    refine ⟨first ++ row, List.forall_mem_append.2 ⟨hfirst, hrow⟩, ?_⟩
    rw [hsteps, hjoin, List.append_assoc]

/-- The steps of an argument as its results are spelled.  If it is taken for a pattern, slashes in a
row count as one from the slash before the first name that is looked for. -/
def spelledSteps (tree : FileTree) (argument : List Char) : List Name :=
  if tree.hasDirectory argument then Path.steps argument
  else
    Path.steps (Glob.Pattern.ofText argument).base ++
      (Glob.Pattern.ofText argument).segments.filter (· ≠ [])

/-- An argument without two slashes in a row is spelled as it is. -/
theorem spelledSteps_eq_steps (h : [] ∉ (Path.steps argument).tail) :
    spelledSteps tree argument = Path.steps argument := by
  rw [spelledSteps]
  split
  · rfl
  · by_cases hmagic : Glob.isMagic argument = true
    · obtain ⟨front, rest, rfl, hfront, -, hnil, ⟨first, others, hfirst, hwild⟩, htext⟩ :=
        Glob.exists_ofText_eq hmagic
      obtain ⟨hstart, hrest⟩ := Glob.no_empty_of_join hfront hfirst hwild h
      have hbase := Glob.steps_dropTrailingSlashes hfront hstart
      have hne : ∀ name ∈ Path.steps rest, name ≠ [] := fun name hname heq => hrest (heq ▸ hname)
      have hfilter : (Path.steps rest).filter (· ≠ []) = Path.steps rest := by
        rw [List.filter_eq_self]
        simpa using hne
      rw [htext, Path.steps_join]
      dsimp only
      rw [hbase, Glob.segmentsOf_eq_names hnil hne]
      rcases Path.names_eq_steps_or rest with hnames | hnames
      · rw [hnames, hfilter]
      · rw [hnames, List.filter_append, hfilter]
        simp
    · rw [Glob.ofText_of_plain (by simpa using hmagic)]
      exact List.append_nil _

/-- Whether an argument begins with steps that have no wildcard, unless it leads to a directory, and
goes on with names that entries can have. -/
structure GoesOn (tree : FileTree) (argument : List Char) (shared row : List Name) : Prop where
  steps_eq : spelledSteps tree argument = shared ++ row
  plain : tree.hasDirectory argument = false → ∀ name ∈ shared, Glob.isMagic name = false
  proper : ∀ name ∈ row, IsProper name

/-- If a wildcard comes after other names, a beginning without wildcards ends among these. -/
theorem exists_append_of_plain {front others : List Name} {first : Name}
    (heq : front ++ first :: others = shared ++ row) (hmagic : Glob.isMagic first = true)
    (hplain : ∀ name ∈ shared, Glob.isMagic name = false) :
    ∃ before, row = before ++ first :: others ∧ front = shared ++ before := by
  rcases List.append_eq_append_iff.1 heq with ⟨middle, hshared, hmiddle⟩ | ⟨before, hfront, hrow⟩
  · cases middle with
    | nil => exact ⟨[], by simpa using hmiddle.symm, by simpa using hshared.symm⟩
    | cons name more =>
      rw [List.cons_append, List.cons.injEq] at hmiddle
      have hmem : first ∈ shared := by
        rw [hshared, hmiddle.1]
        exact List.mem_append_right _ (List.mem_cons_self ..)
      exact absurd (hmagic.symm.trans (hplain first hmem)) (by decide)
  · exact ⟨before, hrow, hfront⟩

theorem steps_of_mem_expand (h : tree.WellNamed) (hargument : GoesOn tree argument shared row)
    (hnot : tree.hasDirectory argument = false) (hmagic : Glob.isMagic argument = true)
    (hpath : path ∈ Glob.expand edition tree recursive argument) :
    ∃ row', (∀ name ∈ row', IsProper name) ∧ Path.steps path = shared ++ row' := by
  obtain ⟨front, rest, -, -, -, -, ⟨first, others, hfirst, hwild⟩, htext⟩ :=
    Glob.exists_ofText_eq hmagic
  obtain ⟨more, hmore⟩ := Glob.exists_filter_segmentsOf hfirst hwild
  have heq := hargument.steps_eq
  rw [spelledSteps, hnot, if_neg Bool.false_ne_true, htext] at heq
  dsimp only at heq
  rw [hmore] at heq
  obtain ⟨before, rfl, hbase⟩ := exists_append_of_plain heq hwild (hargument.plain hnot)
  obtain ⟨hbefore, hproper⟩ := List.forall_mem_append.1 hargument.proper
  have hsegments : ∀ segment ∈ Glob.Pattern.segmentsOf rest,
      segment = [] ∨ IsProper segment := by
    intro segment hsegment
    by_cases hempty : segment = []
    · exact .inl hempty
    · refine .inr (hproper segment ?_)
      rw [← hmore]
      exact List.mem_filter.2 ⟨hsegment, by simpa using hempty⟩
  rw [Glob.expand, htext] at hpath
  simp only [List.isEmpty_iff, Glob.segmentsOf_ne_nil hfirst hwild, if_false] at hpath
  obtain ⟨row', hrow', hsteps⟩ := steps_of_mem_expandSegments h hsegments hpath
  refine ⟨before ++ row', List.forall_mem_append.2 ⟨hbefore, hrow'⟩, ?_⟩
  rw [hsteps, hbase, List.append_assoc]

/-- What an argument selects begins with the steps that the argument begins with, and goes on with
names of entries. -/
theorem steps_of_mem_selectedBy (h : tree.WellNamed) (hargument : GoesOn tree argument shared row)
    (hpath : path ∈ selectedBy edition tree recursive argument) :
    ∃ row', (∀ name ∈ row', IsProper name) ∧ Path.steps path = shared ++ row' := by
  by_cases hdirectory : tree.hasDirectory argument = true
  · obtain ⟨below, name, -, hbelow, -, rfl, -⟩ := (mem_selectedBy_directory h hdirectory).1 hpath
    have hsteps := hargument.steps_eq
    rw [spelledSteps, if_pos hdirectory] at hsteps
    refine ⟨row ++ (below ++ [name]), List.forall_mem_append.2 ⟨hargument.proper, hbelow⟩, ?_⟩
    rw [Path.steps_below argument fun other hother => (hbelow other hother).1, hsteps,
      List.append_assoc]
  · have hnot : tree.hasDirectory argument = false := by simpa using hdirectory
    rw [selectedBy_of_not_directory hnot] at hpath
    by_cases hmagic : Glob.isMagic argument = true
    · exact steps_of_mem_expand h hargument hnot hmagic hpath
    · have hplain : Glob.isMagic argument = false := by simpa using hmagic
      have hsteps := hargument.steps_eq
      rw [spelledSteps, if_neg hdirectory, Glob.ofText_of_plain hplain] at hsteps
      rw [Glob.expand_of_plain hplain] at hpath
      split at hpath
      · obtain rfl := List.mem_singleton.1 hpath
        exact ⟨row, hargument.proper, by simpa using hsteps⟩
      · cases hpath

/-! ## Excludes -/

/-- Whether an argument and an exclude are spelled alike: they begin with the same steps, and go on
with names that entries can have. -/
def SpelledAlike (tree : FileTree) (argument exclude : List Char) : Prop :=
  ∃ shared row row', GoesOn tree argument shared row ∧ Path.steps exclude = shared ++ row' ∧
    ∀ name ∈ row', IsProper name

/-- Whether a path begins with some steps and goes on with names that entries can have. -/
def BeginsWith (shared : List Name) (path : List Char) : Prop :=
  ∃ row, Path.steps path = shared ++ row ∧ ∀ name ∈ row, IsProper name

/-- Paths that begin with the same steps, which have no wildcard and of which at most the first is
empty, are spelled alike. -/
theorem spelledAlike_of_beginsWith {exclude : List Char} (hempty : [] ∉ shared.tail)
    (hplain : ∀ name ∈ shared, Glob.isMagic name = false) (hargument : BeginsWith shared argument)
    (hexclude : BeginsWith shared exclude) : SpelledAlike tree argument exclude := by
  obtain ⟨row, hsteps, hrow⟩ := hargument
  obtain ⟨row', hsteps', hrow'⟩ := hexclude
  have hnone : [] ∉ row := fun hmem => (hrow [] hmem).1.1 rfl
  have htail : [] ∉ (Path.steps argument).tail := by
    rw [hsteps]
    cases shared with
    | nil => exact fun hmem => hnone (List.mem_of_mem_tail hmem)
    | cons first rest =>
      rw [List.cons_append, List.tail_cons, List.mem_append, not_or]
      exact ⟨hempty, hnone⟩
  exact ⟨shared, row, row', ⟨(spelledSteps_eq_steps htail).trans hsteps, fun _ => hplain, hrow⟩,
    hsteps', hrow'⟩

/-- An argument without empty steps, `.` and `..` stands for a path that begins as the path does of
the directory in which the search begins. -/
theorem beginsWith_fullPath {argument : String} (hroot : BeginsWith shared search.root.toList)
    (h : ∀ name ∈ Path.steps argument.toList, IsProper name) :
    BeginsWith shared (search.fullPath argument).toList := by
  have hhead : argument.toList.head? ≠ some '/' := by
    intro hhead
    obtain ⟨rest, hrest⟩ := List.head?_eq_some_iff.1 hhead
    rw [hrest, Path.steps_slash] at h
    exact (h [] (List.mem_cons_self ..)).1.1 rfl
  obtain ⟨row, hsteps, hrow⟩ := hroot
  refine ⟨row ++ Path.steps argument.toList, ?_, List.forall_mem_append.2 ⟨hrow, h⟩⟩
  rw [toList_fullPath, Path.resolve, if_neg hhead, Path.steps_join, hsteps, List.append_assoc]

/-- An argument that is spelled like an exclude finds the file under the spelling of the exclude. -/
theorem eq_of_spelledAlike (h : tree.WellNamed) {exclude : List Char}
    (halike : SpelledAlike tree argument exclude)
    (hpath : path ∈ selectedBy edition tree recursive argument)
    (hsame : tree.SameFile path exclude) : path = exclude := by
  obtain ⟨shared, row, row', hargument, hsteps, hrow'⟩ := halike
  obtain ⟨found, hfound, hspelling⟩ := steps_of_mem_selectedBy h hargument hpath
  exact hsame.eq_of_steps hspelling hsteps hfound hrow'

/-- Let an exclude lead to a file.  Then the search does not find the file under the path that the
exclude stands for; and if it finds the file under another, then not by way of an argument that is
spelled like the exclude.  So it does not find the file at all if the paths that the exclude and all
arguments stand for begin with the same steps, which have no wildcard and of which at most the first
is empty, and go on without an empty step, `.` or `..`. -/
theorem excluded_file_stays_out (h : tree.WellNamed) (search : Search) {exclude : String}
    (hexclude : exclude ∈ search.excludes)
    (hfile : tree.hasFile (search.fullPath exclude).toList = true) :
    search.fullPath exclude ∉ search.files tree ∧
      (∀ path ∈ search.files tree,
        tree.SameFile path.toList (search.fullPath exclude).toList →
          ∀ argument ∈ search.paths, path ∈ (search.alone argument).files tree →
            ¬ SpelledAlike tree (search.fullPath argument).toList
              (search.fullPath exclude).toList) ∧
      (∀ shared : List Name, [] ∉ shared.tail → (∀ name ∈ shared, Glob.isMagic name = false) →
        (∀ argument ∈ exclude :: search.paths,
          BeginsWith shared (search.fullPath argument).toList) →
          ∀ path ∈ search.files tree,
            ¬ tree.SameFile path.toList (search.fullPath exclude).toList) := by
  have hout : search.fullPath exclude ∉ search.files tree := by
    intro hmem
    have hkept := (mem_files_iff.1 hmem).2 exclude hexclude
    rw [leftOut, mem_map_ofList, excluded, excludedBy, if_pos hfile] at hkept
    exact hkept (List.mem_singleton_self _)
  have halike : ∀ path ∈ search.files tree,
      tree.SameFile path.toList (search.fullPath exclude).toList →
        ∀ argument ∈ search.paths, path ∈ (search.alone argument).files tree →
          ¬ SpelledAlike tree (search.fullPath argument).toList
            (search.fullPath exclude).toList := by
    intro path hpath hsame argument _ hselected halike
    have heq := eq_of_spelledAlike h halike (mem_files_alone.1 hselected) hsame
    exact hout (String.toList_inj.1 heq ▸ hpath)
  refine ⟨hout, halike, fun shared hempty hplain hall path hpath hsame => ?_⟩
  obtain ⟨hstart, hpaths⟩ := List.forall_mem_cons.1 hall
  obtain ⟨argument, hargument, hselected⟩ := (mem_files_iff.1 hpath).1
  exact halike path hpath hsame argument hargument hselected
    (spelledAlike_of_beginsWith hempty hplain (hpaths argument hargument) hstart)

/-- A directory with two files. -/
def pairTree : FileTree := treeOfFiles ["home/sub/a.json", "home/sub/b.json"]

theorem pairTree_wellNamed : pairTree.WellNamed := wellNamed_treeOfFiles (by decide)

/-- Two ways to the same files, one of which is spelled like the exclude. -/
def spelledSearch : Search where
  root := "/home"
  paths := ["./s*//*.json", "sub//"]
  excludes := ["./sub/a.json"]
  recursive := false
  edition := .newer

/-- The same without empty steps and dots, once with the whole path. -/
def plainSearch : Search where
  root := "/home"
  paths := ["s*/*.json", "/home/sub"]
  excludes := ["sub/a.json"]
  recursive := false
  edition := .newer

theorem spelledAlike_pattern :
    SpelledAlike pairTree "/home/./s*//*.json".toList "/home/./sub/a.json".toList :=
  ⟨[[], "home".toList, ['.']], ["s*".toList, "*.json".toList], ["sub".toList, "a.json".toList],
    ⟨by decide, by decide, by decide⟩, by decide, by decide⟩

theorem plainSearch_beginsWith :
    ∀ argument ∈ "sub/a.json" :: plainSearch.paths,
      BeginsWith [[]] (plainSearch.fullPath argument).toList := by
  have hroot : BeginsWith [[]] plainSearch.root.toList := ⟨["home".toList], by decide, by decide⟩
  intro argument hargument
  rcases List.mem_cons.1 hargument with rfl | hargument
  · exact beginsWith_fullPath hroot (by decide)
  · rcases List.mem_cons.1 hargument with rfl | hargument
    · exact beginsWith_fullPath hroot (by decide)
    · obtain rfl := List.mem_singleton.1 hargument
      exact ⟨["home".toList, "sub".toList], by decide, by decide⟩

theorem spelledSearch_leaves_out :
    ("./sub/a.json" ∈ spelledSearch.excludes ∧
      pairTree.hasFile (spelledSearch.fullPath "./sub/a.json").toList = true) ∧
    spelledSearch.files pairTree =
      ["/home/./sub/b.json", "/home/sub//a.json", "/home/sub//b.json"] ∧
    pairTree.SameFile "/home/sub//a.json".toList "/home/./sub/a.json".toList ∧
    "/home/./sub/a.json" ∉ spelledSearch.files pairTree ∧
    (∀ path ∈ spelledSearch.files pairTree,
      pairTree.SameFile path.toList "/home/./sub/a.json".toList →
        path ∉ (spelledSearch.alone "./s*//*.json").files pairTree) ∧
    ¬ SpelledAlike pairTree "/home/sub//".toList "/home/./sub/a.json".toList ∧
    (plainSearch.files pairTree = ["/home/sub/b.json"] ∧
      ∀ path ∈ plainSearch.files pairTree,
        ¬ pairTree.SameFile path.toList "/home/sub/a.json".toList) := by
  have hexclude : "./sub/a.json" ∈ spelledSearch.excludes := by decide
  have hfull : spelledSearch.fullPath "./sub/a.json" = "/home/./sub/a.json" := by decide
  have hfile : pairTree.hasFile "/home/./sub/a.json".toList = true := by decide
  have hfiles : spelledSearch.files pairTree =
      ["/home/./sub/b.json", "/home/sub//a.json", "/home/sub//b.json"] := by
    decide +kernel
  have hsame : pairTree.SameFile "/home/sub//a.json".toList "/home/./sub/a.json".toList :=
    ⟨by decide, hfile, by decide⟩
  obtain ⟨hout, halike, -⟩ :=
    excluded_file_stays_out pairTree_wellNamed spelledSearch hexclude (hfull ▸ hfile)
  rw [hfull] at hout halike
  have hplainExclude : "sub/a.json" ∈ plainSearch.excludes := by decide
  have hplainFull : plainSearch.fullPath "sub/a.json" = "/home/sub/a.json" := by decide
  have hplainFile : pairTree.hasFile "/home/sub/a.json".toList = true := by decide
  obtain ⟨-, -, hplain⟩ := excluded_file_stays_out pairTree_wellNamed plainSearch hplainExclude
    (hplainFull ▸ hplainFile)
  have hplain := hplain _ (by decide) (by decide) plainSearch_beginsWith
  rw [hplainFull] at hplain
  refine ⟨⟨hexclude, hfull ▸ hfile⟩, hfiles, hsame, hout, fun path hpath hsame hselected => ?_, ?_,
    by decide +kernel, hplain⟩
  · exact halike path hpath hsame "./s*//*.json" (by decide) hselected spelledAlike_pattern
  · have hfound : "/home/sub//a.json" ∈ spelledSearch.files pairTree := hfiles ▸ by decide
    exact halike "/home/sub//a.json" hfound hsame "sub//" (by decide) (by decide +kernel)

/-- Names that lead back to where they began are another spelling, under which a file is found
although it is excluded. -/
theorem other_spelling_is_found :
    ¬ ∀ (tree : FileTree) (search : Search) (exclude path : String), tree.WellNamed →
      exclude ∈ search.excludes → tree.hasFile (search.fullPath exclude).toList = true →
        path ∈ search.files tree →
          ¬ tree.SameFile path.toList (search.fullPath exclude).toList := by
  intro h
  have hwell : (treeOfFiles ["home/a.json"]).WellNamed := wellNamed_treeOfFiles (by decide)
  refine h (treeOfFiles ["home/a.json"])
    { root := "/home", paths := ["a.json"], excludes := ["./a.json"], recursive := false,
      edition := .newer } "./a.json" "/home/a.json" hwell (by decide) (by decide) (by decide) ?_
  exact ⟨by decide, by decide, by decide⟩

end NativeHeader.Search
