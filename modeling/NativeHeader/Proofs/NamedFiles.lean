import NativeHeader.Proofs.Selecting

/-!
# Files that are named by an argument

An argument that leads to a file is taken for a pattern, which need not describe the file: the
pattern `[a].json` describes `a.json` alone (`bracketed_file_is_lost`).  Only a set can have this
effect.  If every name that is a wildcard describes itself, as all do that have no opening bracket,
and there are no two slashes in a row that a pattern would respell, then the file is found under its
argument; and without recursion no other file is found by its own path (`named_file_found`).  All
names of the path count that the argument stands for, those of the directory in which the search
begins included.
-/

namespace NativeHeader.Search

open NativeHeader.Path (Name IsStep IsProper)
open NativeHeader.FileTree (WellNamed)

variable {edition : Edition} {tree : FileTree} {recursive only : Bool}
  {base path argument relative : List Char} {name segment : Name} {row segments : List Name}

/-- Whether the wildcards among the names of a path describe themselves. -/
def DescribesItself (path : List Char) : Prop :=
  ∀ name ∈ Path.names path, Glob.isMagic name = true → Glob.matchesName name name = true

instance : DecidablePred DescribesItself := fun path =>
  inferInstanceAs (Decidable (∀ name ∈ Path.names path,
    Glob.isMagic name = true → Glob.matchesName name name = true))

/-! ## Paths without sets -/

theorem mem_of_mem_names {c : Char} (hname : name ∈ Path.names path) (hc : c ∈ name) :
    c ∈ path := by
  induction path generalizing name with
  | nil =>
    rw [Path.names, List.mem_singleton] at hname
    exact hname ▸ hc
  | cons d rest ih =>
    by_cases hd : d = '/'
    · rw [hd, Path.names_slash, List.mem_cons] at hname
      rcases hname with rfl | hname
      · cases hc
      · exact List.mem_cons_of_mem d (ih hname hc)
    · rw [Path.names, if_neg hd] at hname
      cases hrest : Path.names rest with
      | nil => exact absurd hrest (Path.names_ne_nil rest)
      | cons first more =>
        rw [hrest] at hname ih
        rcases List.mem_cons.1 hname with rfl | hname
        · rcases List.mem_cons.1 hc with rfl | hc
          · exact List.mem_cons_self ..
          · exact List.mem_cons_of_mem d (ih (List.mem_cons_self ..) hc)
        · exact List.mem_cons_of_mem d (ih (List.mem_cons_of_mem first hname) hc)

theorem isMagic_of_mem_names (hname : name ∈ Path.names path) (hmagic : Glob.isMagic name = true) :
    Glob.isMagic path = true := by
  obtain ⟨c, hc, hmagic⟩ := List.any_eq_true.1 hmagic
  exact List.any_eq_true.2 ⟨c, mem_of_mem_names hname hc, hmagic⟩

/-- A path without an opening bracket describes itself. -/
theorem describesItself_of_no_bracket (h : '[' ∉ path) : DescribesItself path :=
  fun _ hname _ => Glob.matchesName_self fun hc => h (mem_of_mem_names hname hc)

/-! ## A pattern that describes itself -/

/-- If a row of names leads anywhere from a directory, so does every beginning of it, to a directory
if the row goes on. -/
theorem exists_of_below (h : tree.exists? (Path.below base row) = true) :
    ∃ entry, tree.at? base = some entry ∧ (row ≠ [] → entry.isDirectory = true) := by
  induction row generalizing base with
  | nil =>
    obtain ⟨entry, hentry⟩ := FileTree.exists?_iff.1 h
    exact ⟨entry, hentry, fun hne => absurd rfl hne⟩
  | cons name rest ih =>
    obtain ⟨child, hchild, -⟩ := ih h
    obtain ⟨entries, hentries⟩ := FileTree.hasDirectory_iff.1 (FileTree.hasDirectory_of_join hchild)
    exact ⟨_, hentries, fun _ => rfl⟩

/-- A name of a pattern that describes itself finds itself, if it is there. -/
theorem mem_segmentNames_self (h : tree.WellNamed) (hstep : IsStep segment)
    (hself : Glob.isMagic segment = true → Glob.matchesName segment segment = true)
    (hfound : ∃ entry, tree.at? (Path.join base segment) = some entry ∧
      (only = true → entry.isDirectory = true)) :
    segment ∈ Glob.segmentNames edition tree recursive only segment base := by
  rw [Glob.segmentNames]
  by_cases hmagic : Glob.isMagic segment = true
  · have hproper := Glob.isProper_of_isMagic hmagic hstep.2
    rw [hmagic, Bool.not_true, if_neg Bool.false_ne_true]
    split
    · next hdeep =>
      rw [Bool.and_eq_true, decide_eq_true_eq] at hdeep
      refine (Glob.mem_deepNames_iff h).2 (.inr ⟨[segment], by simp, ?_, hfound, rfl⟩)
      have hvisible : Path.isHidden segment = false := by
        rw [hdeep.2]
        rfl
      simpa using ⟨hproper, hvisible⟩
    · refine (Glob.mem_wildcardNames_iff h).2 ⟨⟨hproper, hfound⟩, ?_⟩
      rw [hself hmagic]
      cases Path.isHidden segment <;> rfl
  · obtain ⟨entry, hentry, -⟩ := hfound
    rw [if_pos (by simpa using hmagic), Glob.mem_plainNames_iff]
    exact ⟨rfl, FileTree.exists?_iff.2 ⟨entry, hentry⟩⟩

/-- Names of a pattern that describe themselves find the row of them. -/
theorem mem_expandSegments_below (h : tree.WellNamed)
    (hsegments : ∀ segment ∈ segments, IsStep segment ∧
      (Glob.isMagic segment = true → Glob.matchesName segment segment = true))
    (hfound : tree.exists? (Path.below base segments) = true) :
    Path.below base segments ∈ Glob.expandSegments edition tree recursive segments [base] := by
  induction segments generalizing base with
  | nil => exact List.mem_singleton_self base
  | cons segment rest ih =>
    obtain ⟨⟨hstep, hself⟩, hrest⟩ := List.forall_mem_cons.1 hsegments
    have hbelow : tree.exists? (Path.below (Path.join base segment) rest) = true := hfound
    obtain ⟨entry, hentry, hdirectory⟩ := exists_of_below hbelow
    refine Glob.mem_expandSegments_cons.2 ⟨segment, ?_, ih hrest hfound⟩
    refine mem_segmentNames_self h hstep hself ⟨entry, hentry, fun honly => hdirectory ?_⟩
    simpa using honly

/-! ## A pattern that finds its own text -/

/-- What a name of a pattern describes: what matches it if it is a wildcard, otherwise itself. -/
def Describes (segment name : Name) : Prop :=
  if Glob.isMagic segment then Glob.matchesName segment name = true else name = segment

/-- Without recursion a pattern finds one name for each of its own. -/
theorem describes_of_mem_expandSegments (h : tree.WellNamed)
    (hsegments : ∀ segment ∈ segments, IsStep segment)
    (hpath : path ∈ Glob.expandSegments edition tree false segments [base]) :
    ∃ row, List.Forall₂ Describes segments row ∧ Path.steps path = Path.steps base ++ row := by
  induction segments generalizing base with
  | nil =>
    obtain rfl := List.mem_singleton.1 hpath
    exact ⟨[], .nil, (List.append_nil _).symm⟩
  | cons segment rest ih =>
    obtain ⟨name, hname, hpath⟩ := Glob.mem_expandSegments_cons.1 hpath
    obtain ⟨hstep, hrest⟩ := List.forall_mem_cons.1 hsegments
    obtain ⟨row, hrow, hsteps⟩ := ih hrest hpath
    obtain ⟨hdescribes, hstep⟩ : Describes segment name ∧ IsStep name := by
      rw [Glob.segmentNames] at hname
      by_cases hmagic : Glob.isMagic segment = true
      · simp only [hmagic, Bool.not_true, Bool.false_and, Bool.false_eq_true, if_false] at hname
        obtain ⟨⟨hproper, -⟩, hmatch⟩ := (Glob.mem_wildcardNames_iff h).1 hname
        rw [Bool.and_eq_true] at hmatch
        rw [Describes, if_pos hmagic]
        exact ⟨hmatch.2, hproper.1⟩
      · rw [if_pos (by simpa using hmagic)] at hname
        obtain ⟨rfl, -⟩ := Glob.mem_plainNames_iff.1 hname
        rw [Describes, if_neg hmagic]
        exact ⟨rfl, hstep⟩
    refine ⟨name :: row, .cons hdescribes hrow, ?_⟩
    rw [hsteps, Path.steps_join, hstep.steps_eq, List.append_assoc, List.singleton_append]

/-! ## Both together -/

/-- The parts of an argument with a wildcard and without two slashes in a row. -/
theorem exists_segments (hmagic : Glob.isMagic argument = true)
    (hsteps : Path.names argument = Path.steps argument)
    (hempty : [] ∉ (Path.names argument).tail) :
    ∃ base segments, Path.below base segments = argument ∧
      Path.steps argument = Path.steps base ++ segments ∧
      (∀ segment ∈ segments, IsStep segment ∧ segment ∈ Path.names argument) ∧
      (∀ name ∈ Path.names argument, Glob.isMagic name = true → name ∈ segments) ∧
      ∀ edition tree recursive, Glob.expand edition tree recursive argument =
        Glob.expandSegments edition tree recursive segments [base] := by
  obtain ⟨front, rest, hjoin, hfront, hplain, hnil, ⟨first, others, hfirst, hwild⟩, hexpand⟩ :=
    Glob.exists_expand_eq hmagic
  have hnames : Path.names argument = Path.steps front ++ Path.names rest := by
    rw [hjoin, Path.names_join]
  have hrest : Path.names rest = Path.steps rest := by
    rw [hnames, hjoin, Path.steps_join] at hsteps
    exact List.append_cancel_left hsteps
  rw [hsteps, hjoin] at hempty
  obtain ⟨hstart, hnone⟩ := Glob.no_empty_of_join hfront hfirst hwild hempty
  have hsegments : Glob.Pattern.segmentsOf rest = Path.names rest :=
    Glob.segmentsOf_eq_names hnil fun name hname heq => hnone (heq ▸ hname)
  have hbase := Glob.steps_dropTrailingSlashes hfront hstart
  have hstep : ∀ segment ∈ Path.names rest, IsStep segment := fun segment hsegment =>
    ⟨fun heq => hnone (hrest ▸ heq ▸ hsegment), Path.no_slash_of_mem_names hsegment⟩
  refine ⟨Path.dropTrailingSlashes front, Path.names rest, Path.names_inj ?_, ?_,
    fun segment hsegment => ⟨hstep segment hsegment, ?_⟩, fun name hname hmagic => ?_,
    fun edition tree recursive => ?_⟩
  · rw [Path.names_below _ (Path.names_ne_nil rest) hstep, hbase, hnames]
  · rw [← hsteps, hbase, hnames]
  · exact hnames ▸ List.mem_append_right _ hsegment
  · rcases List.mem_append.1 (hnames ▸ hname) with hname | hname
    · have hfound := isMagic_of_mem_names (Path.mem_names_of_mem_steps hname) hmagic
      exact absurd (hfound.symm.trans hplain) (by decide)
    · exact hname
  · rw [hexpand, hsegments]

/-- A path to a file does not end in a slash. -/
theorem lastName_ne_nil (h : tree.hasFile path = true) : Path.lastName path ≠ [] := by
  have hnames := FileTree.names_eq_steps h
  rcases Path.spelling_cases path with rfl | ⟨front, rfl⟩ | ⟨hnil, hlast, -⟩
  · cases hnames
  · rw [Path.names_append_singleton_slash, Path.steps_append_singleton_slash] at hnames
    simp at hnames
  · obtain ⟨front, c, rfl⟩ := (List.eq_nil_or_concat' path).resolve_left hnil
    have hc : c ≠ '/' := by simpa using hlast
    simp [Path.lastName, hc]

/-- A file without wildcards in its path is found under it. -/
theorem mem_expand_of_plain (hplain : Glob.isMagic path = false)
    (hfile : tree.hasFile path = true) :
    path ∈ Glob.expand edition tree recursive path := by
  have hfound : Glob.plainPathExists tree path = true := by
    rw [Glob.plainPathExists, if_neg (lastName_ne_nil hfile)]
    exact FileTree.exists?_of_hasFile hfile
  rw [Glob.expand_of_plain hplain, if_pos hfound]
  exact List.mem_singleton_self path

theorem mem_expand_self (h : tree.WellNamed) (hfile : tree.hasFile argument = true)
    (hempty : Glob.isMagic argument = true → [] ∉ (Path.names argument).tail)
    (hself : DescribesItself argument) :
    argument ∈ Glob.expand edition tree recursive argument := by
  by_cases hmagic : Glob.isMagic argument = true
  · obtain ⟨base, segments, hbelow, -, hsegments, -, hexpand⟩ :=
      exists_segments hmagic (FileTree.names_eq_steps hfile) (hempty hmagic)
    have hfound : tree.exists? (Path.below base segments) = true :=
      hbelow ▸ FileTree.exists?_of_hasFile hfile
    have hmem : Path.below base segments ∈
        Glob.expandSegments edition tree recursive segments [base] := by
      refine mem_expandSegments_below h (fun segment hsegment => ?_) hfound
      exact ⟨(hsegments segment hsegment).1, hself segment (hsegments segment hsegment).2⟩
    rw [hbelow] at hmem
    rw [hexpand]
    exact hmem
  · exact mem_expand_of_plain (by simpa using hmagic) hfile

theorem describesItself_of_mem_expand (h : tree.WellNamed) (hfile : tree.hasFile argument = true)
    (hempty : Glob.isMagic argument = true → [] ∉ (Path.names argument).tail)
    (hfound : argument ∈ Glob.expand edition tree false argument) : DescribesItself argument := by
  intro name hname hmagic
  have hargument := isMagic_of_mem_names hname hmagic
  obtain ⟨base, segments, -, hsteps, hsegments, hmem, hexpand⟩ :=
    exists_segments hargument (FileTree.names_eq_steps hfile) (hempty hargument)
  rw [hexpand] at hfound
  obtain ⟨row, hrow, heq⟩ := describes_of_mem_expandSegments h
    (fun segment hsegment => (hsegments segment hsegment).1) hfound
  -- the argument is its own result, so each of its names describes the one in its place: itself
  obtain rfl := List.append_cancel_left (hsteps.symm.trans heq)
  have hself := List.forall₂_same.1 hrow name (hmem name hname hmagic)
  rwa [Describes, if_pos hmagic] at hself

/-- Let an argument stand for a path that leads to a file, and let this not have both a wildcard and
two slashes in a row.  If its wildcards describe themselves, which all do if there is no opening
bracket, then every search with this argument finds the file under it unless it is left out.
Without recursion the argument does not find it otherwise. -/
theorem named_file_found (h : tree.WellNamed) (search : Search) {argument : String}
    (hfile : tree.hasFile (search.fullPath argument).toList = true)
    (hempty : Glob.isMagic (search.fullPath argument).toList = true →
      [] ∉ (Path.names (search.fullPath argument).toList).tail) :
    ('[' ∉ (search.fullPath argument).toList →
      DescribesItself (search.fullPath argument).toList) ∧
    (DescribesItself (search.fullPath argument).toList → argument ∈ search.paths →
      (∀ exclude ∈ search.excludes, search.fullPath argument ∉ search.leftOut tree exclude) →
        search.fullPath argument ∈ search.files tree) ∧
    (search.fullPath argument ∈ (search.flat.alone argument).files tree →
      DescribesItself (search.fullPath argument).toList) := by
  have hnot := FileTree.hasDirectory_of_hasFile hfile
  refine ⟨describesItself_of_no_bracket, fun hself hargument hkept => ?_, fun hfound => ?_⟩
  · refine mem_files_iff.2 ⟨⟨argument, hargument, mem_files_alone.2 ?_⟩, hkept⟩
    rw [selected, selectedBy_of_not_directory hnot]
    exact mem_expand_self h hfile hempty hself
  · have hfound : (search.fullPath argument).toList ∈
        selectedBy search.edition tree false (search.fullPath argument).toList :=
      mem_files_alone.1 hfound
    rw [selectedBy_of_not_directory hnot] at hfound
    exact describesItself_of_mem_expand h hfile hempty hfound

/-- Files with wildcards in their names. -/
def wildTree : FileTree :=
  treeOfFiles ["home/[a].json", "home/a.json", "home/*[a]*", "home/x*/b?.json"]

theorem wildTree_wellNamed : wildTree.WellNamed := wellNamed_treeOfFiles (by decide)

/-- Two files that are named, and one that is left out. -/
def wildSearch : Search where
  root := "/home"
  paths := ["*[a]*", "x*/b?.json"]
  excludes := ["a.json"]
  recursive := false
  edition := .newer

theorem wildSearch_finds :
    (wildTree.hasFile "/home/*[a]*".toList = true ∧ [] ∉ (Path.names "/home/*[a]*".toList).tail ∧
      DescribesItself "/home/*[a]*".toList ∧ "/home/*[a]*" ∈ wildSearch.files wildTree) ∧
    (wildTree.hasFile "/home/x*/b?.json".toList = true ∧ '[' ∉ "/home/x*/b?.json".toList ∧
      "/home/x*/b?.json" ∈ wildSearch.files wildTree) ∧
    (wildTree.hasFile "/home/[a].json".toList = true ∧
      ¬ DescribesItself "/home/[a].json".toList ∧
      "/home/[a].json" ∉ (wildSearch.flat.alone "[a].json").files wildTree) := by
  have hset : wildTree.hasFile "/home/*[a]*".toList = true := by decide
  have hstar : wildTree.hasFile "/home/x*/b?.json".toList = true := by decide
  have hlost : wildTree.hasFile "/home/[a].json".toList = true := by decide
  have hself : DescribesItself "/home/*[a]*".toList := by decide
  have hnot : ¬ DescribesItself "/home/[a].json".toList := by decide
  have hempty : [] ∉ (Path.names "/home/*[a]*".toList).tail := by decide
  have hplain : '[' ∉ "/home/x*/b?.json".toList := by decide
  have hsetPath : wildSearch.fullPath "*[a]*" = "/home/*[a]*" := by decide
  have hstarPath : wildSearch.fullPath "x*/b?.json" = "/home/x*/b?.json" := by decide
  have hlostPath : wildSearch.fullPath "[a].json" = "/home/[a].json" := by decide
  obtain ⟨-, hfound, -⟩ :=
    named_file_found wildTree_wellNamed wildSearch (hsetPath ▸ hset) fun _ => hsetPath ▸ hempty
  obtain ⟨hstarSelf, hstarFound, -⟩ :=
    named_file_found wildTree_wellNamed wildSearch (hstarPath ▸ hstar) fun _ => by decide
  obtain ⟨-, -, hlostSelf⟩ :=
    named_file_found wildTree_wellNamed wildSearch (hlostPath ▸ hlost) fun _ => by decide
  rw [hsetPath] at hfound
  rw [hstarPath] at hstarSelf hstarFound
  rw [hlostPath] at hlostSelf
  refine ⟨⟨hset, hempty, hself, hfound hself (by decide) (by decide +kernel)⟩,
    ⟨hstar, hplain, hstarFound (hstarSelf hplain) (by decide) (by decide +kernel)⟩,
    hlost, hnot, fun hmem => hnot (hlostSelf hmem)⟩

/-- A file with a set in its name is not found under its own path. -/
theorem bracketed_file_is_lost :
    ¬ ∀ (tree : FileTree) (search : Search) (argument : String), tree.WellNamed →
      argument ∈ search.paths → tree.hasFile (search.fullPath argument).toList = true →
        (∀ exclude ∈ search.excludes, search.fullPath argument ∉ search.leftOut tree exclude) →
          search.fullPath argument ∈ search.files tree := by
  intro h
  have hwell : (treeOfFiles ["home/[a].json"]).WellNamed := wellNamed_treeOfFiles (by decide)
  have hfound := h (treeOfFiles ["home/[a].json"])
    { root := "/home", paths := ["[a].json"], excludes := [], recursive := false,
      edition := .newer } "[a].json" hwell (by decide) (by decide) nofun
  revert hfound
  decide

end NativeHeader.Search
