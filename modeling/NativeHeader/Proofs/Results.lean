import NativeHeader.CommandLine
import NativeHeader.Proofs.Selecting

/-!
# What the results of a search lead to

The results of a search are whole paths, as the one of the directory is in which it begins
(`head?_of_mem_files`), so they can be read wherever the program runs.  A path that a directory
selects leads to a schema file, and so does a path without wildcards to a file.  A pattern does not
ask what it finds: it may be a directory (`directory_is_found`).  And in the older edition `**` at
its end also finds the place where it stands, with a slash at the end, whether or not anything is
there.  So every result can be read as a file, or it is one of these two and comes from a pattern
(`results_can_be_read`).
-/

namespace NativeHeader

open NativeHeader.Path (Name IsStep IsProper)
open NativeHeader.FileTree (WellNamed)

/-! ## Whole paths -/

section Head

variable {edition : Edition} {tree : FileTree} {recursive : Bool} {base path argument : List Char}
  {row segments : List Name}

theorem Path.head?_join (hne : base ≠ []) (name : Name) : (join base name).head? = base.head? := by
  obtain ⟨c, rest, rfl⟩ := List.exists_cons_of_ne_nil hne
  unfold join
  rw [if_neg hne]
  split <;> rfl

theorem Path.join_ne_nil (hne : base ≠ []) (name : Name) : join base name ≠ [] := by
  intro hnil
  have hhead := head?_join hne name
  rw [hnil] at hhead
  exact hne (List.head?_eq_none_iff.1 hhead.symm)

theorem Path.head?_below (hne : base ≠ []) (row : List Name) :
    (below base row).head? = base.head? := by
  induction row generalizing base with
  | nil => rfl
  | cons name rest ih => rw [below_cons, ih (join_ne_nil hne name), head?_join hne]

theorem Path.head?_dropTrailingSlashes (path : List Char) :
    (dropTrailingSlashes path).head? = path.head? := by
  rw [dropTrailingSlashes]
  split
  · rfl
  · next hne =>
    have hsplit : trimSlashes path ++ (path.reverse.takeWhile (· = '/')).reverse = path := by
      rw [trimSlashes, ← List.reverse_append, List.takeWhile_append_dropWhile, List.reverse_reverse]
    conv_rhs => rw [← hsplit]
    rw [List.head?_append_of_ne_nil _ hne]

theorem Glob.head?_of_mem_expandSegments (hne : base ≠ [])
    (hpath : path ∈ expandSegments edition tree recursive segments [base]) :
    path.head? = base.head? := by
  induction segments generalizing base with
  | nil => rw [List.mem_singleton.1 hpath]
  | cons segment rest ih =>
    obtain ⟨name, -, hpath⟩ := mem_expandSegments_cons.1 hpath
    rw [ih (Path.join_ne_nil hne name) hpath, Path.head?_join hne]

/-- A pattern that begins with a slash finds paths that do. -/
theorem Glob.head?_of_mem_expand (hhead : argument.head? = some '/')
    (hpath : path ∈ expand edition tree recursive argument) : path.head? = some '/' := by
  by_cases hmagic : isMagic argument = true
  · obtain ⟨front, rest, rfl, hfront, -, hnil, ⟨first, others, hfirst, hwild⟩, hexpand⟩ :=
      exists_expand_eq hmagic
    have hne : front ≠ [] := by
      rintro rfl
      obtain ⟨more, rfl⟩ := List.head?_eq_some_iff.1 hhead
      rw [Path.steps_slash, List.cons.injEq] at hfirst
      rw [← hfirst.1] at hwild
      cases hwild
    rw [Path.head?_join hne] at hhead
    have hbase : (Path.dropTrailingSlashes front).head? = some '/' :=
      (Path.head?_dropTrailingSlashes front).trans hhead
    rw [hexpand] at hpath
    rw [head?_of_mem_expandSegments (fun hempty => by simp [hempty] at hbase) hpath, hbase]
  · rw [expand_of_plain (by simpa using hmagic)] at hpath
    split at hpath
    · rw [List.mem_singleton.1 hpath, hhead]
    · cases hpath

theorem Search.head?_of_mem_selectedBy (h : tree.WellNamed) (hhead : argument.head? = some '/')
    (hpath : path ∈ selectedBy edition tree recursive argument) : path.head? = some '/' := by
  by_cases hdirectory : tree.hasDirectory argument = true
  · obtain ⟨row, name, -, -, -, rfl, -⟩ := (mem_selectedBy_directory h hdirectory).1 hpath
    rw [Path.head?_below (fun hempty => by simp [hempty] at hhead), hhead]
  · rw [selectedBy_of_not_directory (by simpa using hdirectory)] at hpath
    exact Glob.head?_of_mem_expand hhead hpath

/-- A search that begins in a whole path has whole paths as results. -/
theorem Search.head?_of_mem_files {search : Search} {path : String} (h : tree.WellNamed)
    (hroot : search.root.toList.head? = some '/') (hpath : path ∈ search.files tree) :
    path.toList.head? = some '/' := by
  obtain ⟨⟨argument, -, hselected⟩, -⟩ := mem_files_iff.1 hpath
  refine head?_of_mem_selectedBy h ?_ (mem_files_alone.1 hselected)
  rw [toList_fullPath, Path.resolve]
  split
  · assumption
  · rw [Path.head?_join (fun hempty => by simp [hempty] at hroot), hroot]

end Head

/-! ## Reading a result -/

namespace Workspace

variable {w : Workspace} {path : String}

theorem head?_path (w : Workspace) : w.path.toList.head? = some '/' := by
  rw [Workspace.path, String.toList_ofList]
  rfl

/-- A whole path is used as it is. -/
theorem find_of_head? (w : Workspace) (h : path.toList.head? = some '/') :
    w.find path = w.files.find path.toList := by
  have hne : path.isEmpty = false := by
    rw [String.isEmpty_eq_false_iff]
    rintro rfl
    cases h
  rw [find, hne, Path.resolve, if_pos h]
  rfl

theorem find_eq_ok {found : FileTree} (h : path.toList.head? = some '/')
    (hfound : w.files.at? path.toList = some found) : w.find path = .ok found := by
  rw [find_of_head? w h]
  rw [FileTree.at?] at hfound
  cases hfind : w.files.find path.toList with
  | error fault => simp [hfind, Except.toOption] at hfound
  | ok place => simpa [hfind, Except.toOption] using hfound

theorem read_of_hasFile (h : path.toList.head? = some '/')
    (hfile : w.files.hasFile path.toList = true) : ∃ content, w.read path = .ok content := by
  obtain ⟨content, hcontent⟩ := FileTree.hasFile_iff.1 hfile
  exact ⟨content, by rw [read, find_eq_ok h hcontent]; rfl⟩

theorem read_of_hasDirectory (h : path.toList.head? = some '/')
    (hdirectory : w.files.hasDirectory path.toList = true) :
    w.read path = .error .directoryAtPath := by
  obtain ⟨entries, hentries⟩ := FileTree.hasDirectory_iff.1 hdirectory
  rw [read, find_eq_ok h hentries]
  rfl

end Workspace

namespace Search

variable {edition : Edition} {tree : FileTree} {recursive : Bool} {base path argument : List Char}
  {segments : List Name}

/-! ## Results of patterns -/

/-- Whether a path is a place where `**` stands: it is spelled with a slash at the end, unless it is
empty. -/
def IsPlace (path : List Char) : Prop := path = [] ∨ path.getLast? = some '/'

theorem isPlace_join_nil (base : List Char) : IsPlace (Path.join base []) := by
  unfold Path.join
  split
  · exact .inl rfl
  · split
    · next hlast => exact .inr (by simpa using hlast)
    · exact .inr (by simp)

/-- What the names of a pattern find is there, or it is the place of a `**` at the end, which the
older edition does not look at. -/
theorem exists_of_mem_expandSegments (h : tree.WellNamed) (hne : segments ≠ [])
    (hpath : path ∈ Glob.expandSegments edition tree recursive segments [base]) :
    tree.exists? path = true ∨
      edition = .older ∧ recursive = true ∧ segments.getLast? = some Glob.anyDepth ∧
        IsPlace path := by
  induction segments generalizing base with
  | nil => exact absurd rfl hne
  | cons segment rest ih =>
    obtain ⟨name, hname, hpath⟩ := Glob.mem_expandSegments_cons.1 hpath
    cases rest with
    | cons second more =>
      rw [List.getLast?_cons_cons]
      exact ih (List.cons_ne_nil second more) hpath
    | nil =>
      obtain rfl := List.mem_singleton.1 hpath
      rcases Glob.segmentNames_cases h hname with ⟨rfl, -, hfound⟩ |
        ⟨rfl, hrecursive, rfl, hplace⟩ | ⟨-, -, -, -, hfound⟩
      · exact .inl hfound
      · cases edition with
        | older => exact .inr ⟨rfl, hrecursive, rfl, isPlace_join_nil base⟩
        | newer =>
          have hthere := hplace rfl
          obtain ⟨entries, hentries⟩ := FileTree.hasDirectory_iff.1 hthere
          refine .inl (FileTree.exists?_iff.2 ⟨_, (FileTree.at?_join_nil hthere).trans hentries⟩)
      · exact .inl hfound

/-- The last name that is looked for is the last name of the text. -/
theorem getLast?_of_segmentsOf {text : List Char} {name : Name} (hnil : text ≠ [])
    (hname : name ≠ []) (h : (Glob.Pattern.segmentsOf text).getLast? = some name) :
    (Path.names text).getLast? = some name := by
  unfold Glob.Pattern.segmentsOf at h
  dsimp only at h
  split at h
  · rw [List.getLast?_concat, Option.some.injEq] at h
    exact absurd h.symm hname
  · next hlast =>
    have hend := Path.getLast?_names_ne hnil hlast
    obtain ⟨row, last, hrow⟩ :=
      (List.eq_nil_or_concat' (Path.names text)).resolve_left (Path.names_ne_nil text)
    rw [hrow, List.getLast?_concat] at hend ⊢
    have hkept : last ≠ [] := fun heq => hend (congrArg some heq)
    rw [hrow, List.filter_append] at h
    simpa [hkept] using h

/-- What a pattern finds is there, or it is the place of a `**` at the end. -/
theorem exists_of_mem_expand (h : tree.WellNamed) (hmagic : Glob.isMagic argument = true)
    (hpath : path ∈ Glob.expand edition tree recursive argument) :
    tree.exists? path = true ∨
      edition = .older ∧ recursive = true ∧
        (Path.names argument).getLast? = some Glob.anyDepth ∧ IsPlace path := by
  obtain ⟨front, rest, rfl, -, -, hnil, ⟨first, others, hsteps, hfirst⟩, hexpand⟩ :=
    Glob.exists_expand_eq hmagic
  rw [hexpand] at hpath
  refine (exists_of_mem_expandSegments h (Glob.segmentsOf_ne_nil hsteps hfirst) hpath).imp_right ?_
  rintro ⟨holder, hrecursive, hlast, hplace⟩
  have hnames := getLast?_of_segmentsOf hnil (by decide) hlast
  refine ⟨holder, hrecursive, ?_, hplace⟩
  rw [Path.names_join, List.getLast?_append, hnames]
  rfl

/-! ## Results of paths -/

/-- A path without wildcards that does not lead to a directory selects a file, if anything. -/
theorem hasFile_of_mem_expand (hplain : Glob.isMagic argument = false)
    (hnot : tree.hasDirectory argument = false)
    (hpath : path ∈ Glob.expand edition tree recursive argument) : tree.hasFile path = true := by
  rw [Glob.expand_of_plain hplain] at hpath
  split at hpath
  · next hfound =>
    obtain rfl := List.mem_singleton.1 hpath
    rw [Glob.plainPathExists] at hfound
    split at hfound
    · -- a slash at the end asks for a directory, so the argument would lead to one
      next hlast =>
      have hparts := Path.throughLastSlash_append_lastName path
      rw [hlast, List.append_nil] at hparts
      rw [Path.parent, hparts] at hfound
      have hdirectory := FileTree.hasDirectory_of_dropTrailingSlashes hfound
      exact absurd (hdirectory.symm.trans hnot) (by decide)
    · rw [FileTree.hasDirectory] at hnot
      rw [FileTree.exists?] at hfound
      rw [FileTree.hasFile]
      rcases hplace : tree.at? path with _ | ⟨content⟩ | ⟨entries⟩
      · simp [hplace] at hfound
      · rfl
      · simp [hplace, FileTree.isDirectory] at hnot
  · cases hpath

/-- What a directory selects has the name of a schema file. -/
theorem isSchemaName_of_mem_selectedBy (h : tree.WellNamed) (hbase : tree.hasDirectory base = true)
    (hpath : path ∈ selectedBy edition tree recursive base) : isSchemaName path = true := by
  obtain ⟨row, name, -, hproper, hschema, rfl, -⟩ := (mem_selectedBy_directory h hbase).1 hpath
  have hnames := Path.names_below base (by simp : row ++ [name] ≠ []) fun other hother =>
    (hproper other hother).1
  rw [← List.append_assoc] at hnames
  rw [isSchemaName_eq hnames]
  exact hschema

end Search

/-! ## All results -/

namespace CommandLine

open Search (IsPlace isSchemaName selectedBy)

/-- Every result of a search for schema files is selected by some argument.  It has the name of a
schema file if that argument leads to a directory.  It can be read as a file, unless the argument
stands for a pattern and the result leads to a directory or, in the older edition only, the search
is recursive and the result is the place of a `**` at the end of the pattern, where nothing is. -/
theorem results_can_be_read (w : Workspace) (h : w.files.WellNamed) (a : Arguments) :
    ∀ path ∈ (search w a).files w.files,
      (∃ argument ∈ a.paths, path ∈ ((search w a).alone argument).files w.files) ∧
      ∀ argument ∈ a.paths, path ∈ ((search w a).alone argument).files w.files →
        (w.files.hasDirectory ((search w a).fullPath argument).toList = true →
          isSchemaName path.toList = true) ∧
        ((∃ content, w.read path = .ok content) ∨
          w.files.hasDirectory ((search w a).fullPath argument).toList = false ∧
            Glob.isMagic ((search w a).fullPath argument).toList = true ∧
            (w.read path = .error .directoryAtPath ∨
              w.edition = .older ∧ a.recursive = true ∧
                (Path.names ((search w a).fullPath argument).toList).getLast? =
                  some Glob.anyDepth ∧
                IsPlace path.toList ∧ w.files.exists? path.toList = false)) := by
  intro path hpath
  have hroot : (search w a).root.toList.head? = some '/' := w.head?_path
  have hhead : path.toList.head? = some '/' := Search.head?_of_mem_files h hroot hpath
  refine ⟨(Search.mem_files_iff.1 hpath).1, fun argument _ hselected => ?_⟩
  have hselected : path.toList ∈ selectedBy w.edition w.files a.recursive
      ((search w a).fullPath argument).toList := Search.mem_files_alone.1 hselected
  generalize (search w a).fullPath argument = full at hselected ⊢
  by_cases hdirectory : w.files.hasDirectory full.toList = true
  · obtain ⟨-, -, -, -, -, -, hfile⟩ := (Search.mem_selectedBy_directory h hdirectory).1 hselected
    refine ⟨fun _ => ?_, .inl (Workspace.read_of_hasFile hhead hfile)⟩
    exact Search.isSchemaName_of_mem_selectedBy h hdirectory hselected
  · refine ⟨fun htrue => absurd htrue hdirectory, ?_⟩
    have hnot : w.files.hasDirectory full.toList = false := by simpa using hdirectory
    rw [Search.selectedBy_of_not_directory hnot] at hselected
    by_cases hmagic : Glob.isMagic full.toList = true
    · rcases hplace : w.files.at? path.toList with _ | ⟨content⟩ | ⟨entries⟩
      · have hnone : w.files.exists? path.toList = false := by
          rw [FileTree.exists?, hplace]
          rfl
        rcases Search.exists_of_mem_expand h hmagic hselected with
          hfound | ⟨holder, hrecursive, hlast, hat⟩
        · exact absurd (hfound.symm.trans hnone) (by decide)
        · exact .inr ⟨hnot, hmagic, .inr ⟨holder, hrecursive, hlast, hat, hnone⟩⟩
      · exact .inl (Workspace.read_of_hasFile hhead (FileTree.hasFile_iff.2 ⟨content, hplace⟩))
      · have hdirectory := FileTree.hasDirectory_iff.2 ⟨entries, hplace⟩
        exact .inr ⟨hnot, hmagic, .inl (Workspace.read_of_hasDirectory hhead hdirectory)⟩
    · have hplain : Glob.isMagic full.toList = false := by simpa using hmagic
      have hfile := Search.hasFile_of_mem_expand hplain hnot hselected
      exact .inl (Workspace.read_of_hasFile hhead hfile)

/-- A directory that holds a schema file and a directory with the name of one. -/
def mixedWorkspace (edition : Edition) : Workspace where
  home := ["home".toList]
  files := Search.treeOfFiles ["home/a.json", "home/b.json/c.txt"]
  edition := edition

theorem mixedWorkspace_wellNamed (edition : Edition) : (mixedWorkspace edition).files.WellNamed :=
  Search.wellNamed_treeOfFiles (by decide)

/-- Two patterns, one for a place that is not there, and a path. -/
def mixedArguments : Arguments where
  paths := ["*.json", "gone/**", "a.json"]
  recursive := true

theorem mixedArguments_results_read :
    ((search (mixedWorkspace .newer) mixedArguments).files (mixedWorkspace .newer).files =
        ["/home/a.json", "/home/b.json"] ∧
      (∃ content, (mixedWorkspace .newer).read "/home/a.json" = .ok content) ∧
      Glob.isMagic "/home/*.json".toList = true ∧
      (mixedWorkspace .newer).read "/home/b.json" = .error .directoryAtPath) ∧
    ((search (mixedWorkspace .older) mixedArguments).files (mixedWorkspace .older).files =
        ["/home/a.json", "/home/b.json", "/home/gone/"] ∧
      Glob.isMagic "/home/gone/**".toList = true ∧ IsPlace "/home/gone/".toList ∧
      (mixedWorkspace .older).files.exists? "/home/gone/".toList = false) := by
  have hnewer : (search (mixedWorkspace .newer) mixedArguments).files
      (mixedWorkspace .newer).files = ["/home/a.json", "/home/b.json"] := by
    decide +kernel
  have holder : (search (mixedWorkspace .older) mixedArguments).files
      (mixedWorkspace .older).files = ["/home/a.json", "/home/b.json", "/home/gone/"] := by
    decide +kernel
  have hresultsNewer := results_can_be_read _ (mixedWorkspace_wellNamed .newer) mixedArguments
  have hresultsOlder := results_can_be_read _ (mixedWorkspace_wellNamed .older) mixedArguments
  rw [hnewer] at hresultsNewer
  rw [holder] at hresultsOlder
  have hplain : Glob.isMagic "/home/a.json".toList = false := by decide
  have hdirectory : (mixedWorkspace .newer).files.hasDirectory "/home/b.json".toList = true := by
    decide
  have hstar : (search (mixedWorkspace .newer) mixedArguments).fullPath "*.json" =
      "/home/*.json" := by decide
  have hdeep : (search (mixedWorkspace .older) mixedArguments).fullPath "gone/**" =
      "/home/gone/**" := by decide
  have hgone : (mixedWorkspace .older).find "/home/gone/" = .error .nothingAtPath := by rfl
  refine ⟨⟨hnewer, ?_, ?_⟩, holder, ?_⟩
  · obtain ⟨-, hread⟩ :=
      (hresultsNewer "/home/a.json" (by decide)).2 "a.json" (by decide) (by decide +kernel)
    rcases hread with hread | ⟨-, hmagic, -⟩
    · exact hread
    · exact absurd (hmagic.symm.trans hplain) (by decide)
  · obtain ⟨-, hread⟩ :=
      (hresultsNewer "/home/b.json" (by decide)).2 "*.json" (by decide) (by decide +kernel)
    rcases hread with ⟨content, hread⟩ | ⟨-, hmagic, hread | ⟨hfalse, -⟩⟩
    · rw [Workspace.read_of_hasDirectory (by decide) hdirectory] at hread
      cases hread
    · exact ⟨hstar ▸ hmagic, hread⟩
    · cases hfalse
  · obtain ⟨-, hread⟩ :=
      (hresultsOlder "/home/gone/" (by decide)).2 "gone/**" (by decide) (by decide +kernel)
    rcases hread with ⟨content, hread⟩ | ⟨-, hmagic, hread | ⟨-, -, -, hplace, hnone⟩⟩
    · rw [Workspace.read, hgone] at hread
      cases hread
    · rw [Workspace.read, hgone] at hread
      cases hread
    · exact ⟨hdeep ▸ hmagic, hplace, hnone⟩

end CommandLine

/-- A pattern also finds directories. -/
theorem Search.directory_is_found :
    ¬ ∀ (tree : FileTree) (search : Search) (path : String), tree.WellNamed →
      path ∈ search.files tree → tree.hasFile path.toList = true := by
  intro h
  have hfile := h (treeOfFiles ["home/b.json/c.txt"])
    { root := "/home", paths := ["*.json"], excludes := [], recursive := false,
      edition := .newer } "/home/b.json" (wellNamed_treeOfFiles (by decide)) (by decide)
  revert hfile
  decide

end NativeHeader
