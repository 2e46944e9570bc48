import NativeHeader.Proofs.Recursion
import NativeHeader.Proofs.Selecting

/-!
# Directories as path arguments

A path argument that leads to a directory selects the schema files that lie below it at any depth,
and without recursion those that lie directly in it; it spells each of them by the path that it
stands for, a slash, and the names that lead down to the file (`mem_files_alone_directory`).  Names
count in full: hidden ones are not passed over, and a directory with the name of a schema file is
gone through like any other.

So what a recursive search finds below a subdirectory it finds below the directory as well, in the
same spelling, and what it finds below the directory lies directly in it or in a subdirectory
(`directory_selects_schema_files`).
-/

namespace NativeHeader

open NativeHeader.Path (Name IsStep IsProper)

/-! ## The last name of a path -/

theorem Path.getLast?_names (path : List Char) :
    (names path).getLast? = some (lastName path) := by
  have hname := names_of_no_slash (Glob.no_slash_lastName path)
  have hparts := throughLastSlash_append_lastName path
  rcases Glob.throughLastSlash_cases path with hnone | hslash
  · rw [hnone, List.nil_append] at hparts
    rw [hparts] at hname
    rw [hname, hparts]
    rfl
  · obtain ⟨front, hfront⟩ := List.getLast?_eq_some_iff.1 hslash
    have hnames : names path = names front ++ [lastName path] := by
      rw [← hname, ← names_append_slash, ← List.singleton_append, ← List.append_assoc, ← hfront,
        hparts]
    rw [hnames, List.getLast?_concat]

/-! ## What lies below a directory -/

namespace FileTree

variable {tree place : FileTree} {row : List Name}

mutual

/-- What lies below a directory at any depth, each with the names that lead down to it. -/
def descendants : FileTree → List (List Name × FileTree)
  | file _ => []
  | directory entries => descendantsAmong entries

/-- The entries of a list, and what lies below them. -/
def descendantsAmong : List (Name × FileTree) → List (List Name × FileTree)
  | [] => []
  | (name, entry) :: rest =>
    ([name], entry) :: (descendants entry).map (fun found => (name :: found.1, found.2))
      ++ descendantsAmong rest

end

theorem mem_descendantsAmong {entries : List (Name × FileTree)} {found : List Name × FileTree} :
    found ∈ descendantsAmong entries ↔
      ∃ child ∈ entries, found = ([child.1], child.2) ∨
        ∃ below ∈ descendants child.2, (child.1 :: below.1, below.2) = found := by
  induction entries with
  | nil => simp [descendantsAmong]
  | cons first rest ih =>
    rw [List.exists_mem_cons_iff, ← ih, descendantsAmong, List.mem_append, List.mem_cons,
      List.mem_map]

/-- What lies below a directory is what rows of names lead down to. -/
theorem mem_descendants (h : tree.WellNamed) :
    (row, place) ∈ tree.descendants ↔ row ≠ [] ∧ tree.descend row = some place := by
  induction tree using entries_induction generalizing row with
  | file content =>
    rw [descendants]
    cases row <;> simp [children]
  | directory entries ih =>
    rw [descendants, mem_descendantsAmong]
    constructor
    · rintro ⟨⟨name, child⟩, hchild, hfound⟩
      have hlookup := h.lookup_eq_some_iff.2 hchild
      rcases hfound with hfound | ⟨⟨rest, found⟩, hbelow, hfound⟩
      · cases hfound
        exact ⟨List.cons_ne_nil _ _, by simp [hlookup]⟩
      · cases hfound
        have hrest := (ih _ hchild (h.of_mem_children hchild)).1 hbelow
        exact ⟨List.cons_ne_nil _ _, by simpa [hlookup] using hrest.2⟩
    · rintro ⟨hne, hplace⟩
      obtain ⟨name, rest, rfl⟩ := List.exists_cons_of_ne_nil hne
      obtain ⟨child, hlookup, hplace⟩ := Option.bind_eq_some_iff.1 hplace
      have hchild := mem_of_lookup hlookup
      refine ⟨(name, child), hchild, ?_⟩
      by_cases hrest : rest = []
      · subst hrest
        cases hplace
        exact .inl rfl
      · have hwell := h.of_mem_children hchild
        exact .inr ⟨(rest, place), (ih _ hchild hwell).2 ⟨hrest, hplace⟩, rfl⟩

end FileTree

namespace Search

open FileTree (WellNamed)

variable {search : Search} {edition : Edition} {tree place below : FileTree} {recursive : Bool}
  {base sub path : String}

/-! ## Paths below a directory -/

/-- A path argument that can be followed by a slash and a name: it is not empty and has no slash at
its end. -/
structure IsBase (base : String) : Prop where
  ne_empty : base ≠ ""
  no_slash : base.toList.getLast? ≠ some '/'

theorem IsBase.below_eq (h : IsBase base) {relative : String}
    (hsteps : ∀ name ∈ Path.names relative.toList, IsStep name) :
    Path.below base.toList (Path.names relative.toList) = (base ++ "/" ++ relative).toList := by
  have hnil : base.toList ≠ [] := by simpa using h.ne_empty
  rw [Path.below_eq_append hnil h.no_slash (Path.names_ne_nil _) hsteps, Path.intercalate_names]
  simp

theorem IsBase.fullPath (h : IsBase base) (search : Search) : IsBase (search.fullPath base) :=
  ⟨fullPath_ne_empty h.ne_empty, getLast?_fullPath search h.ne_empty ▸ h.no_slash⟩

/-- A path below an argument stands for one below what the argument stands for. -/
theorem IsBase.fullPath_relative (h : IsBase base) (search : Search) (relative : String) :
    search.fullPath (base ++ "/" ++ relative) = search.fullPath base ++ "/" ++ relative := by
  rw [String.append_assoc, fullPath_append h.ne_empty, ← String.append_assoc]

/-- A relative path is followed downwards from the directory before it. -/
theorem at?_relative (h : tree.WellNamed) (hbase : IsBase base)
    (hplace : tree.at? base.toList = some place) {relative : String} {found : FileTree}
    (hfound : place.descend (Path.names relative.toList) = some found) :
    tree.at? (base ++ "/" ++ relative).toList = some found := by
  have hproper := (h.at? hplace).proper_of_descend hfound
  rw [← hbase.below_eq fun name hname => (hproper name hname).1,
    FileTree.at?_below tree base.toList hproper, hplace]
  exact hfound

/-- A relative path that leads down has no slash at its end. -/
theorem isBase_relative (h : place.WellNamed) {relative : String} {found : FileTree}
    (hfound : place.descend (Path.names relative.toList) = some found) (base : String) :
    IsBase (base ++ "/" ++ relative) := by
  have hproper := h.proper_of_descend hfound
  have hlast : Path.lastName relative.toList ≠ [] :=
    (hproper _ (List.mem_of_getLast? (Path.getLast?_names _))).1.1
  refine ⟨fun hempty => ?_, fun hslash => ?_⟩
  · simpa using congrArg String.toList hempty
  · have hne : relative.toList ≠ [] := by
      intro hnil
      rw [hnil] at hlast
      exact hlast rfl
    rw [String.toList_append, List.getLast?_append_of_ne_nil _ hne] at hslash
    obtain ⟨front, hfront⟩ := List.getLast?_eq_some_iff.1 hslash
    have hnames := Path.getLast?_names relative.toList
    rw [hfront, Path.names_append_singleton_slash, List.getLast?_concat, ← hfront] at hnames
    exact hlast (Option.some.inj hnames).symm

/-! ## What a directory selects -/

/-- Whether a relative path leads down from a directory to a file with the name of a schema file. -/
def HoldsSchemaFile (place : FileTree) (relative : String) : Prop :=
  (∃ content, place.descend (Path.names relative.toList) = some (.file content)) ∧
    isSchemaName (Path.lastName relative.toList) = true

/-- A directory selects the schema files that lie below it, and without recursion those that lie
directly in it. -/
theorem mem_selectedBy_iff_relative (h : tree.WellNamed) (hbase : IsBase base)
    (hplace : tree.at? base.toList = some place) (hdirectory : place.isDirectory = true) :
    path.toList ∈ selectedBy edition tree recursive base.toList ↔
      ∃ relative, path = base ++ "/" ++ relative ∧ HoldsSchemaFile place relative ∧
        (recursive = false → '/' ∉ relative.toList) := by
  have hthere : tree.hasDirectory base.toList = true := by
    rw [FileTree.hasDirectory, hplace]
    exact hdirectory
  rw [mem_selectedBy_directory h hthere]
  constructor
  · rintro ⟨row, name, hflat, hproper, hschema, hpath, hfile⟩
    have hslash : ∀ other ∈ row ++ [name], '/' ∉ other := fun other hother =>
      (hproper other hother).1.2
    obtain ⟨relative, hrelative⟩ : ∃ relative : String,
        relative.toList = ['/'].intercalate (row ++ [name]) := ⟨_, String.toList_ofList⟩
    have hnames : Path.names relative.toList = row ++ [name] := by
      rw [hrelative, Path.names_intercalate (by simp) hslash]
    have hlast := Path.getLast?_names relative.toList
    rw [hnames, List.getLast?_concat, Option.some.injEq] at hlast
    obtain ⟨content, hcontent⟩ := FileTree.hasFile_iff.1 hfile
    rw [← hpath, FileTree.at?_below tree base.toList hproper, hplace] at hcontent
    refine ⟨relative, ?_, ⟨⟨content, hnames ▸ hcontent⟩, hlast ▸ hschema⟩, fun hrecursive => ?_⟩
    · rw [← String.toList_inj, ← hpath, ← hnames]
      exact hbase.below_eq fun other hother => (hproper other (hnames ▸ hother)).1
    · obtain rfl := hflat hrecursive
      rw [hrelative]
      simpa using hslash
  · rintro ⟨relative, rfl, ⟨⟨content, hfile⟩, hschema⟩, hflat⟩
    obtain ⟨row, hnames⟩ := List.getLast?_eq_some_iff.1 (Path.getLast?_names relative.toList)
    have hproper := (h.at? hplace).proper_of_descend hfile
    have hpath := hbase.below_eq fun name hname => (hproper name hname).1
    have hfound := at?_relative h hbase hplace hfile
    refine ⟨row, Path.lastName relative.toList, fun hrecursive => ?_, hnames ▸ hproper, hschema,
      hnames ▸ hpath, FileTree.hasFile_iff.2 ⟨content, hfound⟩⟩
    rw [Path.names_of_no_slash (hflat hrecursive)] at hnames
    simpa using congrArg List.length hnames

/-- The same for the path that an argument stands for. -/
theorem mem_files_alone_directory (search : Search) (h : tree.WellNamed) (hbase : IsBase base)
    (hplace : tree.at? (search.fullPath base).toList = some place)
    (hdirectory : place.isDirectory = true) :
    path ∈ (search.alone base).files tree ↔
      ∃ relative, path = search.fullPath base ++ "/" ++ relative ∧
        HoldsSchemaFile place relative ∧ (search.recursive = false → '/' ∉ relative.toList) := by
  rw [mem_files_alone]
  exact mem_selectedBy_iff_relative h (hbase.fullPath search) hplace hdirectory

/-! ## Subdirectories -/

/-- Whether a relative path leads down from a directory to another one. -/
def HoldsDirectory (place : FileTree) (relative : String) : Prop :=
  ∃ entries, place.descend (Path.names relative.toList) = some (.directory entries)

/-- The directories at any depth below the one that an argument leads to, as further arguments. -/
def subdirectories (search : Search) (tree : FileTree) (base : String) : List String :=
  match tree.at? (search.fullPath base).toList with
  | some place => (place.descendants.filter (·.2.isDirectory)).map fun found =>
      base ++ "/" ++ String.ofList (['/'].intercalate found.1)
  | none => []

theorem mem_subdirectories (h : tree.WellNamed)
    (hplace : tree.at? (search.fullPath base).toList = some place) {argument : String} :
    argument ∈ search.subdirectories tree base ↔
      ∃ sub, argument = base ++ "/" ++ sub ∧ HoldsDirectory place sub := by
  have hwell := h.at? hplace
  rw [subdirectories, hplace, List.mem_map]
  constructor
  · rintro ⟨⟨row, found⟩, hfound, rfl⟩
    obtain ⟨hbelow, hdirectory⟩ := List.mem_filter.1 hfound
    obtain ⟨hne, hdescend⟩ := (FileTree.mem_descendants hwell).1 hbelow
    cases found with
    | file content => cases hdirectory
    | directory entries =>
      refine ⟨_, rfl, entries, ?_⟩
      rw [String.toList_ofList, Path.names_intercalate hne fun name hname =>
        (hwell.proper_of_descend hdescend name hname).1.2]
      exact hdescend
  · rintro ⟨sub, rfl, entries, hdescend⟩
    refine ⟨(Path.names sub.toList, .directory entries), List.mem_filter.2 ⟨?_, rfl⟩, ?_⟩
    · exact (FileTree.mem_descendants hwell).2 ⟨Path.names_ne_nil _, hdescend⟩
    · rw [Path.intercalate_names, String.ofList_toList]

/-- What a file path from a subdirectory leads to is led to from the directory by both in turn. -/
theorem holdsSchemaFile_append {relative : String}
    (hsub : place.descend (Path.names sub.toList) = some below) :
    HoldsSchemaFile place (sub ++ "/" ++ relative) ↔ HoldsSchemaFile below relative := by
  have hlist : (sub ++ "/" ++ relative).toList = sub.toList ++ '/' :: relative.toList := by simp
  have hnames : Path.names (sub ++ "/" ++ relative).toList =
      Path.names sub.toList ++ Path.names relative.toList := by
    rw [hlist, Path.names_append_slash]
  have hlast : Path.lastName (sub ++ "/" ++ relative).toList = Path.lastName relative.toList := by
    have hboth := Path.getLast?_names (sub ++ "/" ++ relative).toList
    rw [hnames, List.getLast?_append, Path.getLast?_names, Option.some_or] at hboth
    exact (Option.some.inj hboth).symm
  rw [HoldsSchemaFile, HoldsSchemaFile, hnames, hlast, FileTree.descend_append, hsub]
  rfl

/-- What a subdirectory selects, told by the directory that it is in. -/
theorem mem_files_alone_subdirectory (search : Search) (h : tree.WellNamed) (hbase : IsBase base)
    (hplace : tree.at? (search.fullPath base).toList = some place)
    (hsub : HoldsDirectory place sub) :
    path ∈ (search.alone (base ++ "/" ++ sub)).files tree ↔
      ∃ relative, path = search.fullPath base ++ "/" ++ (sub ++ "/" ++ relative) ∧
        HoldsSchemaFile place (sub ++ "/" ++ relative) ∧
        (search.recursive = false → '/' ∉ relative.toList) := by
  obtain ⟨entries, hsub⟩ := hsub
  have hfull := hbase.fullPath_relative search sub
  have hbase' := isBase_relative (h.at? hplace) hsub base
  have hplace' : tree.at? (search.fullPath (base ++ "/" ++ sub)).toList =
      some (.directory entries) := hfull ▸ at?_relative h (hbase.fullPath search) hplace hsub
  rw [mem_files_alone_directory search h hbase' hplace' rfl, hfull]
  refine exists_congr fun relative => ?_
  rw [holdsSchemaFile_append hsub]
  simp only [String.append_assoc]

/-- A recursive search below a subdirectory finds nothing new, and spells it alike. -/
theorem files_alone_subset (search : Search) (hrecursive : search.recursive = true)
    (h : tree.WellNamed) (hbase : IsBase base)
    (hplace : tree.at? (search.fullPath base).toList = some place)
    (hdirectory : place.isDirectory = true) (hsub : HoldsDirectory place sub) :
    (search.alone (base ++ "/" ++ sub)).files tree ⊆ (search.alone base).files tree := by
  intro path hpath
  obtain ⟨relative, rfl, hfile, -⟩ :=
    (mem_files_alone_subdirectory search h hbase hplace hsub).1 hpath
  rw [mem_files_alone_directory search h hbase hplace hdirectory]
  exact ⟨sub ++ "/" ++ relative, rfl, hfile, fun hflat => by simp [hrecursive] at hflat⟩

/-- A schema file below a directory lies directly in it, or in one of its subdirectories. -/
theorem holdsSchemaFile_cases {relative : String} (h : HoldsSchemaFile place relative) :
    '/' ∉ relative.toList ∨
      ∃ sub name, relative = sub ++ "/" ++ name ∧ '/' ∉ name.toList ∧ HoldsDirectory place sub := by
  obtain ⟨⟨content, hfile⟩, -⟩ := h
  obtain ⟨row, hnames⟩ := List.getLast?_eq_some_iff.1 (Path.getLast?_names relative.toList)
  have hslash : ∀ name ∈ row, '/' ∉ name := fun name hname =>
    Path.no_slash_of_mem_names (hnames ▸ List.mem_append_left _ hname)
  have hname := Glob.no_slash_lastName relative.toList
  by_cases hrow : row = []
  · subst hrow
    have heq : relative.toList = Path.lastName relative.toList := by
      refine Path.names_inj ?_
      rw [hnames, Path.names_of_no_slash hname]
      rfl
    rw [heq]
    exact .inl hname
  · -- the names before the last one lead to something that has an entry
    refine .inr ⟨String.ofList (['/'].intercalate row),
      String.ofList (Path.lastName relative.toList), ?_, by rwa [String.toList_ofList], ?_⟩
    · rw [← String.toList_inj]
      refine Path.names_inj ?_
      simp only [String.toList_append, String.toList_ofList, String.reduceToList, List.append_assoc]
      rw [hnames, List.singleton_append, Path.names_append_slash, Path.names_of_no_slash hname,
        Path.names_intercalate hrow hslash]
    · rw [hnames, FileTree.descend_append] at hfile
      obtain ⟨below, hbelow, hfile⟩ := Option.bind_eq_some_iff.1 hfile
      rw [HoldsDirectory, String.toList_ofList, Path.names_intercalate hrow hslash, hbelow]
      cases below with
      | directory entries => exact ⟨entries, rfl⟩
      | file content => cases hfile

/-! ## Both ways to search -/

/-- The recursive search in a directory finds what the searches in it and in all its subdirectories
find without recursion. -/
theorem mem_files_alone_iff_subdirectories (h : tree.WellNamed) (hbase : IsBase base)
    (hplace : tree.at? (search.fullPath base).toList = some place)
    (hdirectory : place.isDirectory = true) :
    path ∈ (search.deep.alone base).files tree ↔
      ∃ argument ∈ base :: search.subdirectories tree base,
        path ∈ (search.flat.alone argument).files tree := by
  constructor
  · intro hpath
    obtain ⟨relative, rfl, hfile, -⟩ :=
      (mem_files_alone_directory search.deep h hbase hplace hdirectory).1 hpath
    rcases holdsSchemaFile_cases hfile with hflat | ⟨sub, name, rfl, hflat, hsub⟩
    · refine ⟨base, List.mem_cons_self .., ?_⟩
      rw [mem_files_alone_directory search.flat h hbase hplace hdirectory]
      exact ⟨relative, rfl, hfile, fun _ => hflat⟩
    · refine ⟨base ++ "/" ++ sub,
        List.mem_cons_of_mem _ ((mem_subdirectories h hplace).2 ⟨sub, rfl, hsub⟩), ?_⟩
      rw [mem_files_alone_subdirectory search.flat h hbase hplace hsub]
      exact ⟨name, rfl, hfile, fun _ => hflat⟩
  · rintro ⟨argument, hargument, hpath⟩
    have hwide := files_alone_flat_subset argument hpath
    rcases List.mem_cons.1 hargument with rfl | hargument
    · exact hwide
    · obtain ⟨sub, rfl, hsub⟩ := (mem_subdirectories h hplace).1 hargument
      exact files_alone_subset search.deep rfl h hbase hplace hdirectory hsub hwide

/-- A path argument that leads to a directory, and has no slash at its end, selects exactly the
schema files that lie below it, each once; without recursion exactly those that lie directly in it.
They are spelled by the path that the argument stands for, a slash, and the names that lead down to
them, of whatever kind these are.  So with recursion a subdirectory as a further argument changes
nothing, and the result is the one without recursion for the directory and all its
subdirectories. -/
theorem directory_selects_schema_files (h : tree.WellNamed) (search : Search) (hbase : IsBase base)
    {entries : List (Name × FileTree)}
    (hplace : tree.at? (search.fullPath base).toList = some (.directory entries)) :
    (((search.alone base).files tree).Nodup ∧
      ∀ path, path ∈ (search.alone base).files tree ↔
        ∃ relative, path = search.fullPath base ++ "/" ++ relative ∧
          HoldsSchemaFile (.directory entries) relative ∧
          (search.recursive = false → '/' ∉ relative.toList)) ∧
    (∀ before after : List String, search.recursive = true →
      base ∈ search.paths → search.paths = before ++ after →
      ∀ sub, HoldsDirectory (.directory entries) sub →
        (search.asking (before ++ (base ++ "/" ++ sub) :: after) search.excludes).files tree =
          search.files tree) ∧
    (∀ argument, argument ∈ search.subdirectories tree base ↔
      ∃ sub, argument = base ++ "/" ++ sub ∧ HoldsDirectory (.directory entries) sub) ∧
    (∀ path, path ∈ (search.deep.alone base).files tree ↔
      ∃ argument ∈ base :: search.subdirectories tree base,
        path ∈ (search.flat.alone argument).files tree) ∧
    (search.flat.asking (base :: search.subdirectories tree base) []).files tree =
      (search.deep.alone base).files tree := by
  have hunion : ∀ path, path ∈ (search.deep.alone base).files tree ↔
      ∃ argument ∈ base :: search.subdirectories tree base,
        path ∈ (search.flat.alone argument).files tree :=
    fun path => mem_files_alone_iff_subdirectories h hbase hplace rfl
  refine ⟨⟨(files_pairwise _ tree).nodup, fun path =>
    mem_files_alone_directory search h hbase hplace rfl⟩, ?_,
    fun argument => mem_subdirectories h hplace, hunion, files_congr fun path => ?_⟩
  · intro before after hrecursive hmem hpaths sub hsub
    refine files_congr fun path => mem_files_asking_iff.trans (Iff.trans ?_ mem_files_iff.symm)
    refine and_congr_left fun _ => ⟨?_, ?_⟩
    · rintro ⟨argument, hargument, hpath⟩
      rcases List.perm_middle.mem_iff.1 hargument with - | ⟨_, hargument⟩
      · exact ⟨base, hmem, files_alone_subset search hrecursive h hbase hplace rfl hsub hpath⟩
      · exact ⟨argument, hpaths ▸ hargument, hpath⟩
    · rintro ⟨argument, hargument, hpath⟩
      rw [hpaths] at hargument
      exact ⟨argument, List.perm_middle.mem_iff.2 (List.mem_cons_of_mem _ hargument), hpath⟩
  · refine (mem_files_asking_iff.trans ?_).trans (hunion path).symm
    exact and_iff_left nofun

/-- A directory with hidden files and directories, and a directory named like a schema file. -/
def shelfTree : FileTree :=
  treeOfFiles ["home/lib/a.json", "home/lib/.json", "home/lib/.old/b.json",
    "home/lib/c.json/d.json", "home/lib/c.json/e.txt", "home/f.json"]

theorem shelfTree_wellNamed : shelfTree.WellNamed := wellNamed_treeOfFiles (by decide)

/-- What the directory of it holds. -/
def shelf : List (Name × FileTree) :=
  [("a.json".toList, .file []), (".json".toList, .file []),
    (".old".toList, .directory [("b.json".toList, .file [])]),
    ("c.json".toList, .directory [("d.json".toList, .file []), ("e.txt".toList, .file [])])]

/-- The recursive search in it. -/
def shelfSearch : Search where
  root := "/home"
  paths := ["lib"]
  excludes := []
  recursive := true
  edition := .newer

theorem shelfSearch_selects :
    (IsBase "lib" ∧ shelfSearch.fullPath "lib" = "/home/lib" ∧
      shelfTree.at? "/home/lib".toList = some (.directory shelf)) ∧
    (HoldsSchemaFile (.directory shelf) "c.json/d.json" ∧
      "/home/lib/c.json/d.json" ∈ (shelfSearch.alone "lib").files shelfTree) ∧
    (shelfSearch.alone "lib").files shelfTree =
      ["/home/lib/.json", "/home/lib/.old/b.json", "/home/lib/a.json", "/home/lib/c.json/d.json"] ∧
    (HoldsDirectory (.directory shelf) "c.json" ∧
      (shelfSearch.asking ["lib/c.json", "lib"] []).files shelfTree =
        shelfSearch.files shelfTree) ∧
    (shelfSearch.subdirectories shelfTree "lib" = ["lib/.old", "lib/c.json"] ∧
      (shelfSearch.flat.asking ["lib", "lib/.old", "lib/c.json"] []).files shelfTree =
        (shelfSearch.deep.alone "lib").files shelfTree) := by
  have hbase : IsBase "lib" := ⟨by decide, by decide⟩
  have hfull : shelfSearch.fullPath "lib" = "/home/lib" := by decide
  have hplace : shelfTree.at? "/home/lib".toList = some (.directory shelf) := by rfl
  have hfile : HoldsSchemaFile (.directory shelf) "c.json/d.json" := ⟨⟨[], by rfl⟩, by decide⟩
  have hsub : HoldsDirectory (.directory shelf) "c.json" := ⟨_, by rfl⟩
  have hall : shelfSearch.subdirectories shelfTree "lib" = ["lib/.old", "lib/c.json"] := by
    decide +kernel
  obtain ⟨⟨-, hselects⟩, hfurther, -, -, hunion⟩ :=
    directory_selects_schema_files shelfTree_wellNamed shelfSearch hbase (hfull ▸ hplace)
  have hsame := hfurther [] ["lib"] rfl (by decide) rfl "c.json" hsub
  rw [hall] at hunion
  refine ⟨⟨hbase, hfull, hplace⟩, ⟨hfile, ?_⟩, by decide +kernel, ⟨hsub, hsame⟩, hall, hunion⟩
  exact (hselects _).2 ⟨"c.json/d.json", by decide, hfile, by simp [shelfSearch]⟩

end Search

end NativeHeader
