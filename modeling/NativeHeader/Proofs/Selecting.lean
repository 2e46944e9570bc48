import NativeHeader.Proofs.Patterns
import NativeHeader.Proofs.SearchLaws

/-!
# What one path argument selects

What an argument stands for ends as the argument does (`fullPath_append`).  If it leads to a
directory, it selects the schema files that rows of names lead to from there, and spells them as
rows below itself (`mem_selectedBy_directory`).  Without recursion the rows have one name.
Everything else is a pattern (`selectedBy_of_not_directory`).
-/

namespace NativeHeader.Search

open NativeHeader.Path (Name IsStep IsProper)
open NativeHeader.FileTree (WellNamed)

variable {search : Search} {edition : Edition} {tree place : FileTree} {recursive : Bool}
  {base path relative : List Char} {name : Name} {row : List Name}

/-! ## What an argument stands for -/

section FullPath

variable {argument : String}

/-- What is written after an argument is written after what it stands for. -/
theorem fullPath_append (hne : argument ≠ "") (rest : String) :
    search.fullPath (argument ++ rest) = search.fullPath argument ++ rest := by
  have hnil : argument.toList ≠ [] := by simpa using hne
  rw [← String.toList_inj, toList_fullPath, String.toList_append, String.toList_append,
    toList_fullPath, Path.resolve_append hnil]

/-- What an argument stands for ends as the argument does. -/
theorem getLast?_fullPath (search : Search) (hne : argument ≠ "") :
    (search.fullPath argument).toList.getLast? = argument.toList.getLast? := by
  rw [toList_fullPath, Path.getLast?_resolve (by simpa using hne)]

theorem fullPath_ne_empty (hne : argument ≠ "") : search.fullPath argument ≠ "" := by
  intro hempty
  have hlast := getLast?_fullPath search hne
  rw [hempty] at hlast
  have hnil : argument.toList = [] := List.getLast?_eq_none_iff.1 hlast.symm
  exact hne (by simpa using hnil)

end FullPath

/-! ## Names of schema files -/

theorem isSchemaName_iff : isSchemaName name = true ↔ schemaSuffix <:+ name :=
  List.isSuffixOf_iff_suffix

/-- A path that ends in a name ends as the name does. -/
theorem isSchemaName_eq (h : Path.names relative = row ++ [name]) :
    isSchemaName relative = isSchemaName name := by
  have hslash : ∀ other ∈ row ++ [name], '/' ∉ other := fun other hother =>
    Path.no_slash_of_mem_names (h ▸ hother)
  obtain ⟨hrow, hname⟩ := List.forall_mem_append.1 hslash
  rw [List.forall_mem_singleton] at hname
  by_cases hempty : row = []
  · subst hempty
    have heq : relative = name := Path.names_inj (h.trans (Path.names_of_no_slash hname).symm)
    rw [heq]
  · have heq : relative = ['/'].intercalate row ++ '/' :: name := by
      refine Path.names_inj ?_
      rw [h, Path.names_append_slash, Path.names_of_no_slash hname,
        Path.names_intercalate hempty hrow]
    rw [Bool.eq_iff_iff, isSchemaName_iff, isSchemaName_iff, heq]
    have hno : '/' ∉ schemaSuffix := by decide
    constructor
    · -- the end of a schema file's name has no slash, so it does not reach beyond the last one
      intro hsuffix
      rcases List.suffix_or_suffix_of_suffix hsuffix (List.suffix_append _ ('/' :: name)) with
        hsuffix | hsuffix
      · rcases List.suffix_cons_iff.1 hsuffix with heq | hsuffix
        · exact absurd (heq ▸ List.mem_cons_self ..) hno
        · exact hsuffix
      · exact absurd (hsuffix.subset (List.mem_cons_self ..)) hno
    · intro hsuffix
      exact hsuffix.trans ((List.suffix_cons '/' name).trans (List.suffix_append _ _))

/-! ## Directories -/

/-- The schema files at any depth are what rows of names lead to that end in the name of one. -/
theorem mem_filesBelow_iff_descend (h : tree.WellNamed) :
    path ∈ filesBelow base tree ↔
      ∃ row name content, tree.descend (row ++ [name]) = some (.file content) ∧
        isSchemaName name = true ∧ Path.below base (row ++ [name]) = path := by
  induction tree using FileTree.entries_induction generalizing base with
  | file content =>
    rw [filesBelow]
    constructor
    · intro hmem
      cases hmem
    · rintro ⟨row, name, content, hfile, -⟩
      cases row <;> cases hfile
  | directory entries ih =>
    rw [mem_filesBelow]
    constructor
    · rintro ⟨⟨name, child⟩, hchild, hfound⟩
      have hlookup := h.lookup_eq_some_iff.2 hchild
      rcases hfound with ⟨hfile, hschema, hpath⟩ | hbelow
      · cases child with
        | directory entries => cases hfile
        | file content => exact ⟨[], name, content, by simp [hlookup], hschema, hpath⟩
      · obtain ⟨row, last, content, hfile, hschema, hpath⟩ :=
          (ih _ hchild (h.of_mem_children hchild)).1 hbelow
        exact ⟨name :: row, last, content, by simpa [hlookup] using hfile, hschema, hpath⟩
    · rintro ⟨row, last, content, hfile, hschema, hpath⟩
      cases row with
      | nil =>
        obtain ⟨child, hlookup, hfile⟩ := Option.bind_eq_some_iff.1 hfile
        cases hfile
        exact ⟨(last, .file content), FileTree.mem_of_lookup hlookup, .inl ⟨rfl, hschema, hpath⟩⟩
      | cons name rest =>
        obtain ⟨child, hlookup, hfile⟩ := Option.bind_eq_some_iff.1 hfile
        have hchild := FileTree.mem_of_lookup hlookup
        refine ⟨(name, child), hchild, .inr ?_⟩
        have hwell := h.of_mem_children hchild
        exact (ih _ hchild hwell).2 ⟨rest, last, content, hfile, hschema, hpath⟩

theorem mem_filesBelow_iff (h : tree.WellNamed) (hplace : tree.at? base = some place) :
    path ∈ filesBelow base place ↔
      ∃ row name, (∀ other ∈ row ++ [name], IsProper other) ∧ isSchemaName name = true ∧
        Path.below base (row ++ [name]) = path ∧ tree.hasFile path = true := by
  have hwell := h.at? hplace
  rw [mem_filesBelow_iff_descend hwell]
  constructor
  · rintro ⟨row, name, content, hfile, hschema, rfl⟩
    have hproper := hwell.proper_of_descend hfile
    refine ⟨row, name, hproper, hschema, rfl, FileTree.hasFile_iff.2 ⟨content, ?_⟩⟩
    rw [FileTree.at?_below tree base hproper, hplace]
    exact hfile
  · rintro ⟨row, name, hproper, hschema, rfl, hfile⟩
    obtain ⟨content, hcontent⟩ := FileTree.hasFile_iff.1 hfile
    rw [FileTree.at?_below tree base hproper, hplace] at hcontent
    exact ⟨row, name, content, hcontent, hschema, rfl⟩

theorem mem_filesIn_iff (h : tree.WellNamed) (hplace : tree.at? base = some place) :
    path ∈ filesIn base place ↔
      ∃ name, IsProper name ∧ isSchemaName name = true ∧ Path.join base name = path ∧
        tree.hasFile path = true := by
  rw [mem_filesIn]
  constructor
  · rintro ⟨⟨name, entry⟩, hmem, hfile, hschema, rfl⟩
    obtain ⟨hname, hentry⟩ := (h.mem_children_iff hplace).1 hmem
    refine ⟨name, hname, hschema, rfl, ?_⟩
    rw [FileTree.hasFile, hentry]
    exact hfile
  · rintro ⟨name, hname, hschema, rfl, hfile⟩
    obtain ⟨content, hcontent⟩ := FileTree.hasFile_iff.1 hfile
    have hmem := (h.mem_children_iff hplace).2 ⟨hname, hcontent⟩
    exact ⟨(name, .file content), hmem, rfl, hschema, rfl⟩

/-! ## What a path selects -/

/-- A path that leads to a directory selects the schema files below it, without recursion those
directly in it. -/
theorem mem_selectedBy_directory (h : tree.WellNamed) (hbase : tree.hasDirectory base = true) :
    path ∈ selectedBy edition tree recursive base ↔
      ∃ row name, (recursive = false → row = []) ∧ (∀ other ∈ row ++ [name], IsProper other) ∧
        isSchemaName name = true ∧ Path.below base (row ++ [name]) = path ∧
        tree.hasFile path = true := by
  obtain ⟨entries, hplace⟩ := FileTree.hasDirectory_iff.1 hbase
  rw [selectedBy, hplace]
  cases recursive with
  | true =>
    refine (mem_filesBelow_iff h hplace).trans ?_
    simp
  | false =>
    refine (mem_filesIn_iff h hplace).trans ?_
    simp [Path.below]

/-- Every other path is a pattern. -/
theorem selectedBy_of_not_directory (h : tree.hasDirectory path = false) :
    selectedBy edition tree recursive path = Glob.expand edition tree recursive path := by
  rw [FileTree.hasDirectory] at h
  rw [selectedBy]
  rcases hplace : tree.at? path with _ | ⟨content⟩ | ⟨entries⟩
  · rfl
  · rfl
  · simp [hplace, FileTree.isDirectory] at h

/-! ## Trees of empty files -/

theorem wellNamed_treeOfFiles {paths : List String}
    (h : ∀ path ∈ paths, ∀ name ∈ Path.names path.toList, IsProper name) :
    (treeOfFiles paths).WellNamed := by
  have hall : ∀ (paths : List String) (tree : FileTree),
      (∀ path ∈ paths, ∀ name ∈ Path.names path.toList, IsProper name) → tree.WellNamed →
        (paths.foldl (fun tree path => FileTree.insert (.file []) (Path.names path.toList) tree)
          tree).WellNamed := by
    intro paths
    induction paths with
    | nil => exact fun tree _ htree => htree
    | cons path rest ih =>
      intro tree hpaths htree
      obtain ⟨hpath, hrest⟩ := List.forall_mem_cons.1 hpaths
      exact ih _ hrest (htree.insert ⟨.file [], .file []⟩ hpath)
  exact hall paths _ h ⟨.directory List.nodup_nil nofun, .directory nofun nofun⟩

end NativeHeader.Search
