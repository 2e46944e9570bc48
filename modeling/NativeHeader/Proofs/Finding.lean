import NativeHeader.Proofs.Relisting
import NativeHeader.Search

/-!
# What is found in a tree

A directory gives its schema files, or those at any depth, and a path pattern gives the paths that
match it.  What is found is told by membership, one law for each way of looking (`mem_visibleBelow`,
`mem_wildcardNames`, `mem_deepNames`, `mem_filesIn`, `mem_filesBelow`): the order in which a
directory lists its entries is not part of it.  So a relisting of the tree gives the same, though
maybe in another order, for every path argument (`Relisted.mem_selectedBy_iff`) and for every
exclude argument (`Relisted.mem_excludedBy_iff`).
-/

namespace NativeHeader

open NativeHeader.Path (Name)
open FileTree (Relisted)

variable {edition : Edition} {tree tree' : FileTree} {name : Name} {path : List Char}

/-! ## Path patterns -/

namespace Glob

theorem mem_visibleEntries {entries : List (Name × FileTree)} {found : List Char × FileTree} :
    found ∈ visibleEntries entries ↔
      ∃ child ∈ entries, Path.isHidden child.1 = false ∧
        (found = child ∨
          ∃ below ∈ visibleBelow child.2, (Path.join child.1 below.1, below.2) = found) := by
  induction entries with
  | nil => simp [visibleEntries]
  | cons first rest ih =>
    rw [List.exists_mem_cons_iff, ← ih, visibleEntries]
    cases Path.isHidden first.1 with
    | true => simp
    | false =>
      rw [if_neg Bool.false_ne_true, List.mem_append, List.mem_cons, List.mem_map, eq_self,
        true_and]

/-- What is not hidden below a directory is an entry, or is below one. -/
theorem mem_visibleBelow {found : List Char × FileTree} :
    found ∈ visibleBelow tree ↔
      ∃ child ∈ tree.children, Path.isHidden child.1 = false ∧
        (found = child ∨
          ∃ below ∈ visibleBelow child.2, (Path.join child.1 below.1, below.2) = found) := by
  cases tree with
  | file => simp [visibleBelow, FileTree.children]
  | directory entries => exact mem_visibleEntries

theorem exists_visibleBelow_iff {P : List Char × FileTree → Prop} :
    (∃ found ∈ visibleBelow tree, P found) ↔
      ∃ child ∈ tree.children, Path.isHidden child.1 = false ∧
        (P child ∨ ∃ below ∈ visibleBelow child.2, P (Path.join child.1 below.1, below.2)) := by
  constructor
  · rintro ⟨found, hfound, hP⟩
    obtain ⟨child, hchild, hhidden, rfl | ⟨below, hbelow, rfl⟩⟩ := mem_visibleBelow.1 hfound
    · exact ⟨found, hchild, hhidden, .inl hP⟩
    · exact ⟨child, hchild, hhidden, .inr ⟨below, hbelow, hP⟩⟩
  · rintro ⟨child, hchild, hhidden, hP | ⟨below, hbelow, hP⟩⟩
    · exact ⟨child, mem_visibleBelow.2 ⟨child, hchild, hhidden, .inl rfl⟩, hP⟩
    · exact ⟨_, mem_visibleBelow.2 ⟨child, hchild, hhidden, .inr ⟨below, hbelow, rfl⟩⟩, hP⟩

theorem mem_keepDirectories {only : Bool} {found : List (List Char × FileTree)} :
    path ∈ keepDirectories only found ↔
      ∃ entry ∈ found, (only = true → entry.2.isDirectory = true) ∧ entry.1 = path := by
  rw [keepDirectories, List.mem_map]
  refine exists_congr fun entry => ?_
  rw [List.mem_filter, and_assoc]
  refine and_congr_right fun _ => and_congr_left fun _ => ?_
  cases only <;> simp

theorem mem_wildcardNames {only : Bool} {directory wildcard : List Char} :
    name ∈ wildcardNames tree only directory wildcard ↔
      (∃ child ∈ tree.list directory, (only = true → child.2.isDirectory = true) ∧
        child.1 = name) ∧
      ((Path.isHidden wildcard || !Path.isHidden name) && matchesName wildcard name) = true := by
  rw [wildcardNames, List.mem_filter, mem_keepDirectories]

theorem mem_placeNames {directory : List Char} :
    name ∈ placeNames edition tree directory ↔
      name = [] ∧ (edition = .newer → tree.hasDirectory directory = true) := by
  cases edition with
  | older => simp [placeNames]
  | newer =>
    rw [placeNames]
    split
    · next hdirectory => simp [hdirectory]
    · next hdirectory => simp [hdirectory]

theorem mem_deepNames {only : Bool} {directory : List Char} :
    name ∈ deepNames edition tree only directory ↔
      (name = [] ∧ (edition = .newer → tree.hasDirectory directory = true)) ∨
        ∃ place, tree.at? directory = some place ∧
          ∃ found ∈ visibleBelow place, (only = true → found.2.isDirectory = true) ∧
            found.1 = name := by
  rw [deepNames, List.mem_append, mem_placeNames]
  refine or_congr_right ?_
  cases tree.at? directory with
  | none => simp
  | some place => simp [mem_keepDirectories]

end Glob

namespace FileTree.Relisted

theorem exists_visibleBelow_iff {P P' : List Char × FileTree → Prop} (h : tree.Relisted tree')
    (agree : ∀ path entry entry', entry.Relisted entry' → (P (path, entry) ↔ P' (path, entry'))) :
    (∃ found ∈ Glob.visibleBelow tree, P found) ↔
      ∃ found ∈ Glob.visibleBelow tree', P' found := by
  induction tree using FileTree.entries_induction generalizing tree' P P' with
  | file content =>
    cases h
    simp [Glob.visibleBelow]
  | directory entries ih =>
    rw [Glob.exists_visibleBelow_iff, Glob.exists_visibleBelow_iff]
    refine h.exists_children_iff fun name entry entry' hmem hentry => and_congr_right fun _ => ?_
    exact or_congr (agree name entry entry' hentry)
      (ih (name, entry) hmem hentry fun path => agree (Path.join name path))

theorem mem_wildcardNames_iff (h : tree.Relisted tree') (distinct : tree.HasDistinctNames)
    (only : Bool) (directory wildcard : List Char) :
    name ∈ Glob.wildcardNames tree only directory wildcard ↔
      name ∈ Glob.wildcardNames tree' only directory wildcard := by
  rw [Glob.mem_wildcardNames, Glob.mem_wildcardNames]
  refine and_congr_left fun _ =>
    h.exists_list_iff distinct directory fun key entry entry' hentry => ?_
  rw [hentry.isDirectory_eq]

theorem mem_deepNames_iff (h : tree.Relisted tree') (distinct : tree.HasDistinctNames)
    (only : Bool) (directory : List Char) :
    name ∈ Glob.deepNames edition tree only directory ↔
      name ∈ Glob.deepNames edition tree' only directory := by
  rw [Glob.mem_deepNames, Glob.mem_deepNames, h.hasDirectory_eq distinct]
  refine or_congr_right ?_
  rcases h.at?_cases distinct directory with
    ⟨hnone, hnone'⟩ | ⟨place, place', hplace, hplace', hrel⟩
  · simp [hnone, hnone']
  · have hfound : (∃ found ∈ Glob.visibleBelow place,
          (only = true → found.2.isDirectory = true) ∧ found.1 = name) ↔
        ∃ found ∈ Glob.visibleBelow place',
          (only = true → found.2.isDirectory = true) ∧ found.1 = name :=
      hrel.exists_visibleBelow_iff fun path entry entry' hentry => by
        rw [hentry.isDirectory_eq]
    simpa [hplace, hplace'] using hfound

theorem plainNames_eq (h : tree.Relisted tree') (distinct : tree.HasDistinctNames)
    (directory : List Char) (name : Name) :
    Glob.plainNames tree directory name = Glob.plainNames tree' directory name := by
  rw [Glob.plainNames, Glob.plainNames, h.hasDirectory_eq distinct, h.exists?_eq distinct]

theorem mem_segmentNames_iff (h : tree.Relisted tree') (distinct : tree.HasDistinctNames)
    (recursive only : Bool) (segment : Name) (directory : List Char) :
    name ∈ Glob.segmentNames edition tree recursive only segment directory ↔
      name ∈ Glob.segmentNames edition tree' recursive only segment directory := by
  rw [Glob.segmentNames, Glob.segmentNames]
  split
  · rw [h.plainNames_eq distinct]
  · split
    · exact h.mem_deepNames_iff distinct only directory
    · exact h.mem_wildcardNames_iff distinct only directory segment

/-- The segments of a pattern find the same from the same directories. -/
theorem mem_expandSegments_iff (h : tree.Relisted tree') (distinct : tree.HasDistinctNames)
    (recursive : Bool) (segments : List Name) {found found' : List (List Char)}
    (same : ∀ directory, directory ∈ found ↔ directory ∈ found') :
    path ∈ Glob.expandSegments edition tree recursive segments found ↔
      path ∈ Glob.expandSegments edition tree' recursive segments found' := by
  induction segments generalizing found found' with
  | nil => exact same path
  | cons segment rest ih =>
    rw [Glob.expandSegments, Glob.expandSegments]
    refine ih fun next => ?_
    rw [List.mem_flatMap, List.mem_flatMap]
    refine exists_congr fun directory => and_congr (same directory) ?_
    rw [List.mem_map, List.mem_map]
    exact exists_congr fun name =>
      and_congr_left fun _ => h.mem_segmentNames_iff distinct recursive _ segment directory

theorem mem_expand_iff (h : tree.Relisted tree') (distinct : tree.HasDistinctNames)
    (recursive : Bool) (text : List Char) :
    path ∈ Glob.expand edition tree recursive text ↔
      path ∈ Glob.expand edition tree' recursive text := by
  have hplain : ∀ base, Glob.plainPathExists tree base = Glob.plainPathExists tree' base := by
    intro base
    rw [Glob.plainPathExists, Glob.plainPathExists, h.hasDirectory_eq distinct,
      h.exists?_eq distinct]
  rw [Glob.expand, Glob.expand]
  split
  · rw [hplain]
  · exact h.mem_expandSegments_iff distinct recursive _ fun _ => Iff.rfl

end FileTree.Relisted

/-! ## Directories -/

namespace Search

theorem mem_filesIn {directory : List Char} :
    path ∈ filesIn directory tree ↔
      ∃ child ∈ tree.children, child.2.isFile = true ∧ isSchemaName child.1 = true ∧
        Path.join directory child.1 = path := by
  rw [filesIn, List.mem_map]
  refine exists_congr fun child => ?_
  rw [List.mem_filter, Bool.and_eq_true, and_assoc, and_assoc]

theorem mem_filesBelowEntries {directory : List Char} {entries : List (Name × FileTree)} :
    path ∈ filesBelowEntries directory entries ↔
      ∃ child ∈ entries,
        (child.2.isFile = true ∧ isSchemaName child.1 = true ∧
          Path.join directory child.1 = path) ∨
        path ∈ filesBelow (Path.join directory child.1) child.2 := by
  induction entries with
  | nil => simp [filesBelowEntries]
  | cons first rest ih =>
    obtain ⟨name, entry⟩ := first
    rw [List.exists_mem_cons_iff, ← ih]
    cases entry with
    | file content =>
      rw [filesBelowEntries, filesBelow]
      split
      · next hname => simp [FileTree.isFile, hname, eq_comm]
      · next hname => simp [hname]
    | directory below =>
      rw [filesBelowEntries, filesBelow, List.mem_append]
      simp [FileTree.isFile]

/-- A schema file at some depth below a directory is an entry, or is below one. -/
theorem mem_filesBelow {directory : List Char} :
    path ∈ filesBelow directory tree ↔
      ∃ child ∈ tree.children,
        (child.2.isFile = true ∧ isSchemaName child.1 = true ∧
          Path.join directory child.1 = path) ∨
        path ∈ filesBelow (Path.join directory child.1) child.2 := by
  cases tree with
  | file content => simp [filesBelow, FileTree.children]
  | directory entries =>
    rw [filesBelow]
    exact mem_filesBelowEntries

end Search

namespace FileTree.Relisted

theorem mem_filesIn_iff (h : tree.Relisted tree') (directory : List Char) :
    path ∈ Search.filesIn directory tree ↔ path ∈ Search.filesIn directory tree' := by
  rw [Search.mem_filesIn, Search.mem_filesIn]
  refine h.exists_children_iff fun name entry entry' _ hentry => ?_
  rw [hentry.isFile_eq]

theorem mem_filesBelow_iff (h : tree.Relisted tree') (directory : List Char) :
    path ∈ Search.filesBelow directory tree ↔ path ∈ Search.filesBelow directory tree' := by
  induction tree using FileTree.entries_induction generalizing tree' directory with
  | file content =>
    cases h
    rfl
  | directory entries ih =>
    rw [Search.mem_filesBelow, Search.mem_filesBelow]
    refine h.exists_children_iff fun name entry entry' hmem hentry => ?_
    rw [hentry.isFile_eq]
    exact or_congr_right (ih (name, entry) hmem hentry (Path.join directory name))

/-! ## Arguments -/

theorem mem_selectedBy_iff (h : tree.Relisted tree') (distinct : tree.HasDistinctNames)
    (recursive : Bool) (argument : List Char) :
    path ∈ Search.selectedBy edition tree recursive argument ↔
      path ∈ Search.selectedBy edition tree' recursive argument := by
  have hpattern : path ∈ Glob.expand edition tree recursive argument ↔
      path ∈ Glob.expand edition tree' recursive argument :=
    h.mem_expand_iff distinct recursive argument
  rw [Search.selectedBy, Search.selectedBy]
  rcases h.at?_cases distinct argument with ⟨hnone, hnone'⟩ | ⟨place, place', hplace, hplace', hrel⟩
  · rw [hnone, hnone']
    exact hpattern
  · rw [hplace, hplace']
    cases hrel with
    | file => exact hpattern
    | directory hentries hperm =>
      have hdirectory := Relisted.directory hentries hperm
      cases recursive with
      | true => exact hdirectory.mem_filesBelow_iff argument
      | false => exact hdirectory.mem_filesIn_iff argument

theorem mem_excludedBy_iff (h : tree.Relisted tree') (distinct : tree.HasDistinctNames)
    (recursive : Bool) (argument : List Char) :
    path ∈ Search.excludedBy edition tree recursive argument ↔
      path ∈ Search.excludedBy edition tree' recursive argument := by
  rw [Search.excludedBy, Search.excludedBy, h.hasFile_eq distinct]
  split
  · exact Iff.rfl
  · exact h.mem_expand_iff distinct recursive argument

end FileTree.Relisted

end NativeHeader
