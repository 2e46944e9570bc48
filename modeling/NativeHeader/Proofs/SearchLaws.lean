import Mathlib.Data.List.Sort
import NativeHeader.Proofs.Finding

/-!
# The algebra of searches

The result of a search is what its path arguments select, one by one, without what its exclude
arguments leave out, one by one (`mem_files_iff`), and it is listed in strictly increasing order.
An increasing list is told by its members.  So the result does not depend on the order of arguments
or on how often they are given, nor on the order in which directories list their entries; it grows
with the path arguments, and shrinks with the exclude arguments (`files_laws`).
-/

namespace NativeHeader

namespace Search

open FileTree (Relisted)

variable {search other : Search} {tree tree' : FileTree} {path : List Char}

theorem toList_fullPath (search : Search) (argument : String) :
    (search.fullPath argument).toList = Path.resolve search.root.toList argument.toList :=
  String.toList_ofList

/-! ## One argument -/

/-- The same search for other arguments. -/
def asking (search : Search) (paths excludes : List String) : Search :=
  { search with paths := paths, excludes := excludes }

/-- The search for a single path argument, which leaves out nothing. -/
def alone (search : Search) (argument : String) : Search := search.asking [argument] []

/-- The search without recursion. -/
def flat (search : Search) : Search := { search with recursive := false }

/-- The search with recursion. -/
def deep (search : Search) : Search := { search with recursive := true }

/-- What an exclude argument leaves out, as texts. -/
def leftOut (search : Search) (tree : FileTree) (argument : String) : List String :=
  (search.excluded tree argument).map String.ofList

/-! ## Members -/

theorem mem_run_iff :
    path ∈ search.run tree ↔
      (∃ argument ∈ search.paths, path ∈ search.selected tree argument) ∧
        ∀ argument ∈ search.excludes, path ∉ search.excluded tree argument := by
  rw [run, Sorted.mem_ofList, List.mem_filter, List.mem_flatMap, decide_eq_true_eq,
    List.mem_flatMap]
  refine and_congr_right fun _ => ?_
  simp only [not_exists, not_and]

theorem mem_map_ofList {path : String} {paths : List (List Char)} :
    path ∈ paths.map String.ofList ↔ path.toList ∈ paths := by
  rw [List.mem_map]
  constructor
  · rintro ⟨chars, hchars, rfl⟩
    rwa [String.toList_ofList]
  · exact fun h => ⟨path.toList, h, String.ofList_toList⟩

theorem mem_files_alone {path argument : String} :
    path ∈ (search.alone argument).files tree ↔ path.toList ∈ search.selected tree argument := by
  rw [files, mem_map_ofList, mem_run_iff]
  simp [alone, asking, selected, fullPath]

/-- The result is what the path arguments select without what the exclude arguments leave out. -/
theorem mem_files_iff {path : String} :
    path ∈ search.files tree ↔
      (∃ argument ∈ search.paths, path ∈ (search.alone argument).files tree) ∧
        ∀ argument ∈ search.excludes, path ∉ search.leftOut tree argument := by
  simp only [mem_files_alone, leftOut, mem_map_ofList]
  rw [files, mem_map_ofList, mem_run_iff]

/-- The same for other arguments of the search. -/
theorem mem_files_asking_iff {path : String} {paths excludes : List String} :
    path ∈ (search.asking paths excludes).files tree ↔
      (∃ argument ∈ paths, path ∈ (search.alone argument).files tree) ∧
        ∀ argument ∈ excludes, path ∉ search.leftOut tree argument := mem_files_iff

/-- An argument selects the same from a relisted tree. -/
theorem mem_files_alone_of_relisted (h : tree.Relisted tree') (distinct : tree.HasDistinctNames)
    {path argument : String} :
    path ∈ (search.alone argument).files tree ↔ path ∈ (search.alone argument).files tree' := by
  rw [mem_files_alone, mem_files_alone]
  exact h.mem_selectedBy_iff distinct search.recursive (search.fullPath argument).toList

/-- An argument leaves out the same from a relisted tree. -/
theorem mem_leftOut_of_relisted (h : tree.Relisted tree') (distinct : tree.HasDistinctNames)
    {path argument : String} :
    path ∈ search.leftOut tree argument ↔ path ∈ search.leftOut tree' argument := by
  rw [leftOut, leftOut, mem_map_ofList, mem_map_ofList]
  exact h.mem_excludedBy_iff distinct search.recursive (search.fullPath argument).toList

/-! ## The result as a list -/

theorem files_pairwise (search : Search) (tree : FileTree) :
    (search.files tree).Pairwise (· < ·) := by
  rw [files, List.pairwise_map]
  refine (Sorted.pairwise_ofList _).imp fun {path next} hlt => ?_
  rw [String.lt_iff, String.toList_ofList, String.toList_ofList]
  exact hlt

/-- Results with the same members are the same list. -/
theorem files_congr (h : ∀ path, path ∈ search.files tree ↔ path ∈ other.files tree') :
    search.files tree = other.files tree' :=
  (files_pairwise search tree).eq_of_mem_iff (files_pairwise other tree') h

theorem files_subset {paths excludes : List String} (hpaths : search.paths ⊆ paths)
    (hexcludes : excludes ⊆ search.excludes) :
    search.files tree ⊆ (search.asking paths excludes).files tree := by
  intro path hpath
  obtain ⟨⟨argument, hargument, hselected⟩, hkept⟩ := mem_files_iff.1 hpath
  refine mem_files_asking_iff.2 ⟨⟨argument, hpaths hargument, hselected⟩, ?_⟩
  exact fun exclude hexclude => hkept exclude (hexcludes hexclude)

theorem files_of_relisted (h : tree.Relisted tree') (distinct : tree.HasDistinctNames) :
    search.files tree' = search.files tree := by
  refine files_congr fun path => mem_files_iff.trans (Iff.trans ?_ mem_files_iff.symm)
  simp only [mem_files_alone_of_relisted h distinct, mem_leftOut_of_relisted h distinct]

/-- A search lists its result in increasing order, each path once.  The result is what each path
argument selects alone, without what each exclude argument leaves out alone.  So the same arguments
in another order, or given another number of times, have the same result; more path arguments and
fewer exclude arguments have no smaller one; and it does not count in which order directories list
their entries. -/
theorem files_laws (search : Search) (tree : FileTree) :
    (search.files tree).Pairwise (· < ·) ∧ (search.files tree).Nodup ∧
      (∀ path, path ∈ search.files tree ↔
        (∃ argument ∈ search.paths, path ∈ (search.alone argument).files tree) ∧
          ∀ argument ∈ search.excludes, path ∉ search.leftOut tree argument) ∧
      (∀ paths excludes,
        (∀ argument, argument ∈ paths ↔ argument ∈ search.paths) →
        (∀ argument, argument ∈ excludes ↔ argument ∈ search.excludes) →
          (search.asking paths excludes).files tree = search.files tree) ∧
      (∀ paths excludes, search.paths ⊆ paths → excludes ⊆ search.excludes →
        search.files tree ⊆ (search.asking paths excludes).files tree) ∧
      ∀ tree', tree.HasDistinctNames → tree.Relisted tree' →
        search.files tree' = search.files tree := by
  refine ⟨files_pairwise search tree, (files_pairwise search tree).nodup, fun _ => mem_files_iff,
    fun paths excludes hpaths hexcludes => ?_, fun paths excludes => files_subset,
    fun tree' distinct h => files_of_relisted h distinct⟩
  refine files_congr fun path => mem_files_asking_iff.trans (Iff.trans ?_ mem_files_iff.symm)
  simp only [hpaths, hexcludes]

/-! ## Two listings of the same files -/

/-- A tree of empty files, put in one after another. -/
def treeOfFiles (paths : List String) : FileTree :=
  paths.foldl (fun tree path => FileTree.insert (.file []) (Path.names path.toList) tree)
    (.directory [])

theorem hasDistinctNames_treeOfFiles (paths : List String) :
    (treeOfFiles paths).HasDistinctNames := by
  have hall : ∀ (paths : List String) (tree : FileTree), tree.HasDistinctNames →
      (paths.foldl (fun tree path => FileTree.insert (.file []) (Path.names path.toList) tree)
        tree).HasDistinctNames := by
    intro paths
    induction paths with
    | nil => exact fun _ h => h
    | cons path rest ih => exact fun tree h => ih _ (h.insert (.file []) _)
  exact hall paths _ (.directory List.nodup_nil nofun)

/-- Four files in two directories. -/
def firstListing : FileTree :=
  treeOfFiles ["home/b.json", "home/a.json", "home/sub/d.json", "home/sub/c.json"]

/-- The same files, put in in another order. -/
def secondListing : FileTree :=
  treeOfFiles ["home/sub/c.json", "home/b.json", "home/sub/d.json", "home/a.json"]

theorem firstListing_relisted : firstListing.Relisted secondListing := by
  have hfirst : firstListing = .directory [("home".toList, .directory
      ([("b.json".toList, .file []), ("a.json".toList, .file [])] ++ [("sub".toList,
        .directory [("d.json".toList, .file []), ("c.json".toList, .file [])])]))] := by
    rfl
  have hsecond : secondListing = .directory [("home".toList, .directory
      ([("sub".toList, .directory [("c.json".toList, .file []), ("d.json".toList, .file [])])] ++
        [("b.json".toList, .file []), ("a.json".toList, .file [])]))] := by
    rfl
  rw [hfirst, hsecond]
  refine .directory (.cons (.directory ?_ List.perm_append_comm) .nil) (.refl _)
  exact .cons (.refl _) (.cons (.refl _) (.cons (FileTree.relisted_of_perm (.swap ..)) .nil))

/-- Two directories of schema files without one file. -/
def sampleSearch : Search where
  root := "/home"
  paths := ["sub", "*.json", "/home/sub"]
  excludes := ["b.json"]
  recursive := false
  edition := .newer

theorem sampleSearch_finds :
    sampleSearch.files firstListing =
        ["/home/a.json", "/home/sub/c.json", "/home/sub/d.json"] ∧
      sampleSearch.files secondListing = sampleSearch.files firstListing ∧
      (sampleSearch.asking ["*.json", "/home/sub", "sub"] ["b.json", "b.json"]).files firstListing =
        sampleSearch.files firstListing ∧
      sampleSearch.files firstListing ⊆
        (sampleSearch.asking ["sub", "*.json", "/home/sub", "b.json"] []).files firstListing := by
  obtain ⟨-, -, -, hsame, hmore, hrelisted⟩ := files_laws sampleSearch firstListing
  refine ⟨by decide, hrelisted _ (hasDistinctNames_treeOfFiles _) firstListing_relisted,
    hsame _ _ ?_ ?_, hmore _ _ ?_ ?_⟩
  · simp [sampleSearch, or_comm, or_left_comm]
  · simp [sampleSearch]
  · simp [sampleSearch]
  · simp

end Search

end NativeHeader
