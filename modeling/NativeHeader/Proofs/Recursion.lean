import NativeHeader.Proofs.SearchLaws

/-!
# Recursion only widens a search

Recursion changes two things in a search: how far below a directory it looks, and what the name `**`
of a pattern stands for.  Neither loses a path or spells it differently.  A directory keeps the
files directly in it (`filesIn_subset`).  The name `**` keeps what it finds as an ordinary wildcard,
which are the entries of depth one that are not hidden (`wildcardNames_anyDepth_subset`).  So one
name of a pattern keeps what it finds, and, by induction on its names, so does the pattern
(`expand_subset`).
-/

namespace NativeHeader

open NativeHeader.Path (Name)

variable {edition : Edition} {tree : FileTree} {base : List Char} {only : Bool}

/-! ## Path patterns -/

namespace Glob

theorem wildcardNames_anyDepth_subset :
    wildcardNames tree only base anyDepth ⊆ deepNames edition tree only base := by
  intro name hname
  obtain ⟨⟨child, hchild, honly, rfl⟩, hmatches⟩ := mem_wildcardNames.1 hname
  have hhidden : Path.isHidden child.1 = false := by
    simpa [Path.isHidden, anyDepth] using (Bool.and_eq_true_iff.1 hmatches).1
  unfold FileTree.list at hchild
  cases hplace : tree.at? base with
  | none => simp [hplace] at hchild
  | some place =>
    simp only [hplace] at hchild
    have hfound : child ∈ visibleBelow place :=
      mem_visibleBelow.2 ⟨child, hchild, hhidden, .inl rfl⟩
    exact mem_deepNames.2 (.inr ⟨place, hplace, child, hfound, honly, rfl⟩)

/-- A name of a pattern finds no less in a recursive search, and spells it alike. -/
theorem segmentNames_subset (segment : Name) :
    segmentNames edition tree false only segment base ⊆
      segmentNames edition tree true only segment base := by
  unfold segmentNames
  by_cases hplain : (!isMagic segment) = true
  · simp [hplain]
  · by_cases hdeep : segment = anyDepth
    · subst hdeep
      simpa [hplain] using wildcardNames_anyDepth_subset
    · simp [hplain, hdeep]

/-- The induction is on the names of the pattern: what the first one finds is where the others are
looked for, so the places may grow from one name to the next. -/
theorem expandSegments_subset (segments : List Name) {found more : List (List Char)}
    (h : found ⊆ more) :
    expandSegments edition tree false segments found ⊆
      expandSegments edition tree true segments more := by
  induction segments generalizing found more with
  | nil => exact h
  | cons segment rest ih =>
    refine ih fun path hpath => ?_
    obtain ⟨directory, hdirectory, hpath⟩ := List.mem_flatMap.1 hpath
    obtain ⟨name, hname, rfl⟩ := List.mem_map.1 hpath
    have hname' := segmentNames_subset segment hname
    exact List.mem_flatMap.2 ⟨directory, h hdirectory, List.mem_map_of_mem hname'⟩

/-- A pattern finds no less in a recursive search. -/
theorem expand_subset (text : List Char) :
    expand edition tree false text ⊆ expand edition tree true text := by
  unfold expand
  dsimp only
  split
  · exact List.Subset.refl _
  · exact expandSegments_subset _ (List.Subset.refl _)

end Glob

/-! ## Directories and searches -/

namespace Search

variable {search : Search}

theorem filesIn_subset (directory : List Char) (tree : FileTree) :
    filesIn directory tree ⊆ filesBelow directory tree := by
  intro path hpath
  obtain ⟨child, hchild, hfile⟩ := mem_filesIn.1 hpath
  exact mem_filesBelow.2 ⟨child, hchild, .inl hfile⟩

/-- A path selects no less in a recursive search. -/
theorem selectedBy_subset (path : List Char) :
    selectedBy edition tree false path ⊆ selectedBy edition tree true path := by
  unfold selectedBy
  split
  · simpa using filesIn_subset path _
  · exact Glob.expand_subset path

/-- An argument selects no less in a recursive search. -/
theorem files_alone_flat_subset (argument : String) :
    (search.flat.alone argument).files tree ⊆ (search.deep.alone argument).files tree := by
  intro path hpath
  rw [mem_files_alone] at hpath ⊢
  exact selectedBy_subset _ hpath

/-- Recursion only widens a search that leaves out nothing: each path that is found without it is
found with it, spelled alike.  This holds in every tree and for all path arguments, whether they are
directories, patterns or names of files. -/
theorem recursion_only_widens (search : Search) (tree : FileTree) (paths : List String) :
    (search.flat.asking paths []).files tree ⊆ (search.deep.asking paths []).files tree := by
  intro path hpath
  obtain ⟨⟨argument, hargument, hselected⟩, -⟩ := mem_files_asking_iff.1 hpath
  exact mem_files_asking_iff.2 ⟨⟨argument, hargument, files_alone_flat_subset argument hselected⟩,
    nofun⟩

/-- Schema files at three depths, one of them hidden. -/
def deepTree : FileTree :=
  treeOfFiles ["home/a.json", "home/lib/b.json", "home/lib/sub/c.json", "home/lib/.old/d.json"]

/-- A directory, and a pattern that begins with `**`. -/
def deepSearch : Search where
  root := "/home"
  paths := ["lib", "**/*.json"]
  excludes := []
  recursive := true
  edition := .newer

theorem deepTree_widens :
    (deepSearch.flat.asking deepSearch.paths []).files deepTree = ["/home/lib/b.json"] ∧
      (deepSearch.deep.asking deepSearch.paths []).files deepTree =
        ["/home/a.json", "/home/lib/.old/d.json", "/home/lib/b.json", "/home/lib/sub/c.json"] ∧
      "/home/lib/b.json" ∈ (deepSearch.deep.asking deepSearch.paths []).files deepTree := by
  have hflat : (deepSearch.flat.asking deepSearch.paths []).files deepTree =
      ["/home/lib/b.json"] := by
    decide +kernel
  refine ⟨hflat, by decide +kernel, ?_⟩
  exact recursion_only_widens deepSearch deepTree deepSearch.paths (by simp [hflat])

end Search

end NativeHeader
