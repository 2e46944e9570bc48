import NativeHeader.Proofs.Selecting

/-!
# Directories and the patterns for them

The schema files of a directory can also be asked for by a pattern (`schemaPattern`).  A pattern
passes over hidden names and does not ask whether it finds a file, a directory does the opposite.
Apart from that the two find the same (`mem_selectedBy_iff_pattern`), and they spell it the same way
(`directory_search_agrees_with_pattern`).
-/

namespace NativeHeader.Search

open NativeHeader.Path (Name IsStep IsProper)
open NativeHeader.FileTree (WellNamed)

variable {search : Search} {edition : Edition} {tree : FileTree} {recursive : Bool}
  {base path relative : List Char} {name : Name} {row : List Name}

/-- A wildcard in the name of the directory in which a search begins is one of the pattern too, so
the directory and the pattern for it need not agree there. -/
theorem wildcard_before_argument_counts :
    ¬ ∀ (tree : FileTree) (search : Search) (base path : String), tree.WellNamed →
      tree.hasDirectory (search.fullPath base).toList = true → base ≠ "" →
      base.toList.getLast? ≠ some '/' → Glob.isMagic base.toList = false →
      path ∈ (search.flat.alone base).files tree → tree.hasFile path.toList = true →
      Path.isHidden (Path.lastName path.toList) = false →
        path ∈ (search.flat.alone (base ++ "/*.json")).files tree := by
  intro h
  have hwell : (treeOfFiles ["a[1]/sub/b.json"]).WellNamed := wellNamed_treeOfFiles (by decide)
  have hfound := h (treeOfFiles ["a[1]/sub/b.json"])
    { root := "/a[1]", paths := [], excludes := [], recursive := false, edition := .newer } "sub"
    "/a[1]/sub/b.json" hwell (by decide) (by decide) (by decide) (by decide) (by decide) (by decide)
    (by decide)
  revert hfound
  decide

end NativeHeader.Search
