import NativeHeader.Glob
import NativeHeader.Sorted

/-!
# Searching for schema files

A search is asked for paths and for what to leave out.  Both kinds of arguments are used in the
directory in which the search begins (`fullPath`).  A path that leads to a directory selects the
schema files in it, or in a recursive search those at any depth; every other path is a pattern.
What is left out is named by a path to a file or, failing that, by a pattern.  The result lists the
selected paths that are not left out, in increasing order, each spelling once.

The directory in which a search begins is written before an argument as it is.  So a wildcard in its
own name is a wildcard of every pattern that is used in it.
-/

namespace NativeHeader

open NativeHeader.Path (Name)

/-- What to search for, and where. -/
structure Search where
  /-- The directory in which the search begins. -/
  root : String
  paths : List String
  excludes : List String
  recursive : Bool
  edition : Edition

namespace Search

/-- The end of a schema file's name. -/
def schemaSuffix : Name := ['.', 'j', 's', 'o', 'n']

/-- Whether a name is that of a schema file. -/
def isSchemaName (name : Name) : Bool := schemaSuffix.isSuffixOf name

/-! ## Directories -/

/-- The schema files directly in a directory. -/
def filesIn (directory : List Char) (tree : FileTree) : List (List Char) :=
  (tree.children.filter fun entry => entry.2.isFile && isSchemaName entry.1).map fun entry =>
    Path.join directory entry.1

mutual

/-- The schema files at any depth below a directory. -/
def filesBelow (directory : List Char) : FileTree → List (List Char)
  | .file _ => []
  | .directory entries => filesBelowEntries directory entries

/-- The schema files among a list of entries and below them. -/
def filesBelowEntries (directory : List Char) : List (Name × FileTree) → List (List Char)
  | [] => []
  | (name, .file _) :: rest =>
    if isSchemaName name then Path.join directory name :: filesBelowEntries directory rest
    else filesBelowEntries directory rest
  | (name, .directory entries) :: rest =>
    filesBelowEntries (Path.join directory name) entries ++ filesBelowEntries directory rest
termination_by entries => sizeOf entries
decreasing_by
  all_goals simp only [List.cons.sizeOf_spec, Prod.mk.sizeOf_spec, FileTree.directory.sizeOf_spec]
  all_goals omega

end

/-! ## Selecting and leaving out -/

/-- The path that an argument stands for. -/
def fullPath (search : Search) (argument : String) : String :=
  String.ofList (Path.resolve search.root.toList argument.toList)

/-- What a path selects. -/
def selectedBy (edition : Edition) (tree : FileTree) (recursive : Bool) (path : List Char) :
    List (List Char) :=
  match tree.at? path with
  | some (.directory entries) =>
    if recursive then filesBelow path (.directory entries) else filesIn path (.directory entries)
  | _ => Glob.expand edition tree recursive path

/-- What a path leaves out. -/
def excludedBy (edition : Edition) (tree : FileTree) (recursive : Bool) (path : List Char) :
    List (List Char) :=
  if tree.hasFile path then [path] else Glob.expand edition tree recursive path

/-- What one path argument selects. -/
def selected (search : Search) (tree : FileTree) (argument : String) : List (List Char) :=
  selectedBy search.edition tree search.recursive (search.fullPath argument).toList

/-- What one exclude argument leaves out. -/
def excluded (search : Search) (tree : FileTree) (argument : String) : List (List Char) :=
  excludedBy search.edition tree search.recursive (search.fullPath argument).toList

/-- The paths found, in increasing order. -/
def run (search : Search) (tree : FileTree) : List (List Char) :=
  let selected := search.paths.flatMap (search.selected tree)
  let excluded := search.excludes.flatMap (search.excluded tree)
  Sorted.ofList (selected.filter (· ∉ excluded))

/-- The paths found, as texts. -/
def files (search : Search) (tree : FileTree) : List String := (search.run tree).map String.ofList

end Search

end NativeHeader
