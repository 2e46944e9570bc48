import NativeHeader.Edition
import NativeHeader.FileTree
import NativeHeader.Glob.Wildcard

/-!
# Path patterns

A path pattern is a path whose names may be wildcard patterns.  Everything before the first such
name is followed as it is spelled.  From there the names are taken one by one, and each of them is
looked for in the directories found so far; the paths found are spelled by joining.  Several slashes
between names count as one there, and slashes at the end ask for directories.

A wildcard finds a hidden name only if it begins with a dot itself.  In a recursive search the name
`**` finds the place where it stands and everything below it that can be reached through names that
are not hidden; otherwise it is an ordinary wildcard.  In the older edition the place itself is
found whether or not there is a directory, in the newer one there must be one.
-/

namespace NativeHeader.Glob

open NativeHeader.Path (Name)

/-- A path pattern: what is followed as it is spelled, and the names that are looked for. -/
structure Pattern where
  base : List Char
  segments : List Name
  deriving DecidableEq

namespace Pattern

/-- The segments of the part of a pattern that begins with its first wildcard. -/
def segmentsOf (text : List Char) : List Name :=
  let named := (Path.names text).filter (· ≠ [])
  if text.getLast? = some '/' then named ++ [[]] else named

/-- The pattern that a text describes. -/
def ofText (text : List Char) : Pattern :=
  let plain := text.takeWhile fun c => !isMagicChar c
  if plain.length = text.length then { base := text, segments := [] }
  else
    { base := Path.parent plain
      segments := segmentsOf (text.drop (Path.throughLastSlash plain).length) }

end Pattern

/-- The name that stands for any depth in a recursive search. -/
def anyDepth : Name := ['*', '*']

mutual

/-- The paths, from a directory, of what lies below it and is not hidden, with what is there. -/
def visibleBelow : FileTree → List (List Char × FileTree)
  | .file _ => []
  | .directory entries => visibleEntries entries

/-- The same for a list of entries. -/
def visibleEntries : List (Name × FileTree) → List (List Char × FileTree)
  | [] => []
  | (name, entry) :: rest =>
    if Path.isHidden name then visibleEntries rest
    else
      (name, entry) :: (visibleBelow entry).map (fun found => (Path.join name found.1, found.2))
        ++ visibleEntries rest

end

/-- Leaves only directories, where it is asked for. -/
def keepDirectories (onlyDirectories : Bool) (found : List (List Char × FileTree)) :
    List (List Char) :=
  (found.filter fun entry => !onlyDirectories || entry.2.isDirectory).map Prod.fst

/-- The names in a directory that a wildcard finds. -/
def wildcardNames (tree : FileTree) (onlyDirectories : Bool) (directory : List Char)
    (wildcard : Name) : List (List Char) :=
  (keepDirectories onlyDirectories (tree.list directory)).filter fun name =>
    (Path.isHidden wildcard || !Path.isHidden name) && matchesName wildcard name

/-- The name of the place itself where `**` stands, if it is found. -/
def placeNames (edition : Edition) (tree : FileTree) (directory : List Char) : List (List Char) :=
  match edition with
  | .older => [[]]
  | .newer => if tree.hasDirectory directory then [[]] else []

/-- The place itself, and what lies below it at any depth. -/
def deepNames (edition : Edition) (tree : FileTree) (onlyDirectories : Bool)
    (directory : List Char) : List (List Char) :=
  placeNames edition tree directory ++
    match tree.at? directory with
    | some found => keepDirectories onlyDirectories (visibleBelow found)
    | none => []

/-- What a plain name finds in a directory: itself, if it is there.  The empty name after a slash
at the end is there if the directory is one. -/
def plainNames (tree : FileTree) (directory : List Char) (name : Name) : List (List Char) :=
  if name = [] then if tree.hasDirectory directory then [[]] else []
  else if tree.exists? (Path.join directory name) then [name] else []

/-- What one segment finds in a directory. -/
def segmentNames (edition : Edition) (tree : FileTree) (recursive onlyDirectories : Bool)
    (segment : Name) (directory : List Char) : List (List Char) :=
  if !isMagic segment then plainNames tree directory segment
  else if recursive && segment = anyDepth then deepNames edition tree onlyDirectories directory
  else wildcardNames tree onlyDirectories directory segment

/-- Looks for segments one after another, from the directories found so far.  All but the last must
be directories. -/
def expandSegments (edition : Edition) (tree : FileTree) (recursive : Bool) :
    List Name → List (List Char) → List (List Char)
  | [], found => found
  | segment :: rest, found =>
    expandSegments edition tree recursive rest <| found.flatMap fun directory =>
      (segmentNames edition tree recursive (!rest.isEmpty) segment directory).map
        (Path.join directory)

/-- Whether a path without wildcards is there; one that ends in a slash must be a directory. -/
def plainPathExists (tree : FileTree) (path : List Char) : Bool :=
  if Path.lastName path = [] then tree.hasDirectory (Path.parent path) else tree.exists? path

/-- The paths that a pattern finds in a tree. -/
def expand (edition : Edition) (tree : FileTree) (recursive : Bool) (text : List Char) :
    List (List Char) :=
  let pattern := Pattern.ofText text
  if pattern.segments.isEmpty then if plainPathExists tree pattern.base then [pattern.base] else []
  else expandSegments edition tree recursive pattern.segments [pattern.base]

end NativeHeader.Glob
