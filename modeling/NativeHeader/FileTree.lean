import NativeHeader.Fault
import NativeHeader.Path

/-!
# File trees

A `FileTree` is what can be found below a directory: files with their bytes, and directories.  Paths
are followed from the top of the tree.  An empty name and `.` stay in a directory, so a slash at the
beginning changes nothing; `..` goes back to the directory above, and stays at the top, above which
there is none.
-/

namespace NativeHeader

open NativeHeader.Path (Name)

/-- A file, or a directory with what it holds by name. -/
inductive FileTree where
  | file (content : List UInt8)
  | directory (entries : List (Name × FileTree))
  deriving Inhabited

namespace FileTree

/-- Whether this is a file. -/
def isFile : FileTree → Bool
  | file _ => true
  | directory _ => false

/-- Whether this is a directory. -/
def isDirectory : FileTree → Bool
  | file _ => false
  | directory _ => true

/-- What a directory holds; a file holds nothing. -/
def children : FileTree → List (Name × FileTree)
  | file _ => []
  | directory entries => entries

/-! ## Following a path -/

/-- Follows names from a place in the tree, of which the directories above it are known, nearest
first. -/
def follow (above : List FileTree) (here : FileTree) : List Name → Except Fault FileTree
  | [] => .ok here
  | name :: rest =>
    match here with
    | file _ => .error .pathBelowFile
    | directory entries =>
      if name = [] ∨ name = ['.'] then follow above here rest
      else if name = ['.', '.'] then
        match above with
        | parent :: further => follow further parent rest
        | [] => follow [] here rest
      else
        match entries.lookup name with
        | some child => follow (here :: above) child rest
        | none => .error .nothingAtPath

/-- What is found under a path from the top of the tree. -/
def find (tree : FileTree) (path : List Char) : Except Fault FileTree :=
  follow [] tree (Path.names path)

/-- What is found under a path, if anything is. -/
def at? (tree : FileTree) (path : List Char) : Option FileTree := (tree.find path).toOption

/-- Whether something is found under a path. -/
def exists? (tree : FileTree) (path : List Char) : Bool := (tree.at? path).isSome

/-- Whether a path leads to a file. -/
def hasFile (tree : FileTree) (path : List Char) : Bool := (tree.at? path).any isFile

/-- Whether a path leads to a directory. -/
def hasDirectory (tree : FileTree) (path : List Char) : Bool := (tree.at? path).any isDirectory

/-- What the directory under a path holds. -/
def list (tree : FileTree) (path : List Char) : List (Name × FileTree) :=
  match tree.at? path with
  | some found => found.children
  | none => []

/-! ## Building a tree -/

/-- Puts an entry under a name. -/
def putEntry (name : Name) (entry : FileTree) : List (Name × FileTree) → List (Name × FileTree)
  | [] => [(name, entry)]
  | first :: rest =>
    if first.1 = name then (name, entry) :: rest else first :: putEntry name entry rest

/-- Puts an entry at the end of a row of names, making the directories on the way. -/
def insert (entry : FileTree) : List Name → FileTree → FileTree
  | [], _ => entry
  | name :: rest, tree =>
    let below := (tree.children.lookup name).getD (directory [])
    directory (putEntry name (insert entry rest below) tree.children)

end FileTree

end NativeHeader
