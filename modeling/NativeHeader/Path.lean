/-!
# Path texts

A path is a text of names with slashes between them.  It is used as it is spelled: `a//x`, `./a/x`
and `a/x` lead to the same file and are three different paths.  Here are the operations on the
spelling; where a path leads is a matter of the tree it is followed in.
-/

namespace NativeHeader.Path

/-- A name: one step of a path. -/
abbrev Name := List Char

/-- The names of a path with the empty ones between, before and after slashes. -/
def names : List Char → List Name
  | [] => [[]]
  | c :: rest =>
    if c = '/' then [] :: names rest
    else
      match names rest with
      | [] => [[c]]
      | name :: more => (c :: name) :: more

/-- The path of a name in a directory.  The empty path stands for the directory in which paths
begin, so nothing is put in front of the name. -/
def join (directory : List Char) (name : Name) : List Char :=
  if directory = [] then name
  else if directory.getLast? = some '/' then directory ++ name
  else directory ++ '/' :: name

/-- The path that a path stands for when it is used in a directory: one that begins with a slash
stands for itself. -/
def resolve (directory path : List Char) : List Char :=
  if path.head? = some '/' then path else join directory path

/-- Without the slashes at the end. -/
def trimSlashes (path : List Char) : List Char := (path.reverse.dropWhile (· = '/')).reverse

/-- Without the slashes at the end, unless there is nothing else. -/
def dropTrailingSlashes (path : List Char) : List Char :=
  if trimSlashes path = [] then path else trimSlashes path

/-- The path up to its last slash, that one included. -/
def throughLastSlash (path : List Char) : List Char := (path.reverse.dropWhile (· ≠ '/')).reverse

/-- The last name of a path: what comes after the last slash. -/
def lastName (path : List Char) : Name := (path.reverse.takeWhile (· ≠ '/')).reverse

/-- The directory that a path names before its last name. -/
def parent (path : List Char) : List Char := dropTrailingSlashes (throughLastSlash path)

/-- Whether a name is hidden from wildcards. -/
def isHidden (name : Name) : Bool := name.head? = some '.'

theorem names_ne_nil (path : List Char) : names path ≠ [] := by
  cases path with
  | nil => simp [names]
  | cons c rest =>
    unfold names
    split
    · simp
    · split <;> simp

@[simp] theorem join_nil (name : Name) : join [] name = name := by simp [join]

theorem throughLastSlash_append_lastName (path : List Char) :
    throughLastSlash path ++ lastName path = path := by
  rw [throughLastSlash, lastName, ← List.reverse_append, List.takeWhile_append_dropWhile,
    List.reverse_reverse]

end NativeHeader.Path
