import NativeHeader.Quoted

/-!
# Arguments

What a run is asked to do, the options that say so, and what each option does.  An option that is
given again replaces what was given before.  An option given without a value leaves its name open;
where a name is shown, an open one is shown as an empty list.
-/

namespace NativeHeader

/-- What a run is asked to do. -/
structure Arguments where
  paths : List String := ["**/*.json"]
  excludes : List String := []
  recursive : Bool := false
  libraryName : Option String := some ""
  moduleSpecName : Option String := some ""
  format : Bool := false
  verbose : Bool := false
  deriving DecidableEq

/-- The text by which a name is shown. -/
def Arguments.shownName (name : Option String) : String := name.getD (Quoted.listText [])

/-- How many values follow an option. -/
inductive Arity where
  | none
  | one
  | oneOrMore
  deriving DecidableEq

/-- The options of the command line. -/
inductive Flag where
  | help
  | paths
  | excludes
  | recursive
  | libraryName
  | moduleSpecName
  | format
  | verbose
  deriving DecidableEq

namespace Flag

/-- All options. -/
def all : List Flag :=
  [help, paths, excludes, recursive, libraryName, moduleSpecName, format, verbose]

theorem mem_all (flag : Flag) : flag ∈ all := by cases flag <;> decide

/-- The letter of an option; it is written after one hyphen. -/
def letter? : Flag → Option Char
  | help => some 'h'
  | paths => some 'p'
  | excludes => some 'e'
  | recursive => some 'r'
  | libraryName => some 'l'
  | moduleSpecName => some 'm'
  | format => none
  | verbose => some 'v'

/-- The name of an option; it is written after two hyphens. -/
def name : Flag → String
  | help => "help"
  | paths => "paths"
  | excludes => "excludes"
  | recursive => "recursive"
  | libraryName => "library-name"
  | moduleSpecName => "module-spec-name"
  | format => "clang-format"
  | verbose => "verbose"

/-- How many values an option takes. -/
def arity : Flag → Arity
  | help => .none
  | paths => .oneOrMore
  | excludes => .oneOrMore
  | recursive => .none
  | libraryName => .one
  | moduleSpecName => .one
  | format => .none
  | verbose => .none

/-- The option with a letter. -/
def ofLetter? (c : Char) : Option Flag := all.find? (·.letter? = some c)

/-- The options whose name begins with a text. -/
def withBeginning (text : List Char) : List Flag :=
  all.filter fun flag => text.isPrefixOf flag.name.toList

/-- The option with a name. -/
def ofName? (text : List Char) : Option Flag := all.find? (·.name.toList = text)

/-- What an option with its values does to the arguments; a request for help does nothing to
them. -/
def apply (flag : Flag) (values : List String) (a : Arguments) : Arguments :=
  match flag with
  | help => a
  | paths => { a with paths := values }
  | excludes => { a with excludes := values }
  | recursive => { a with recursive := true }
  | libraryName => { a with libraryName := values.head? }
  | moduleSpecName => { a with moduleSpecName := values.head? }
  | format => { a with format := true }
  | verbose => { a with verbose := true }

end Flag

end NativeHeader
