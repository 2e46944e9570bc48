import NativeHeader.OrderedMap
import NativeHeader.Document

/-!
# Schemas

What a schema file describes: source files with their native modules, each with a table of type
aliases and a list of methods, whose parameters and results have type expressions.  Names, tags and
flags are kept as the values that stand in the document, of whatever kind they are; what they must
be is decided where they are used.
-/

namespace NativeHeader

/-- A property of an object shape, over the type of type expressions. -/
structure Property (α : Type) where
  name : Document
  type : α
  optional : Document

/-- A type expression: its tag, the name that a reserved name or an alias carries, the properties of
an object shape, and the element type of an array. -/
structure TypeExpr where
  tag : Document
  name : Document
  properties : List (Property TypeExpr)
  elementType : Option TypeExpr

/-- A parameter of a method. -/
structure Parameter where
  name : Document
  type : TypeExpr

/-- A method: its name, its parameters in order, and the type of its result. -/
structure Method where
  name : Document
  parameters : List Parameter
  returns : TypeExpr

/-- The type aliases of a module. -/
abbrev AliasTable := OrderedMap TypeExpr

/-- A native module: its aliases, and its methods in the order of their declaration. -/
structure ModuleSpec where
  name : String
  aliases : AliasTable
  methods : List Method

/-- The native modules of the source files, in order; a file may declare none at all. -/
structure Schema where
  modules : OrderedMap (Option (OrderedMap ModuleSpec))

namespace Schema

/-- Adds what one source file declares to the modules of the files before it. -/
def addFile (modules : OrderedMap ModuleSpec) :
    Option (OrderedMap ModuleSpec) → OrderedMap ModuleSpec
  | some declared => modules.putAll declared
  | none => modules

/-- All native modules of all source files: a module that a later file declares again keeps its
place and takes the later declaration. -/
def flatten (schema : Schema) : OrderedMap ModuleSpec :=
  schema.modules.values.foldl addFile .empty

end Schema

end NativeHeader
