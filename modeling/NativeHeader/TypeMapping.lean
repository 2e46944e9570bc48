import NativeHeader.Document.Access
import NativeHeader.Kind
import NativeHeader.Schema

/-!
# From type expressions to C++ types

A type expression is first resolved: an alias stands for the expression that the alias table of its
module gives it.  This is done once; an alias that stands for another alias has no C++ type.  The
resolved expression is then looked up, by its name if it is a reserved one and by its tag otherwise.
-/

namespace NativeHeader

namespace TypeExpr

/-- The kind that the expression's tag marks. -/
def kind? (expr : TypeExpr) : Option Kind :=
  match expr.tag with
  | .string tag => Kind.ofTag? tag
  | _ => none

/-- Whether the expression stands for another one. -/
def isAlias (expr : TypeExpr) : Bool := expr.kind? = some .typeAlias

/-- Whether the expression is looked up by its name. -/
def isReserved (expr : TypeExpr) : Bool := expr.kind? = some .reserved

/-- The expression itself, or the one that the alias stands for. -/
def resolve (aliases : AliasTable) (expr : TypeExpr) : Except Fault TypeExpr := do
  if expr.isAlias then
    match ← expr.name.lookupIn aliases.get? with
    | some shape => return shape
    | none => throw (.missingKey expr.name.text)
  else
    return expr

/-- The C++ type of a resolved expression.  The context says where the expression stands. -/
def resolvedType (context : String) (expr : TypeExpr) : Except Fault CxxType := do
  if expr.isReserved then
    match ← expr.name.lookupIn Kind.typeOfReserved? with
    | some type => return type
    | none => throw (.unsupportedType context (.string expr.name.text))
  else
    match ← expr.tag.lookupIn Kind.typeOfTag? with
    | some type => return type
    | none => throw (.unsupportedType context expr.tag)

/-- The C++ type of a type expression in a module with the given aliases. -/
def cxxType (aliases : AliasTable) (context : String) (expr : TypeExpr) :
    Except Fault CxxType := do
  (← expr.resolve aliases).resolvedType context

end TypeExpr

end NativeHeader
