import NativeHeader.CxxType

/-!
# Kinds of type expression

The thirteen kinds of type expression that a schema knows, the tag that marks each of them, and the
C++ type that eleven of them have in a header.  Of the other two, a reserved name has a type of its
own, and an alias has the type of the expression it stands for.
-/

namespace NativeHeader

/-- What kind of type an expression describes. -/
inductive Kind where
  | reserved
  | void
  | string
  | number
  | float
  | int32
  | boolean
  | genericObject
  | object
  | array
  | function
  | promise
  | typeAlias
  deriving DecidableEq

namespace Kind

/-- All kinds. -/
def all : List Kind :=
  [reserved, void, string, number, float, int32, boolean, genericObject, object, array, function,
   promise, typeAlias]

theorem mem_all (kind : Kind) : kind ∈ all := by cases kind <;> decide

/-- The tag that marks a kind in a schema. -/
def tag : Kind → String
  | reserved => "ReservedFunctionValueTypeAnnotation"
  | void => "VoidTypeAnnotation"
  | string => "StringTypeAnnotation"
  | number => "NumberTypeAnnotation"
  | float => "FloatTypeAnnotation"
  | int32 => "Int32TypeAnnotation"
  | boolean => "BooleanTypeAnnotation"
  | genericObject => "GenericObjectTypeAnnotation"
  | object => "ObjectTypeAnnotation"
  | array => "ArrayTypeAnnotation"
  | function => "FunctionTypeAnnotation"
  | promise => "GenericPromiseTypeAnnotation"
  | typeAlias => "TypeAliasTypeAnnotation"

/-- The kind that a tag marks. -/
def ofTag? (text : String) : Option Kind := all.find? (·.tag = text)

theorem ofTag?_tag (kind : Kind) : ofTag? kind.tag = some kind := by
  cases kind <;> decide

theorem ofTag?_eq_some_iff {text : String} {kind : Kind} :
    ofTag? text = some kind ↔ text = kind.tag := by
  constructor
  · intro h
    have hk := List.find?_some h
    exact (of_decide_eq_true hk).symm
  · rintro rfl
    exact ofTag?_tag kind

/-- The C++ type of a kind. -/
def cxxType? : Kind → Option CxxType
  | reserved => none
  | void => some .void
  | string => some .jsiString
  | number => some .double
  | float => some .double
  | int32 => some .int
  | boolean => some .bool
  | genericObject => some .jsiObject
  | object => some .jsiObject
  | array => some .jsiArray
  | function => some .jsiFunction
  | promise => some .jsiValue
  | typeAlias => none

/-- The C++ type of the kind that a tag marks. -/
def typeOfTag? (text : String) : Option CxxType := (ofTag? text).bind cxxType?

/-- The reserved names, each with its C++ type. -/
def reservedTypes : List (String × CxxType) := [("RootTag", .double)]

/-- The C++ type of a reserved name. -/
def typeOfReserved? (name : String) : Option CxxType := reservedTypes.lookup name

end Kind

end NativeHeader
