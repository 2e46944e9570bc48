/-!
# C++ types in declarations

A C++ type as it appears in a generated declaration: its name, and how a parameter of the type is
passed.  Only parameters know about passing; a result is always written with the bare name.
-/

namespace NativeHeader

/-- How a parameter is passed. -/
inductive Passing where
  | value
  | constReference
  /-- Any other word; it declares the parameter as `value` does. -/
  | other (word : String)
  deriving DecidableEq

namespace Passing

/-- The word for a way of passing. -/
def word : Passing → String
  | value => "value"
  | constReference => "const_reference"
  | other word => word

/-- The way of passing that a word stands for. -/
def ofWord (word : String) : Passing :=
  if word = "value" then value else if word = "const_reference" then constReference else other word

end Passing

/-- A C++ type that can appear in a generated declaration. -/
structure CxxType where
  name : String
  passing : Passing := .value
  deriving DecidableEq

namespace CxxType

/-- Whether parameters of the type are passed by constant reference. -/
def isByReference (type : CxxType) : Bool := type.passing = .constReference

/-- The declaration of a parameter of the type. -/
def parameter (type : CxxType) (name : String) : String :=
  if type.isByReference then "const " ++ type.name ++ " &" ++ name else type.name ++ " " ++ name

def double : CxxType := { name := "double" }
def void : CxxType := { name := "void" }
def int : CxxType := { name := "int" }
def bool : CxxType := { name := "bool" }
def jsiString : CxxType := { name := "jsi::String", passing := .constReference }
def jsiObject : CxxType := { name := "jsi::Object", passing := .constReference }
def jsiArray : CxxType := { name := "jsi::Array", passing := .constReference }
def jsiFunction : CxxType := { name := "jsi::Function", passing := .constReference }
def jsiValue : CxxType := { name := "jsi::Value", passing := .constReference }

/-- The parameter that stands first in every generated method. -/
def runtimeParameter : String := "jsi::Runtime &rt"

end CxxType

end NativeHeader
