import NativeHeader.Number
import NativeHeader.OrderedMap
import NativeHeader.Quoted

/-!
# Documents

A `Document` is a value of the data format that schema files are written in: nothing, a truth
value, a number, a text, a list, or an object with named members.  A schema is not validated before
it is read, so values of any kind can stand anywhere and travel into the schema as they are.

An object keeps its members as they were written.  What counts of them is `entriesOf`: each key
once, at the place where it came first, with the value that came last.
-/

namespace NativeHeader

/-- A value of the schema data format. -/
inductive Document where
  /-- The absent value. -/
  | null
  /-- A truth value. -/
  | bool (value : Bool)
  /-- A whole number. -/
  | integer (value : Whole)
  /-- A number with a fraction or an exponent, or one of the words for what is no finite number. -/
  | decimal (value : Double)
  /-- A text. -/
  | string (text : String)
  /-- A list of values. -/
  | array (items : List Document)
  /-- Named members, as they were written. -/
  | object (members : List (String × Document))
  deriving Inhabited

namespace Document

/-! ## Emptiness -/

/-- Whether a value says nothing: null, false, zero, and the empty text, list and object. -/
def isBlank : Document → Bool
  | null => true
  | bool value => !value
  | integer value => value.value == 0
  | decimal value => value.isZero
  | string text => text.isEmpty
  | array items => items.isEmpty
  | object members => members.isEmpty

/-! ## The text of a value -/

mutual

/-- A value as it stands inside a list or an object that is turned into text. -/
def nestedText : Document → String
  | null => "None"
  | bool true => "True"
  | bool false => "False"
  | integer value => value.text
  | decimal value => value.text
  | string text => Quoted.quoted text
  | array items => "[" ++ ", ".intercalate (nestedTexts items) ++ "]"
  | object members =>
    let shown := (OrderedMap.ofList (memberTexts members)).entries.map fun member =>
      Quoted.quoted member.1 ++ ": " ++ member.2
    "\x7b" ++ ", ".intercalate shown ++ "\x7d"

/-- The items of a list, each as text. -/
def nestedTexts : List Document → List String
  | [] => []
  | item :: rest => nestedText item :: nestedTexts rest

/-- The members of an object, each value as text. -/
def memberTexts : List (String × Document) → List (String × String)
  | [] => []
  | (key, value) :: rest => (key, nestedText value) :: memberTexts rest

end

/-- A value inserted into another text: a text stands for itself. -/
def text : Document → String
  | string text => text
  | value => value.nestedText

end Document

end NativeHeader
