import NativeHeader.Document

/-!
# Faults

Everything that can go wrong between the schema files and the header, by cause.  A schema is not
validated, so a value of the wrong kind fails at the place where it is used, with the fault of that
use; `Fault.message` is the text of those faults that have one.
-/

namespace NativeHeader

/-- Why a schema could not be found, read, loaded, or turned into a header. -/
inductive Fault where
  /-- A type expression has no counterpart in the header: where it stands, and the tag or reserved
  name that is not in the table. -/
  | unsupportedType (context : String) (typeName : Document)
  /-- A key is not in the object or table it is looked up in; it is given as text. -/
  | missingKey (key : String)
  /-- A value was given under the name that stands for the template itself. -/
  | valueForTemplate
  /-- Values were given for names that are no slots of the template. -/
  | unknownSlots (names : List String)
  /-- A slot of the template was given no value. -/
  | missingSlotValue (slot : String)
  /-- A field was read from a value that is not an object. -/
  | fieldOfNonObject
  /-- An optional field or the members were asked of a value that is not an object. -/
  | membersOfNonObject
  /-- A value that holds no items was walked through. -/
  | itemsOfNonList
  /-- A list or an object was looked up in a table. -/
  | compoundKey
  /-- A value that is not a text was put into a slot. -/
  | slotValueNotText
  /-- A file's text is not a document. -/
  | malformedDocument
  /-- A document's text writes a whole number with too many digits. -/
  | numberTooLong
  /-- A text in a document names half of a pair of code units.  It is no row of characters, so what
  follows from it is not described here. -/
  | halfPair
  /-- Bytes are not the encoding of a text. -/
  | malformedEncoding
  /-- The search matched no schema file; the path arguments are given. -/
  | noSchemaFiles (paths : List String)
  /-- Nothing is found under a path. -/
  | nothingAtPath
  /-- A directory was opened as a file. -/
  | directoryAtPath
  /-- A path goes on below a file. -/
  | pathBelowFile
  /-- The standard output does not take a text. -/
  | outputRefused
  /-- A module has no method with the given number. -/
  | noSuchMethod
  deriving Inhabited

namespace Fault

/-- The text of a fault; a fault whose text carries no meaning of its own has none. -/
def message : Fault → Option String
  | unsupportedType context typeName =>
    some ("Unsupported type for " ++ context ++ ". Found: " ++ typeName.text)
  | missingKey key => some key
  | unknownSlots names =>
    some ("The template has no slot(s) named " ++ Quoted.listText names ++ ".")
  | missingSlotValue slot =>
    some ("No value was provided for the template slot '" ++ slot ++ "'.")
  | noSchemaFiles paths =>
    some ("No schema files found for " ++ Quoted.listText paths ++ ".")
  | _ => none

end Fault

end NativeHeader
