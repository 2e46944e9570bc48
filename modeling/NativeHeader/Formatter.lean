import NativeHeader.Header
import NativeHeader.Utf8

/-!
# Formatting the header

An installed formatter may be called on the finished header.  Formatting is a service, not a duty:
if the formatter is missing or fails, the header stays as it is, and the log says so.  Only what a
formatter writes when it succeeds counts, and that must be text.
-/

namespace NativeHeader

/-- How a call of the formatter ends. -/
inductive FormatterOutcome where
  /-- There is no such program. -/
  | missing
  /-- It fails and has written something about it. -/
  | failed (failure : Failure) (complaint : List UInt8)
  /-- It succeeds and has written the formatted text. -/
  | succeeded (output : List UInt8)

/-- A formatter, by how its calls end. -/
abbrev Formatter := FormatterCall → FormatterOutcome

namespace Formatter

/-- The command by which the formatter is called. -/
def command : List String := ["clang-format", "--assume-filename", outputFileName]

/-- The call that formats a text. -/
def callOn (text : String) : FormatterCall := { command, input := Utf8.encode text }

/-- Formats a text, if it can be done. -/
def format (formatter : Formatter) (text : String) : Traced String := do
  Traced.act (.format (callOn text))
  match formatter (callOn text) with
  | .missing =>
    Traced.report .formatterMissing
    return text
  | .failed failure complaint =>
    Traced.report (.formatterFailed command failure)
    Traced.report (.formatterComplained (String.ofList (Utf8.decodeLossy complaint)))
    return text
  | .succeeded output => Traced.of (String.ofList <$> Utf8.decode output)

end Formatter

end NativeHeader
