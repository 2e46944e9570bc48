import NativeHeader.Quoted.Visible

/-!
# Texts in quotes

A message that lists texts puts each of them in quotes: in single quotes, or in double quotes where
the text holds a single quote and no double one.  Inside the quotes a backslash, the quote itself,
the line breaks, the tab and every character without a visible form are escaped, so two lists have
the same text only if they are the same list.
-/

namespace NativeHeader.Quoted

/-- The lower-case hexadecimal digits of a number, with zeros in front up to a given width. -/
def hexDigits (width number : Nat) : List Char :=
  let digits := Nat.toDigits 16 number
  List.replicate (width - digits.length) '0' ++ digits

/-- One character as it stands between quotes of the given kind. -/
def escapeChar (quote c : Char) : List Char :=
  if c = quote ∨ c = '\\' then ['\\', c]
  else if c = '\n' then ['\\', 'n']
  else if c = '\r' then ['\\', 'r']
  else if c = '\t' then ['\\', 't']
  else if isVisible c then [c]
  else if c.toNat ≤ 0xff then '\\' :: 'x' :: hexDigits 2 c.toNat
  else if c.toNat ≤ 0xffff then '\\' :: 'u' :: hexDigits 4 c.toNat
  else '\\' :: 'U' :: hexDigits 8 c.toNat

/-- The quote that stands around a text. -/
def quoteFor (text : List Char) : Char :=
  if text.contains '\'' && !text.contains '"' then '"' else '\''

/-- A text in quotes. -/
def quoted (text : String) : String :=
  let quote := quoteFor text.toList
  String.ofList (quote :: text.toList.flatMap (escapeChar quote) ++ [quote])

/-- A list of texts: each in quotes, with commas between them, in square brackets. -/
def listText (texts : List String) : String :=
  "[" ++ ", ".intercalate (texts.map quoted) ++ "]"

end NativeHeader.Quoted
