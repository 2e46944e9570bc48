import NativeHeader.Document

/-!
# Tokens of the document text format

A document is written in brackets, braces, commas, colons, quoted texts and bare words; blanks,
tabs and line breaks may stand between them.  `tokens` splits a text into these tokens, up to the
first thing that is none: a quoted text must be closed, may hold no control character, and knows
only the escapes of the format; a bare word must be one of the names of constants or a number.

Two tokens are read as what they are and have no value here.  A whole number may have too many
digits, and a quoted text may name half of a pair of code units without the other, so that it is no
row of characters.

The text is read one character at a time.  What has been begun and not finished is the `Mode`, so
every character is looked at once.
-/

namespace NativeHeader.Document

/-- A smallest meaningful piece of a document's text. -/
inductive Token where
  | openBrace
  | closeBrace
  | openBracket
  | closeBracket
  | comma
  | colon
  /-- A quoted text, its escapes resolved. -/
  | text (content : String)
  /-- A quoted text with half of a pair of code units. -/
  | halves
  /-- A constant or a number. -/
  | word (value : Document)
  /-- A whole number with too many digits. -/
  | longNumber
  /-- What is no token, and everything after it. -/
  | broken

namespace Token

/-! ## Bare words -/

/-- A decimal digit. -/
def isDigit (c : Char) : Bool := '0' ≤ c ∧ c ≤ '9'

/-- The value of a hexadecimal digit. -/
def hexDigit? (c : Char) : Option Nat :=
  if '0' ≤ c ∧ c ≤ '9' then some (c.toNat - '0'.toNat)
  else if 'a' ≤ c ∧ c ≤ 'f' then some (c.toNat - 'a'.toNat + 10)
  else if 'A' ≤ c ∧ c ≤ 'F' then some (c.toNat - 'A'.toNat + 10)
  else none

/-- A character that can stand in a constant or a number. -/
def isWordChar (c : Char) : Bool :=
  isDigit c || c.isAlpha || c = '+' || c = '-' || c = '.'

/-- The number that a row of decimal digits stands for. -/
def natOfDigits (digits : List Char) : Nat :=
  digits.foldl (fun number c => 10 * number + (c.toNat - '0'.toNat)) 0

/-- A whole number with a sign. -/
def signed (negative : Bool) (number : Nat) : Int := if negative then -number else number

/-- The digits of a fraction at the beginning of a text, of which there must be one after the point,
and what is left. -/
def fraction? : List Char → Option (List Char × List Char)
  | '.' :: rest =>
    let digits := rest.takeWhile isDigit
    if digits.isEmpty then none else some (digits, rest.dropWhile isDigit)
  | _ => none

/-- The sign at the beginning of a text, and what is left. -/
def signOf : List Char → Bool × List Char
  | '-' :: rest => (true, rest)
  | '+' :: rest => (false, rest)
  | rest => (false, rest)

/-- The exponent at the beginning of a text, which must have a digit, and what is left. -/
def exponent? : List Char → Option (Int × List Char)
  | c :: rest =>
    let (negative, rest) := signOf rest
    let digits := rest.takeWhile isDigit
    if (c ≠ 'e' ∧ c ≠ 'E') ∨ digits.isEmpty then none
    else some (signed negative (natOfDigits digits), rest.dropWhile isDigit)
  | [] => none

/-- A number after its sign: digits with no needless zero in front, then perhaps a fraction and an
exponent.  Without these it is a whole number.  One that is too long is found to be so before
anything that may follow it. -/
def unsigned (negative : Bool) (chars : List Char) : Token :=
  let digits := chars.takeWhile isDigit
  let afterDigits := chars.dropWhile isDigit
  let fraction := fraction? afterDigits
  let afterFraction := (fraction.map Prod.snd).getD afterDigits
  let exponent := exponent? afterFraction
  let rest := (exponent.map Prod.snd).getD afterFraction
  if digits.isEmpty ∨ (digits.head? = some '0' ∧ digits.length ≠ 1) then broken
  else if fraction.isNone ∧ exponent.isNone then
    match Whole.ofInt? (signed negative (natOfDigits digits)) with
    | some value => if rest.isEmpty then word (.integer value) else broken
    | none => longNumber
  else if rest.isEmpty then
    let places := (fraction.map Prod.fst).getD []
    word <| .decimal <| .ofDecimal negative
      ⟨natOfDigits (digits ++ places), (exponent.map Prod.fst).getD 0 - places.length⟩
  else broken

/-- The token that a bare word is. -/
def ofWord (chars : List Char) : Token :=
  match String.ofList chars with
  | "null" => word .null
  | "true" => word (.bool true)
  | "false" => word (.bool false)
  | "NaN" => word (.decimal .nan)
  | "Infinity" => word (.decimal (.infinite false))
  | "-Infinity" => word (.decimal (.infinite true))
  | _ =>
    match chars with
    | '-' :: rest => unsigned true rest
    | _ => unsigned false chars

/-! ## Quoted texts -/

/-- The character that a one-letter escape stands for. -/
def escapedChar? : Char → Option Char
  | '"' => some '"'
  | '\\' => some '\\'
  | '/' => some '/'
  | 'b' => some '\x08'
  | 'f' => some '\x0c'
  | 'n' => some '\n'
  | 'r' => some '\r'
  | 't' => some '\t'
  | _ => none

/-- The first half of a pair of code units. -/
def isHigh (unit : Nat) : Bool := 0xd800 ≤ unit ∧ unit ≤ 0xdbff

/-- The second half of a pair of code units. -/
def isLow (unit : Nat) : Bool := 0xdc00 ≤ unit ∧ unit ≤ 0xdfff

/-- The number of the character that a pair of code units stands for. -/
def joined (high low : Nat) : Nat := 0x10000 + (high - 0xd800) * 0x400 + (low - 0xdc00)

/-- The token that a quoted text is, which is given by the numbers of its characters. -/
def ofQuoted (numbers : List Nat) : Token :=
  if numbers.any fun number => isHigh number || isLow number then halves
  else text (String.ofList (numbers.map Char.ofNat))

/-- Whether a token is a quoted text with half of a pair. -/
def isHalves : Token → Bool
  | halves => true
  | _ => false

/-! ## One character at a time -/

/-- What has been begun and not finished; what has been read of it stands last first. -/
inductive Mode where
  /-- Nothing. -/
  | between
  /-- A bare word. -/
  | word (read : List Char)
  /-- A quoted text. -/
  | quoted (read : List Nat)
  /-- A quoted text, after a backslash. -/
  | escape (read : List Nat)
  /-- A quoted text, inside the number of a code unit: the first half of a pair if there was one,
  how many of its four digits are missing, and what the others say. -/
  | codeUnit (read : List Nat) (high : Option Nat) (missing value : Nat)
  /-- A quoted text, after the first half of a pair. -/
  | pair (read : List Nat) (high : Nat)
  /-- A quoted text, after the first half of a pair and a backslash. -/
  | pairEscape (read : List Nat) (high : Nat)
  /-- Something that is no token. -/
  | broken

/-- The reader between two characters: what is unfinished, and the tokens so far, last first. -/
structure Reading where
  mode : Mode := .between
  done : List Token := []

namespace Reading

/-- The reader after something that is no token. -/
def stopped (done : List Token) : Reading := { mode := .broken, done := .broken :: done }

/-- Reads a character where a token may begin. -/
def begin (done : List Token) (c : Char) : Reading :=
  match c with
  | ' ' | '\t' | '\n' | '\r' => { done := done }
  | '\x7b' => { done := .openBrace :: done }
  | '\x7d' => { done := .closeBrace :: done }
  | '[' => { done := .openBracket :: done }
  | ']' => { done := .closeBracket :: done }
  | ',' => { done := .comma :: done }
  | ':' => { done := .colon :: done }
  | '"' => { mode := .quoted [], done := done }
  | c => if isWordChar c then { mode := .word [c], done := done } else stopped done

/-- Reads a character of a quoted text. -/
def quoted (done : List Token) (read : List Nat) (c : Char) : Reading :=
  if c = '"' then { done := ofQuoted read.reverse :: done }
  else if c = '\\' then { mode := .escape read, done := done }
  else if c.toNat < 0x20 then stopped done
  else { mode := .quoted (c.toNat :: read), done := done }

/-- Reads a character after a backslash. -/
def escape (done : List Token) (read : List Nat) (c : Char) : Reading :=
  if c = 'u' then { mode := .codeUnit read none 4 0, done := done }
  else
    match escapedChar? c with
    | some char => { mode := .quoted (char.toNat :: read), done := done }
    | none => stopped done

/-- What a complete code unit leaves: a first half waits for a second one, which ends the pair. -/
def afterCodeUnit (read : List Nat) (high : Option Nat) (unit : Nat) : Mode :=
  match high with
  | some first =>
    if isLow unit then .quoted (joined first unit :: read)
    else if isHigh unit then .pair (first :: read) unit
    else .quoted (unit :: first :: read)
  | none => if isHigh unit then .pair read unit else .quoted (unit :: read)

/-- Reads one character. -/
def step (reading : Reading) (c : Char) : Reading :=
  let done := reading.done
  match reading.mode with
  | .between => begin done c
  | .word read =>
    if isWordChar c then { mode := .word (c :: read), done := done }
    else
      match ofWord read.reverse with
      | .broken => stopped done
      | token => begin (token :: done) c
  | .quoted read => quoted done read c
  | .escape read => escape done read c
  | .codeUnit read high missing value =>
    match hexDigit? c with
    | some digit =>
      let unit := 16 * value + digit
      if missing ≤ 1 then { mode := afterCodeUnit read high unit, done := done }
      else { mode := .codeUnit read high (missing - 1) unit, done := done }
    | none => stopped done
  | .pair read high =>
    if c = '\\' then { mode := .pairEscape read high, done := done }
    else quoted done (high :: read) c
  | .pairEscape read high =>
    if c = 'u' then { mode := .codeUnit read (some high) 4 0, done := done }
    else escape done (high :: read) c
  | .broken => reading

/-- The tokens read when the text ends: a bare word ends with it, a quoted text must not. -/
def finish (reading : Reading) : List Token :=
  match reading.mode with
  | .between | .broken => reading.done.reverse
  | .word read => (ofWord read.reverse :: reading.done).reverse
  | _ => (.broken :: reading.done).reverse

end Reading

end Token

/-- The tokens of a text. -/
def tokens (text : List Char) : List Token := (text.foldl Token.Reading.step {}).finish

end NativeHeader.Document
