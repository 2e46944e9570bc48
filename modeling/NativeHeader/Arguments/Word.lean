import NativeHeader.Arguments
import NativeHeader.Edition

/-!
# Words of a command line

What a single word of a command line is: a value, or the spelling of options.  An option is spelled
by its letter after one hyphen or by its name after two.  A name may be cut short as long as no
other option begins alike, and `=` may attach a value to it.  After a letter the rest of the word is
an attached value if the option takes one; if not, it is the letter of a further option with its own
rest.

The editions differ in what may stand after a letter.  The newer one takes a `=` there for what
attaches a value, so none may follow an option without values; and it leaves a rest that begins with
no option's letter, as a word that nothing takes.  The older one refuses such a rest, and passes
over one `=` after the first letter whatever follows.

A word that begins with a hyphen and spells no option is still a value if it is a lone hyphen, a
negative number, or has a space in it.
-/

namespace NativeHeader

/-! ## Negative numbers -/

/-- The zeros of all scripts that have decimal digits; the nine other digits follow each of them. -/
def decimalZeros : List Nat :=
  [0x30, 0x660, 0x6f0, 0x7c0, 0x966, 0x9e6, 0xa66, 0xae6, 0xb66, 0xbe6, 0xc66, 0xce6, 0xd66,
   0xde6, 0xe50, 0xed0, 0xf20, 0x1040, 0x1090, 0x17e0, 0x1810, 0x1946, 0x19d0, 0x1a80, 0x1a90,
   0x1b50, 0x1bb0, 0x1c40, 0x1c50, 0xa620, 0xa8d0, 0xa900, 0xa9d0, 0xa9f0, 0xaa50, 0xabf0,
   0xff10, 0x104a0, 0x10d30, 0x11066, 0x110f0, 0x11136, 0x111d0, 0x112f0, 0x11450, 0x114d0,
   0x11650, 0x116c0, 0x11730, 0x118e0, 0x11950, 0x11c50, 0x11d50, 0x11da0, 0x16a60, 0x16ac0,
   0x16b50, 0x1d7ce, 0x1d7d8, 0x1d7e2, 0x1d7ec, 0x1d7f6, 0x1e140, 0x1e2f0, 0x1e950, 0x1fbf0]

/-- A decimal digit of any script. -/
def isDecimalDigit (c : Char) : Bool :=
  decimalZeros.any fun first => first ≤ c.toNat ∧ c.toNat < first + 10

/-- Digits, or digits after a point with perhaps some before it.  A line break may end the text. -/
def isUnsignedNumber (text : List Char) : Bool :=
  let text := if text.getLast? = some '\n' then text.dropLast else text
  match text.dropWhile isDecimalDigit with
  | [] => !text.isEmpty
  | '.' :: fraction => !fraction.isEmpty && fraction.all isDecimalDigit
  | _ => false

/-! ## Spellings of options -/

/-- How the options spelled by one word end. -/
inductive Ending where
  /-- An option whose values follow, as many as it takes. -/
  | open (flag : Flag)
  /-- An option with the value attached to it. -/
  | attached (flag : Flag) (value : String)
  /-- Letters that are no option's. -/
  | left
  deriving DecidableEq

/-- The options spelled by one word: some that take no values, and how they end. -/
structure Spelling where
  leading : List Flag := []
  ending : Ending
  deriving DecidableEq

namespace Spelling

/-- Puts an option without values in front. -/
def cons (flag : Flag) (s : Spelling) : Spelling := { s with leading := flag :: s.leading }

/-- An option with a value attached to it, if it takes one. -/
def withValue? (flag : Flag) (value : List Char) : Option Spelling :=
  if flag.arity = .none then none else some { ending := .attached flag (String.ofList value) }

/-- An option given by its letter with some text after it, if the text can stand there. -/
def ofLetters? (edition : Edition) (flag : Flag) : List Char → Option Spelling
  | [] => some { ending := .open flag }
  | c :: rest =>
    if flag.arity ≠ .none then
      withValue? flag (if edition = .newer ∧ c = '=' then rest else c :: rest)
    else
      match Flag.ofLetter? c with
      | some next => (ofLetters? edition next rest).map (cons flag)
      | none =>
        if edition = .older ∨ c = '=' ∨ c = '-' then none
        else some { leading := [flag], ending := .left }

/-- An option given by the letter after the hyphen, with the text after the letter. -/
def afterLetter? (edition : Edition) (flag : Flag) (text : List Char) : Option Spelling :=
  match edition, text with
  | .older, ['='] => withValue? flag []
  | .older, '=' :: text => ofLetters? .older flag text
  | edition, text => ofLetters? edition flag text

end Spelling

/-- What a word of a command line is. -/
inductive Word where
  /-- A value. -/
  | value (text : String)
  /-- Options, or nothing where an option that takes no values has something attached to it that
  cannot stand there. -/
  | options (spelling : Option Spelling)
  /-- Looks like an option but is none. -/
  | unknown
  /-- The beginning of more than one option's name. -/
  | ambiguous
  deriving DecidableEq

namespace Word

/-- A word that begins with a hyphen and spells no option. -/
def ofOther (text : List Char) : Word :=
  if isUnsignedNumber text.tail || text.contains ' ' then value (String.ofList text) else unknown

/-- The text after two hyphens. -/
def ofName (text : List Char) : Word :=
  let name := text.takeWhile (· ≠ '=')
  let candidates :=
    match Flag.ofName? name with
    | some flag => [flag]
    | none => Flag.withBeginning name
  match candidates, text.dropWhile (· ≠ '=') with
  | [], _ => ofOther ('-' :: '-' :: text)
  | [flag], [] => options (some { ending := .open flag })
  | [flag], _ :: attached => options (Spelling.withValue? flag attached)
  | _, _ => ambiguous

/-- A letter after a hyphen, with the text after the letter. -/
def ofLetter (edition : Edition) (c : Char) (text : List Char) : Word :=
  match Flag.ofLetter? c with
  | none => ofOther ('-' :: c :: text)
  | some flag => options (Spelling.afterLetter? edition flag text)

/-- What a text is as a word of a command line. -/
def ofChars (edition : Edition) : List Char → Word
  | '-' :: '-' :: text => ofName text
  | '-' :: c :: text => ofLetter edition c text
  | text => value (String.ofList text)

/-- What a text is as a word of a command line. -/
def ofText (edition : Edition) (text : String) : Word := ofChars edition text.toList

end Word

end NativeHeader
