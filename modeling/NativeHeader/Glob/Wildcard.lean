/-!
# Wildcards

A wildcard pattern describes names: `*` stands for any characters, `?` for one, and a set in square
brackets for one of its characters; every other character stands for itself.

A set lists characters and ranges `a-c`.  A hyphen makes a range only between two characters, so it
stands for itself at either end of a set and right after a range.  A closing bracket that comes
first belongs to the set, and a set that is not closed is an opening bracket that stands for
itself.  Ranges that run backwards are left out.  If the first thing in what remains is a `!`, the
set stands for the characters that the rest does not list; a range that begins with this `!` leaves
its hyphen and its end to the rest.
-/

namespace NativeHeader.Glob

/-- A character that makes a pattern more than a plain name. -/
def isMagicChar (c : Char) : Bool := c = '*' || c = '?' || c = '['

/-- Whether a text is more than a plain name. -/
def isMagic (text : List Char) : Bool := text.any isMagicChar

/-! ## Sets -/

/-- A piece of a set. -/
inductive SetItem where
  | one (c : Char)
  | range (first last : Char)
  deriving DecidableEq

namespace SetItem

/-- Whether a piece lists any character. -/
def isInhabited : SetItem → Bool
  | one _ => true
  | range first last => first ≤ last

/-- Whether a piece lists a character. -/
def contains (c : Char) : SetItem → Bool
  | one x => c = x
  | range first last => first ≤ c ∧ c ≤ last

/-- The pieces of a text, from left to right. -/
def ofChars : List Char → List SetItem
  | first :: '-' :: last :: rest => range first last :: ofChars rest
  | c :: rest => one c :: ofChars rest
  | [] => []

end SetItem

/-- A set of characters, by what it lists or by what it leaves out. -/
structure CharSet where
  negated : Bool
  items : List SetItem
  deriving DecidableEq

namespace CharSet

/-- The set that pieces describe. -/
def ofItems : List SetItem → CharSet
  | .one '!' :: rest => { negated := true, items := rest }
  | .range '!' last :: rest => { negated := true, items := .one '-' :: .one last :: rest }
  | items => { negated := false, items }

/-- The set that the text between the brackets describes.  A `!` in front is no part of a range. -/
def ofBody (body : List Char) : CharSet :=
  let items :=
    match body with
    | '!' :: rest => SetItem.one '!' :: SetItem.ofChars rest
    | body => SetItem.ofChars body
  ofItems (items.filter SetItem.isInhabited)

/-- Whether a character is in the set. -/
def contains (set : CharSet) (c : Char) : Bool := set.items.any (·.contains c) != set.negated

end CharSet

/-- How many characters belong to a set before its closing bracket is looked for. -/
def setHeadLength : List Char → Nat
  | '!' :: ']' :: _ => 2
  | '!' :: _ => 1
  | ']' :: _ => 1
  | _ => 0

/-- The text of a set that has just been opened, if it is closed. -/
def setBody? (rest : List Char) : Option (List Char) :=
  let head := setHeadLength rest
  let tail := rest.drop head
  if tail.contains ']' then some (rest.take head ++ tail.takeWhile (· ≠ ']')) else none

/-! ## Patterns -/

/-- A piece of a pattern. -/
inductive Atom where
  /-- Any characters, or none. -/
  | many
  /-- Any one character. -/
  | any
  /-- A character that stands for itself. -/
  | char (c : Char)
  /-- One character of a set. -/
  | set (members : CharSet)
  deriving DecidableEq

namespace Atom

/-- The pieces of a pattern after leaving out some characters, which are the rest of a set. -/
def parse : (skip : Nat) → List Char → List Atom
  | _, [] => []
  | skip + 1, _ :: rest => parse skip rest
  | 0, '*' :: rest => many :: parse 0 rest
  | 0, '?' :: rest => any :: parse 0 rest
  | 0, '[' :: rest =>
    match setBody? rest with
    | some body => set (.ofBody body) :: parse (body.length + 1) rest
    | none => char '[' :: parse 0 rest
  | 0, c :: rest => char c :: parse 0 rest

/-- Whether a piece other than `many` stands for a character. -/
def accepts (c : Char) : Atom → Bool
  | many => false
  | any => true
  | char x => c = x
  | set members => members.contains c

end Atom

/-- A text and all its ends. -/
def suffixes : List Char → List (List Char)
  | [] => [[]]
  | c :: rest => (c :: rest) :: suffixes rest

/-- Whether pieces of a pattern together stand for a text. -/
def matchesAtoms : List Atom → List Char → Bool
  | [], text => text.isEmpty
  | .many :: atoms, text => (suffixes text).any (matchesAtoms atoms)
  | atom :: atoms, text =>
    match text with
    | c :: rest => atom.accepts c && matchesAtoms atoms rest
    | [] => false

/-- Whether a pattern describes a name. -/
def matchesName (pattern name : List Char) : Bool := matchesAtoms (Atom.parse 0 pattern) name

end NativeHeader.Glob
