import NativeHeader.Fault
import NativeHeader.Sorted

/-!
# Text templates

A template is a text with marked slots: `::_NAME_::` marks the slot `name`, where a name begins with
a capital letter and goes on with capital letters, digits and underscores.  The text is split once,
into literal fragments and slots; rendering puts the given values into the slots.  Values are never
searched for marks, so they come out as they are.

A mark can be told from the row of name characters after its `::_`: the row must end in an
underscore, which belongs to the mark, and `::` must follow it (`markerName?`).  So no mark begins
inside another one's name, and there is nothing to choose between a shorter and a longer name.
-/

namespace NativeHeader

/-- A piece of a template. -/
inductive Fragment where
  /-- Characters that stand for themselves. -/
  | text (content : String)
  /-- A place for a value, by its name in small letters. -/
  | slot (name : String)
  deriving DecidableEq

namespace Fragment

/-! ## Marks -/

/-- A capital letter. -/
def isCapital (c : Char) : Bool := 'A' ≤ c ∧ c ≤ 'Z'

/-- A character of a name. -/
def isNameChar (c : Char) : Bool := isCapital c || ('0' ≤ c ∧ c ≤ '9') || c = '_'

/-- The name in the row of name characters between `::_` and `::`. -/
def nameOfRow? (row : List Char) : Option (List Char) :=
  let name := row.dropLast
  if row.getLast? = some '_' ∧ name.head?.any isCapital then some name else none

/-- The name in the mark with which a text begins. -/
def markerName? : List Char → Option (List Char)
  | ':' :: ':' :: '_' :: rest =>
    match rest.dropWhile isNameChar with
    | ':' :: ':' :: _ => nameOfRow? (rest.takeWhile isNameChar)
    | _ => none
  | _ => none

/-- The slot that a name marks. -/
def ofName (name : List Char) : Fragment := .slot (String.ofList (name.map Char.toLower))

/-! ## Splitting -/

/-- Puts a character in front of fragments. -/
def consChar (c : Char) : List Fragment → List Fragment
  | .text content :: rest => .text (String.singleton c ++ content) :: rest
  | fragments => .text (String.singleton c) :: fragments

/-- Splits a text into fragments after leaving out some characters, which are the rest of a mark:
three come before the name in a mark and three after it. -/
def split : (skip : Nat) → List Char → List Fragment
  | _, [] => []
  | skip + 1, _ :: rest => split skip rest
  | 0, c :: rest =>
    match markerName? (c :: rest) with
    | some name => ofName name :: split (name.length + 5) rest
    | none => consChar c (split 0 rest)

theorem split_skip (skip : Nat) (chars : List Char) :
    split skip chars = split 0 (chars.drop skip) := by
  induction chars generalizing skip with
  | nil => simp [split]
  | cons c rest ih =>
    cases skip with
    | zero => rfl
    | succ skip => rw [split, ih, List.drop_succ_cons]

/-- A text that begins with a mark: the slot, and the fragments of what follows the mark. -/
theorem split_of_markerName? {c : Char} {rest name : List Char}
    (h : markerName? (c :: rest) = some name) :
    split 0 (c :: rest) = ofName name :: split 0 (rest.drop (name.length + 5)) := by
  rw [split, h, ← split_skip]

/-- Any other text: its first character stands for itself. -/
theorem split_of_not_marked {c : Char} {rest : List Char} (h : markerName? (c :: rest) = none) :
    split 0 (c :: rest) = consChar c (split 0 rest) := by
  rw [split, h]

/-- The name of a slot. -/
def slotName? : Fragment → Option String
  | slot name => some name
  | text _ => none

end Fragment

/-- A text with slots. -/
structure Template where
  fragments : List Fragment

namespace Template

/-- Splits a text at its marks. -/
def ofText (source : String) : Template := ⟨Fragment.split 0 source.toList⟩

/-- The names of the slots, in order, as often as they occur. -/
def slots (t : Template) : List String := t.fragments.filterMap Fragment.slotName?

/-! ## Rendering -/

/-- The names for which the template has no slot. -/
def unknownNames (t : Template) (values : List (String × Document)) : List String :=
  Sorted.ofList ((values.map Prod.fst).filter (· ∉ t.slots))

/-- What stands in the place of a fragment. -/
def fill (values : List (String × Document)) : Fragment → Except Fault Document
  | .text content => .ok (.string content)
  | .slot name =>
    match values.lookup name with
    | some value => .ok value
    | none => .error (.missingSlotValue name)

/-- The content of a value, which must be a text. -/
def contentOf : Document → Except Fault String
  | .string text => .ok text
  | _ => .error .slotValueNotText

/-- The name of the template itself, under which no value can be given. -/
def ownName : String := "self"

/-- Puts values into the slots.  Every value needs a slot, then every slot needs a value, then every
value must be a text. -/
def render (t : Template) (values : List (String × Document)) : Except Fault String := do
  if values.any (·.1 = ownName) then throw .valueForTemplate
  let unknown := t.unknownNames values
  if !unknown.isEmpty then throw (.unknownSlots unknown)
  let parts ← t.fragments.mapM (fill values)
  let texts ← parts.mapM contentOf
  return String.join texts

end Template

end NativeHeader
