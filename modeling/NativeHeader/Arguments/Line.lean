import NativeHeader.Arguments.Word

/-!
# Reading a command line

A command line is read as groups: a word that spells options, with the values that follow it.  The
groups are applied in order.  The first one that asks for help or breaks a rule decides the
outcome; words that nothing takes only spoil a line that would otherwise be accepted.  No value
stands alone, so neither values before the first option nor those beyond what an option takes are
taken, and after the word `--` there are only values.  In the older edition the text `--` is no
value where it is attached to an option either: the option is then given without any.
-/

namespace NativeHeader

/-- What a command line asks for. -/
inductive Request where
  /-- Help. -/
  | help
  /-- Nothing that makes sense. -/
  | misuse
  /-- A run. -/
  | run (arguments : Arguments)
  deriving DecidableEq

namespace Request

/-! ## Groups -/

/-- A word that is no value, with the values that follow it. -/
structure Group where
  word : Word
  values : List String
  deriving DecidableEq

/-- A row of words as the values before the first group, and the groups. -/
structure Grouped where
  before : List String
  groups : List Group
  deriving DecidableEq

/-- Adds a word in front. -/
def Grouped.cons (word : Word) (g : Grouped) : Grouped :=
  match word with
  | .value text => { g with before := text :: g.before }
  | word => { before := [], groups := { word, values := g.before } :: g.groups }

/-- The groups of a row of words. -/
def group (words : List Word) : Grouped := words.foldr Grouped.cons { before := [], groups := [] }

/-! ## Applying groups -/

/-- The line as far as it has been read: what it asks for, and whether all words were taken. -/
structure Progress where
  arguments : Arguments := {}
  clean : Bool := true
  deriving DecidableEq

namespace Progress

/-- Gives an option its values; a request for help ends the reading. -/
def give (flag : Flag) (values : List String) (p : Progress) : Except Request Progress :=
  if flag = .help then .error .help else .ok { p with arguments := flag.apply values p.arguments }

/-- Gives options that take no values. -/
def giveAll (flags : List Flag) (p : Progress) : Except Request Progress :=
  flags.foldlM (fun p flag => p.give flag []) p

/-- Leaves words that nothing takes. -/
def leave (values : List String) (p : Progress) : Progress :=
  if values.isEmpty then p else { p with clean := false }

/-- Gives an option the values that follow it, as many as it takes. -/
def giveFollowing (leading : List Flag) (flag : Flag) (values : List String) (p : Progress) :
    Except Request Progress :=
  match flag.arity, values with
  | .none, _ => do return leave values (← (← p.giveAll leading).give flag [])
  | _, [] => .error .misuse
  | .one, first :: more => do return leave more (← (← p.giveAll leading).give flag [first])
  | .oneOrMore, _ => do (← p.giveAll leading).give flag values

/-- The values that a text attached to an option stands for. -/
def attachedValues (edition : Edition) (text : String) : List String :=
  if edition = .older ∧ text = "--" then [] else [text]

/-- Applies a group. -/
def apply (edition : Edition) (p : Progress) (g : Group) : Except Request Progress :=
  match g.word with
  | .options (some { leading, ending := .open flag }) => p.giveFollowing leading flag g.values
  | .options (some { leading, ending := .attached flag text }) => do
    return leave g.values (← (← p.giveAll leading).give flag (attachedValues edition text))
  | .options (some { leading, ending := .left }) => do
    return { ← p.giveAll leading with clean := false }
  | .options none => .error .misuse
  | _ => .ok { p with clean := false }

end Progress

/-! ## The whole line -/

/-- What the groups of a line ask for, if its other words are accepted. -/
def ofGroups (edition : Edition) (groups : List Group) (clean : Bool) : Request :=
  match groups.foldlM (Progress.apply edition) { clean } with
  | .ok progress => if progress.clean then .run progress.arguments else .misuse
  | .error request => request

/-- What a command line asks for. -/
def ofWords (edition : Edition) (texts : List String) : Request :=
  let words := (texts.takeWhile (· ≠ "--")).map (Word.ofText edition)
  if words.contains .ambiguous then .misuse
  else
    let grouped := group words
    ofGroups edition grouped.groups (grouped.before.isEmpty && !texts.contains "--")

end Request

end NativeHeader
