import NativeHeader.Document.Token
import NativeHeader.Fault

/-!
# Reading a document

`Document.read` reads a whole text as one document.  Tokens are taken one by one; the lists and
objects that have been opened and not closed stand on a stack, each with what it holds so far, and
`Awaiting` says which token may come next.  The text is refused as soon as another one comes, and
when it ends before the document does or goes on after it.  It is refused, too, where a value begins
with a whole number that is too long.

A text with half of a pair of code units is read to its end like every other, but what it says
cannot be told by documents, whose texts are rows of characters.
-/

namespace NativeHeader.Document

/-- A list or an object that has not been closed, with what it holds so far, last first. -/
inductive Unclosed where
  | array (items : List Document)
  | object (members : List (String × Document))
  /-- An object in which the value of a key is yet to come. -/
  | member (members : List (String × Document)) (key : String)

/-- What may come next. -/
inductive Awaiting where
  /-- A value. -/
  | value
  /-- A value, or the end of the list. -/
  | firstItem
  /-- A key. -/
  | key
  /-- A key, or the end of the object. -/
  | firstKey
  /-- The colon after a key. -/
  | colon (key : String)
  /-- A comma, or the end of the list or object. -/
  | separator
  /-- Nothing: the document is complete. -/
  | nothing (document : Document)

/-- The reader between two tokens. -/
structure ReaderState where
  awaiting : Awaiting := .value
  stack : List Unclosed := []

namespace ReaderState

/-- The text is not a document. -/
def refused {α : Type} : Except Fault α := .error .malformedDocument

/-- Puts a complete value where it belongs. -/
def complete (value : Document) : List Unclosed → Except Fault ReaderState
  | [] => .ok { awaiting := .nothing value }
  | .array items :: rest =>
    .ok { awaiting := .separator, stack := .array (value :: items) :: rest }
  | .member members key :: rest =>
    .ok { awaiting := .separator, stack := .object ((key, value) :: members) :: rest }
  | .object _ :: _ => refused

/-- Closes the innermost list. -/
def closeArray : List Unclosed → Except Fault ReaderState
  | .array items :: rest => complete (.array items.reverse) rest
  | _ => refused

/-- Closes the innermost object. -/
def closeObject : List Unclosed → Except Fault ReaderState
  | .object members :: rest => complete (.object members.reverse) rest
  | _ => refused

/-- Reads a token where a value may begin.  What a text with half of a pair says is left out. -/
def beginValue (stack : List Unclosed) : Token → Except Fault ReaderState
  | .openBrace => .ok { awaiting := .firstKey, stack := .object [] :: stack }
  | .openBracket => .ok { awaiting := .firstItem, stack := .array [] :: stack }
  | .text content => complete (.string content) stack
  | .halves => complete (.string "") stack
  | .word value => complete value stack
  | .longNumber => .error .numberTooLong
  | _ => refused

/-- Reads a token where a key may stand. -/
def beginMember (stack : List Unclosed) : Token → Except Fault ReaderState
  | .text key => .ok { awaiting := .colon key, stack := stack }
  | .halves => .ok { awaiting := .colon "", stack := stack }
  | _ => refused

/-- Goes on after a comma: in a list with a value, in an object with a key. -/
def afterComma : List Unclosed → Except Fault ReaderState
  | stack@(.array _ :: _) => .ok { awaiting := .value, stack := stack }
  | stack@(.object _ :: _) => .ok { awaiting := .key, stack := stack }
  | _ => refused

/-- Goes on after the colon that follows a key. -/
def afterColon (key : String) : List Unclosed → Except Fault ReaderState
  | .object members :: rest => .ok { awaiting := .value, stack := .member members key :: rest }
  | _ => refused

/-- Reads one token. -/
def step (state : ReaderState) (token : Token) : Except Fault ReaderState :=
  match state.awaiting, token with
  | .value, token => beginValue state.stack token
  | .firstItem, .closeBracket => closeArray state.stack
  | .firstItem, token => beginValue state.stack token
  | .firstKey, .closeBrace => closeObject state.stack
  | .firstKey, token => beginMember state.stack token
  | .key, token => beginMember state.stack token
  | .colon key, .colon => afterColon key state.stack
  | .separator, .comma => afterComma state.stack
  | .separator, .closeBracket => closeArray state.stack
  | .separator, .closeBrace => closeObject state.stack
  | _, _ => refused

/-- The document that has been read, if it is complete. -/
def result (state : ReaderState) : Except Fault Document :=
  match state.awaiting with
  | .nothing document => .ok document
  | _ => refused

end ReaderState

/-- The document that a row of tokens writes. -/
def ofTokens (tokens : List Token) : Except Fault Document := do
  let state ← tokens.foldlM ReaderState.step {}
  let document ← state.result
  if tokens.any Token.isHalves then throw .halfPair
  return document

/-- Reads a text as one document. -/
def read (text : List Char) : Except Fault Document := ofTokens (tokens text)

end NativeHeader.Document
