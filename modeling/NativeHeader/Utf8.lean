import NativeHeader.Fault

/-!
# UTF-8

Bytes are read as UTF-8 one at a time.  Between two characters a byte either is a character, or
begins one and fixes how many bytes must follow and in which range the first of these lies, or can
begin none.  Where a byte does not go on with what was begun, the bytes of the unfinished character
are one invalid part, and the byte is looked at again as a beginning.

`decode` refuses bytes with an invalid part; `decodeLossy` puts one replacement character for each.
-/

namespace NativeHeader.Utf8

/-- A character of which some bytes are missing: the bits read so far, the number of missing bytes,
and the range of the next of them. -/
structure Begun where
  bits : Nat
  missing : Nat
  low : Nat := 0x80
  high : Nat := 0xbf

/-- The decoder between two bytes: the character that is begun, if any, and what was decoded, last
first; an invalid part is decoded to nothing. -/
structure State where
  begun : Option Begun := none
  decoded : List (Option Char) := []

/-- Reads a byte where a character may begin. -/
def begin (decoded : List (Option Char)) (byte : Nat) : State :=
  let open? (begun : Begun) : State := { begun := some begun, decoded }
  if byte ≤ 0x7f then { decoded := some (Char.ofNat byte) :: decoded }
  else if byte < 0xc2 then { decoded := none :: decoded }
  else if byte ≤ 0xdf then open? { bits := byte - 0xc0, missing := 1 }
  else if byte = 0xe0 then open? { bits := 0, missing := 2, low := 0xa0 }
  else if byte = 0xed then open? { bits := 0xd, missing := 2, high := 0x9f }
  else if byte ≤ 0xef then open? { bits := byte - 0xe0, missing := 2 }
  else if byte = 0xf0 then open? { bits := 0, missing := 3, low := 0x90 }
  else if byte ≤ 0xf3 then open? { bits := byte - 0xf0, missing := 3 }
  else if byte = 0xf4 then open? { bits := 4, missing := 3, high := 0x8f }
  else { decoded := none :: decoded }

/-- Reads a byte. -/
def step (state : State) (byte : UInt8) : State :=
  match state.begun with
  | none => begin state.decoded byte.toNat
  | some begun =>
    if begun.low ≤ byte.toNat ∧ byte.toNat ≤ begun.high then
      let bits := 0x40 * begun.bits + (byte.toNat - 0x80)
      if begun.missing ≤ 1 then { decoded := some (Char.ofNat bits) :: state.decoded }
      else { state with begun := some { bits, missing := begun.missing - 1 } }
    else begin (none :: state.decoded) byte.toNat

/-- What is decoded when the bytes end. -/
def finish (state : State) : List (Option Char) :=
  match state.begun with
  | none => state.decoded.reverse
  | some _ => (none :: state.decoded).reverse

/-- The characters and the invalid parts of a row of bytes. -/
def scan (bytes : List UInt8) : List (Option Char) := finish (bytes.foldl step {})

/-- The characters that the bytes encode, all of which must be valid. -/
def decode (bytes : List UInt8) : Except Fault (List Char) :=
  match (scan bytes).mapM id with
  | some chars => .ok chars
  | none => .error .malformedEncoding

/-- The characters that the bytes encode, with a replacement character for each invalid part. -/
def decodeLossy (bytes : List UInt8) : List Char :=
  (scan bytes).map fun char => char.getD '\ufffd'

/-- The bytes that encode a text. -/
def encode (text : String) : List UInt8 := text.toUTF8.toList

end NativeHeader.Utf8
