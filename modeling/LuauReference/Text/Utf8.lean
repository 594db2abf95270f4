/-
This file turns texts into bytes and back. Decoding goes byte by byte and keeps, between two
bytes, how many more the current character needs and in which range the next one must lie. A
stretch of bytes that cannot be continued to a character yields one gap: the longest beginning of
a character counts as one gap, and so does each byte that begins none. Strict decoding refuses a
gap and lossy decoding writes the replacement character for it.
-/

import LuauReference.Text.Basic

namespace LuauReference

namespace Text

/-- The bytes of a text. -/
def utf8 (s : Text) : List UInt8 :=
  s.flatMap String.utf8EncodeChar

/-- A character whose first bytes have been read: how many bytes it still needs, its value so far
and the range in which its next byte must lie. -/
structure Unfinished where
  missing : Nat
  value : Nat
  low : Nat
  high : Nat

/-- What the first byte of a character leads to: a whole character, an unfinished one or, with a
byte that begins no character, a gap. -/
def firstByte (byte : Nat) : List (Option Char) × Option Unfinished :=
  if byte ≤ 0x7F then ([some (Char.ofNat byte)], none)
  else if byte < 0xC2 then ([none], none)
  else if byte ≤ 0xDF then ([], some ⟨1, byte - 0xC0, 0x80, 0xBF⟩)
  else if byte = 0xE0 then ([], some ⟨2, 0, 0xA0, 0xBF⟩)
  else if byte = 0xED then ([], some ⟨2, 0xD, 0x80, 0x9F⟩)
  else if byte ≤ 0xEF then ([], some ⟨2, byte - 0xE0, 0x80, 0xBF⟩)
  else if byte = 0xF0 then ([], some ⟨3, 0, 0x90, 0xBF⟩)
  else if byte ≤ 0xF3 then ([], some ⟨3, byte - 0xF0, 0x80, 0xBF⟩)
  else if byte = 0xF4 then ([], some ⟨3, 4, 0x80, 0x8F⟩)
  else ([none], none)

/-- What one more byte leads to, given the unfinished character before it. -/
def nextByte (state : Option Unfinished) (byte : Nat) : List (Option Char) × Option Unfinished :=
  match state with
  | none => firstByte byte
  | some unfinished =>
    if unfinished.low ≤ byte && byte ≤ unfinished.high then
      let value := unfinished.value * 0x40 + (byte - 0x80)
      if unfinished.missing ≤ 1 then
        ([some (Char.ofNat value)], none)
      else
        ([], some ⟨unfinished.missing - 1, value, 0x80, 0xBF⟩)
    else
      let (found, state) := firstByte byte
      (none :: found, state)

/-- The characters and gaps of a list of bytes, from a state between two bytes. -/
def decodeFrom (state : Option Unfinished) : List UInt8 → List (Option Char)
  | [] => if state.isSome then [none] else []
  | byte :: rest =>
    let (found, state) := nextByte state byte.toNat
    found ++ decodeFrom state rest

/-- The text of a list of bytes that has no gap. -/
def ofUtf8? (bytes : List UInt8) : Option Text :=
  (decodeFrom none bytes).mapM id

/-- The text of a list of bytes, with the replacement character for every gap. -/
def ofUtf8Lossy (bytes : List UInt8) : Text :=
  (decodeFrom none bytes).map (·.getD (Char.ofNat 0xFFFD))

end Text

end LuauReference
