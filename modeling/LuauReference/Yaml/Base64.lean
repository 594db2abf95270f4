/-
This file reads bytes that are written with sixty-four characters, four for every three bytes.
Characters that are not among these are passed over, and reading stops where equals signs fill up a
group of four.
-/

import LuauReference.Text.Basic

namespace LuauReference

namespace Yaml

/-- The six bits that a character stands for. -/
def sixBits? (c : Char) : Option Nat :=
  let n := c.toNat
  if 'A' ≤ c && c ≤ 'Z' then some (n - 'A'.toNat)
  else if 'a' ≤ c && c ≤ 'z' then some (n - 'a'.toNat + 26)
  else if '0' ≤ c && c ≤ '9' then some (n - '0'.toNat + 52)
  else if c == '+' then some 62
  else if c == '/' then some 63
  else none

/-- The bytes of a text, given how many characters of a group were read, the bits of them that
belong to no byte yet, and how many equals signs followed. A group that is not full and not filled
up has no bytes. -/
def base64From : Nat → Nat → Nat → Text → Option (List UInt8)
  | place, _, _, [] => if place = 0 then some [] else none
  | place, left, filled, c :: rest =>
    if c == '=' then
      let filled := if 2 ≤ place then filled + 1 else filled
      if 2 ≤ place && 4 ≤ place + filled then some [] else base64From place left filled rest
    else
      match sixBits? c, place with
      | none, _ => base64From place left filled rest
      | some bits, 0 => base64From 1 bits 0 rest
      | some bits, 1 =>
        (base64From 2 (bits % 16) 0 rest).map (UInt8.ofNat (left * 4 + bits / 16) :: ·)
      | some bits, 2 =>
        (base64From 3 (bits % 4) 0 rest).map (UInt8.ofNat (left * 16 + bits / 4) :: ·)
      | some bits, _ => (base64From 0 0 0 rest).map (UInt8.ofNat (left * 64 + bits) :: ·)

/-- The bytes that a text writes. -/
def base64? (s : Text) : Option (List UInt8) :=
  base64From 0 0 0 s

end Yaml

end LuauReference
