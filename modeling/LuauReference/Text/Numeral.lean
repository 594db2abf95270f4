/-
This file reads and writes whole numbers as text. Numbers are written in plain decimal. Reading is
more generous: blanks around the numeral, a sign, the decimal digits of every script and single
underscores between digits are all accepted.
-/

import LuauReference.Text.Blank

namespace LuauReference

namespace Text

/-! ### Digits -/

/-- The zeros of all scripts that have decimal digits; the other nine digits follow each. -/
def digitZeros : List Nat :=
  [0x30, 0x660, 0x6F0, 0x7C0, 0x966, 0x9E6, 0xA66, 0xAE6, 0xB66, 0xBE6, 0xC66, 0xCE6, 0xD66,
    0xDE6, 0xE50, 0xED0, 0xF20, 0x1040, 0x1090, 0x17E0, 0x1810, 0x1946, 0x19D0, 0x1A80, 0x1A90,
    0x1B50, 0x1BB0, 0x1C40, 0x1C50, 0xA620, 0xA8D0, 0xA900, 0xA9D0, 0xA9F0, 0xAA50, 0xABF0,
    0xFF10, 0x104A0, 0x10D30, 0x11066, 0x110F0, 0x11136, 0x111D0, 0x112F0, 0x11450, 0x114D0,
    0x11650, 0x116C0, 0x11730, 0x118E0, 0x11950, 0x11C50, 0x11D50, 0x11DA0, 0x16A60, 0x16AC0,
    0x16B50, 0x1D7CE, 0x1D7D8, 0x1D7E2, 0x1D7EC, 0x1D7F6, 0x1E140, 0x1E2F0, 0x1E950, 0x1FBF0]

/-- The value of a decimal digit of any script. -/
def digit? (c : Char) : Option Nat :=
  (digitZeros.find? fun start => start ≤ c.toNat && c.toNat < start + 10).map (c.toNat - ·)

/-- A decimal digit of any script as one of the Latin alphabet; other characters stay. -/
def plainDigit (c : Char) : Char :=
  match digit? c with
  | some value => Char.ofNat ('0'.toNat + value)
  | none => c

/-- The value of a digit of the Latin alphabet in a base of at most sixteen. -/
def digitIn? (base : Nat) (c : Char) : Option Nat :=
  let value :=
    if c.isDigit then some (c.toNat - '0'.toNat)
    else if 'a'.toNat ≤ c.toNat && c.toNat ≤ 'f'.toNat then some (c.toNat - 'a'.toNat + 10)
    else if 'A'.toNat ≤ c.toNat && c.toNat ≤ 'F'.toNat then some (c.toNat - 'A'.toNat + 10)
    else none
  value.filter (· < base)

/-! ### Reading -/

/-- The number that a list of digit values stands for. -/
def ofDigits (base : Nat) (digits : List Nat) : Nat :=
  digits.foldl (fun total digit => total * base + digit) 0

/-- The number written by a non-empty run of Latin digits in a base. -/
def naturalIn? (base : Nat) (s : Text) : Option Nat :=
  if s.isEmpty then none else (s.mapM (digitIn? base)).map (ofDigits base)

/-- The digit values of a numeral in which single underscores may stand between digits. -/
def groupedDigits? (s : Text) : Option (List Nat) :=
  let groups := pieces '_' s
  if groups.any List.isEmpty then none else groups.flatten.mapM digit?

/-- Numerals longer than this are refused. -/
def longestNumeral : Nat := 4300

/-- A blank that may stand around a numeral. The marks that separate files, groups, records and
units are blanks everywhere but there. -/
def isNumeralBlank (c : Char) : Bool :=
  isBlank c && !(0x1C ≤ c.toNat && c.toNat ≤ 0x1F)

/-- Drops the blanks around a numeral. -/
def trimNumeral (s : Text) : Text :=
  dropEndWhile isNumeralBlank (s.dropWhile isNumeralBlank)

/-- The whole number that a text writes, if it writes one. -/
def integer? (s : Text) : Option Int :=
  match trimNumeral s with
  | '-' :: body => (natural? body).map fun n => -(n : Int)
  | '+' :: body => (natural? body).map Int.ofNat
  | body => (natural? body).map Int.ofNat
where
  /-- The number that an unsigned numeral writes. -/
  natural? (body : Text) : Option Nat := do
    let digits ← groupedDigits? body
    if digits.length ≤ longestNumeral then some (ofDigits 10 digits) else none

/-! ### Writing -/

/-- A natural number in decimal. -/
def ofNat (n : Nat) : Text :=
  Nat.toDigits 10 n

/-- A whole number in decimal. -/
def ofInt : Int → Text
  | .ofNat n => ofNat n
  | .negSucc n => '-' :: ofNat (n + 1)

/-- Puts zeros before a text that is shorter than the given width. -/
def padZeros (width : Nat) (s : Text) : Text :=
  List.replicate (width - s.length) '0' ++ s

/-- A natural number in lowercase hexadecimal with at least the given number of digits. -/
def hex (width n : Nat) : Text :=
  padZeros width (Nat.toDigits 16 n)

/-- A natural number in uppercase hexadecimal with at least the given number of digits. -/
def hexUpper (width n : Nat) : Text :=
  (hex width n).map Char.toUpper

end Text

end LuauReference
