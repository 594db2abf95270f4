/-
This file holds the numbers with a fraction: the binary floating point numbers of sixty-four bits.
A number is kept as its exact value, a whole number times a power of two, so that reading and
writing decimals is arithmetic on natural numbers. Reading takes the nearest number, and of two
equally near ones the one with the even mantissa. Writing takes the fewest digits that read back as
the same number, and of several such decimals the one nearest to it.
-/

import LuauReference.Text.Numeral

namespace LuauReference

/-- A floating point number: a sign and a value `mantissa * 2 ^ exponent`, an infinity, or the
value that is no number. -/
inductive Binary64
  | finite (negative : Bool) (mantissa : Nat) (exponent : Int)
  | infinite (negative : Bool)
  | undefined
  deriving DecidableEq

namespace Binary64

/-! ### Rounding to the nearest number -/

/-- The least exponent of a number. -/
def leastExponent : Int := -1074

/-- The greatest exponent of a number. -/
def greatestExponent : Int := 971

/-- A mantissa lies below this bound. -/
def mantissaBound : Nat := Nat.pow 2 53

/-- The zero of either sign. -/
def zero (negative : Bool) : Binary64 :=
  .finite negative 0 leastExponent

/-- The whole number nearest to a quotient; a half goes to the even neighbour. -/
def roundDiv (numerator denominator : Nat) : Nat :=
  let quotient := numerator / denominator
  let twice := 2 * (numerator % denominator)
  if twice < denominator then quotient
  else if denominator < twice then quotient + 1
  else quotient + quotient % 2

/-- The quotient of two numbers divided by a power of two, as numerator and denominator. -/
def scale (numerator denominator : Nat) (exponent : Int) : Nat × Nat :=
  match exponent with
  | .ofNat up => (numerator, denominator * Nat.pow 2 up)
  | .negSucc down => (numerator * Nat.pow 2 (down + 1), denominator)

/-- The exponent that a positive quotient has as a number: the mantissa then fills its bits, or
the exponent is the least one. -/
def exponentOf (numerator denominator : Nat) : Int :=
  let order : Int := (numerator.log2 : Int) - denominator.log2
  let (high, low) := scale numerator denominator order
  max leastExponent (if high < low then order - 53 else order - 52)

/-- The number nearest to a quotient of natural numbers. -/
def nearest (negative : Bool) (numerator denominator : Nat) : Binary64 :=
  if numerator = 0 then
    zero negative
  else
    let exponent := exponentOf numerator denominator
    let (high, low) := scale numerator denominator exponent
    let mantissa := roundDiv high low
    let (mantissa, exponent) :=
      if mantissa = mantissaBound then (mantissa / 2, exponent + 1) else (mantissa, exponent)
    if greatestExponent < exponent then .infinite negative
    else .finite negative mantissa exponent

/-! ### Decimals -/

/-- A decimal: a whole number times a power of ten. -/
structure Decimal where
  digits : Nat
  exponent : Int

/-- The exact value of a decimal as numerator and denominator. -/
def Decimal.quotient (d : Decimal) : Nat × Nat :=
  match d.exponent with
  | .ofNat up => (d.digits * Nat.pow 10 up, 1)
  | .negSucc down => (d.digits, Nat.pow 10 (down + 1))

/-- The number nearest to a decimal. Decimals far beyond the greatest number or far below the
least one are settled by their order of magnitude. -/
def ofDecimal (negative : Bool) (d : Decimal) : Binary64 :=
  let order := d.exponent + (Text.ofNat d.digits).length
  if d.digits = 0 || order < -400 then zero negative
  else if 400 < order then .infinite negative
  else
    let (numerator, denominator) := d.quotient
    nearest negative numerator denominator

/-- The exact value of a mantissa and exponent as numerator and denominator. -/
def quotient (mantissa : Nat) (exponent : Int) : Nat × Nat :=
  match exponent with
  | .ofNat up => (mantissa * Nat.pow 2 up, 1)
  | .negSucc down => (mantissa, Nat.pow 2 (down + 1))

/-- The power of ten of the leading digit of a positive quotient. -/
def decimalOrder (numerator denominator : Nat) : Int :=
  let bits : Int := (numerator.log2 : Int) - denominator.log2
  let guess := Int.fdiv (bits * 30103) 100000
  let reaches (order : Int) : Bool :=
    let (high, low) := Decimal.quotient ⟨1, order⟩
    decide (high * denominator ≤ numerator * low)
  if !reaches guess then guess - 1
  else if reaches (guess + 1) then guess + 1
  else guess

/-- The decimals of the given number of digits just below and above a positive quotient, the
nearer one first; of two equally near ones the even one is first. -/
def neighbours (numerator denominator : Nat) (order : Int) (count : Nat) : List Decimal :=
  let exponent := order - count + 1
  let (high, low) := Decimal.quotient ⟨1, exponent⟩
  let top := numerator * low
  let bottom := denominator * high
  let below := top / bottom
  let nearestFirst := roundDiv top bottom
  let other := if nearestFirst = below then below + 1 else below
  [⟨nearestFirst, exponent⟩, ⟨other, exponent⟩]

/-- A decimal of the fewest digits that reads back as the given positive number. Seventeen digits
always do. -/
def shortest (mantissa : Nat) (exponent : Int) : Decimal :=
  let (numerator, denominator) := quotient mantissa exponent
  let order := decimalOrder numerator denominator
  let candidates := (List.range 17).flatMap fun n =>
    neighbours numerator denominator order (n + 1)
  (candidates.find? fun d => ofDecimal false d == .finite false mantissa exponent).getD ⟨0, 0⟩

/-- A decimal without zeros at the end of its digits. -/
def Decimal.trimZeros (d : Decimal) : Text × Int :=
  let digits := Text.ofNat d.digits
  let kept := Text.dropEndWhile (· == '0') digits
  (kept, d.exponent + (digits.length - kept.length : Nat))

/-! ### Writing -/

/-- Digits and a power of ten as text. Powers of the leading digit from -4 to 15 are written
positionally, with at least one digit after the point; others with an exponent of at least two
digits. -/
def textOfDigits (digits : Text) (exponent : Int) : Text :=
  let order := exponent + digits.length - 1
  if -4 ≤ order && order < 16 then
    if order < 0 then
      "0.".toList ++ List.replicate (-order - 1).toNat '0' ++ digits
    else
      let whole := (order + 1).toNat
      let fraction := digits.drop whole
      digits.take whole ++ List.replicate (whole - digits.length) '0' ++ '.' ::
        (if fraction.isEmpty then ['0'] else fraction)
  else
    let fraction := digits.drop 1
    let sign := if order < 0 then '-' else '+'
    digits.take 1 ++ (if fraction.isEmpty then [] else '.' :: fraction) ++ 'e' :: sign ::
      Text.padZeros 2 (Text.ofNat order.natAbs)

/-- The text of a number that is not negative. -/
def magnitudeText (mantissa : Nat) (exponent : Int) : Text :=
  if mantissa = 0 then
    "0.0".toList
  else
    let (digits, power) := (shortest mantissa exponent).trimZeros
    textOfDigits digits power

/-- The text of a number, given the words for infinity and for the value that is no number. -/
def textWith (infinity noNumber : Text) : Binary64 → Text
  | .finite negative mantissa exponent =>
    (if negative then ['-'] else []) ++ magnitudeText mantissa exponent
  | .infinite negative => (if negative then ['-'] else []) ++ infinity
  | .undefined => noNumber

/-- The text of a number in prose. -/
def text (x : Binary64) : Text :=
  textWith "inf" "nan" x

/-! ### Reading -/

/-- A run of digits and what follows it. -/
def digitRun (s : Text) : Text × Text :=
  (s.takeWhile Char.isDigit, s.dropWhile Char.isDigit)

/-- The exponent at the end of a decimal: a letter e, an optional sign and digits. -/
def exponentPart? : Text → Option Int
  | [] => some 0
  | e :: rest =>
    if e = 'e' || e = 'E' then
      match rest with
      | '-' :: digits => (Text.naturalIn? 10 digits).map fun n => -(n : Int)
      | '+' :: digits => (Text.naturalIn? 10 digits).map Int.ofNat
      | digits => (Text.naturalIn? 10 digits).map Int.ofNat
    else
      none

/-- The decimal that an unsigned text writes: digits with an optional point among them and an
optional exponent. -/
def decimal? (s : Text) : Option Decimal :=
  let (whole, rest) := digitRun s
  let (fraction, rest) := match rest with
    | '.' :: tail => digitRun tail
    | _ => ([], rest)
  if whole.isEmpty && fraction.isEmpty then
    none
  else do
    let power ← exponentPart? rest
    let digits ← Text.naturalIn? 10 (whole ++ fraction)
    pure ⟨digits, power - fraction.length⟩

/-- The number that a text writes, with a sign in front and blanks around it, or as one of the
words for infinity and for the value that is no number. Digits may be of any script. -/
def read? (s : Text) : Option Binary64 :=
  let body := (Text.trimNumeral s).map Text.plainDigit
  let (negative, body) := match body with
    | '-' :: rest => (true, rest)
    | '+' :: rest => (false, rest)
    | _ => (false, body)
  let word := Text.lower body
  if word == "inf".toList || word == "infinity".toList then some (.infinite negative)
  else if word == "nan".toList then some .undefined
  else (decimal? body).map (ofDecimal negative)

/-! ### Arithmetic -/

/-- The whole number that is left when the fraction of a number is dropped, for a finite number. -/
def truncate? : Binary64 → Option Int
  | .finite negative mantissa exponent =>
    let (numerator, denominator) := quotient mantissa exponent
    let whole : Int := (numerator / denominator : Nat)
    some (if negative then -whole else whole)
  | _ => none

/-- Whether a number is a zero. -/
def isZero : Binary64 → Bool
  | .finite _ mantissa _ => mantissa == 0
  | _ => false

/-- The negative of a number. -/
def negate : Binary64 → Binary64
  | .finite negative mantissa exponent => .finite (!negative) mantissa exponent
  | .infinite negative => .infinite (!negative)
  | .undefined => .undefined

/-- The number nearest to a natural number. -/
def ofNat (n : Nat) : Binary64 :=
  nearest false n 1

/-- The number nearest to the product of two numbers. -/
def times : Binary64 → Binary64 → Binary64
  | .finite negative mantissa exponent, .finite negative' mantissa' exponent' =>
    let (a, b) := quotient mantissa exponent
    let (c, d) := quotient mantissa' exponent'
    nearest (negative != negative') (a * c) (b * d)
  | .infinite negative, .finite negative' mantissa _ =>
    if mantissa = 0 then .undefined else .infinite (negative != negative')
  | .finite negative mantissa _, .infinite negative' =>
    if mantissa = 0 then .undefined else .infinite (negative != negative')
  | .infinite negative, .infinite negative' => .infinite (negative != negative')
  | _, _ => .undefined

/-- A numerator with the sign of its number. -/
def signed (negative : Bool) (n : Nat) : Int :=
  if negative then -(n : Int) else n

/-- The number nearest to the sum of two numbers. A sum of nothing is the positive zero unless both
numbers are negative zeros. -/
def plus : Binary64 → Binary64 → Binary64
  | .finite negative mantissa exponent, .finite negative' mantissa' exponent' =>
    let (a, b) := quotient mantissa exponent
    let (c, d) := quotient mantissa' exponent'
    let sum := signed negative (a * d) + signed negative' (c * b)
    if sum = 0 then zero (negative && negative') else nearest (sum < 0) sum.natAbs (b * d)
  | .infinite negative, .infinite negative' =>
    if negative = negative' then .infinite negative else .undefined
  | .infinite negative, .finite .. => .infinite negative
  | .finite .., .infinite negative => .infinite negative
  | _, _ => .undefined

/-- The whole number that a number equals, if it equals one. -/
def integer? : Binary64 → Option Int
  | .finite negative mantissa exponent =>
    let (numerator, denominator) := quotient mantissa exponent
    if numerator % denominator = 0 then
      let whole : Int := (numerator / denominator : Nat)
      some (if negative then -whole else whole)
    else
      none
  | _ => none

end Binary64

end LuauReference
