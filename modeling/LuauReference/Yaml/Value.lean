/-
This file holds the values that a YAML document can have and says which value a scalar stands for. A
collection is given by the number of its node, since it can be among its own items; what it holds is
looked up in the document.
-/

import LuauReference.Calendar
import LuauReference.Number.Binary64
import LuauReference.Text.Quoted
import LuauReference.Yaml.Base64
import LuauReference.Yaml.Cursor
import LuauReference.Yaml.Scalar

namespace LuauReference

namespace Yaml

/-- A value of a YAML document. -/
inductive Value
  | null
  | bool (value : Bool)
  | int (value : Int)
  | float (value : Binary64)
  | str (value : Text)
  | bytes (value : List UInt8)
  | date (value : Date)
  | moment (value : Moment)
  | pair (first second : Value)
  | list (number : Nat)
  | map (number : Nat)
  | set (number : Nat)

/-! ### Dates -/

/-- A text of digits as a number. -/
def digitsValue (s : Text) : Nat :=
  (Text.naturalIn? 10 s).getD 0

/-- The date of a timestamp. -/
def Timestamp.date (stamp : Timestamp) : Date :=
  ⟨digitsValue stamp.year, digitsValue stamp.month, digitsValue stamp.day⟩

/-- The moment of a timestamp that has a time of day. Of its fraction six digits count. -/
def Timestamp.moment (stamp : Timestamp) (time : ClockTime) : Moment :=
  let fraction := time.fraction.take 6
  let offset := time.zone.map fun (sign, hours, minutes) =>
    let total : Int := digitsValue hours * 60 + digitsValue minutes
    if sign == '-' then -total else total
  ⟨stamp.date, digitsValue time.hour, digitsValue time.minute, digitsValue time.second,
    digitsValue fraction * Nat.pow 10 (6 - fraction.length), offset⟩

namespace Value

/-- Whether a value can be a key. -/
def isKey : Value → Bool
  | list _ => false
  | map _ => false
  | set _ => false
  | _ => true

/-- The whole number that a value equals; truth values count as zero and one. -/
def integer? : Value → Option Int
  | bool value => some (if value then 1 else 0)
  | int value => some value
  | float value => value.integer?
  | _ => none

/-- Whether two values are the same key. -/
def sameKey (value other : Value) : Bool :=
  match value, other with
  | null, null => true
  | str s, str t => s == t
  | bytes s, bytes t => s == t
  | date d, date e => d == e
  | moment m, moment n => m.same n
  | value, other =>
    match value.integer?, other.integer? with
    | some i, some j => i == j
    | none, none =>
      match value, other with
      | float x, float y => x == y
      | _, _ => false
    | _, _ => false

/-! ### Values in prose -/

/-- A byte inside of quotes. -/
def byteText (quote : Char) (byte : UInt8) : Text :=
  let c := Char.ofNat byte.toNat
  if c == quote || c == '\\' then ['\\', c]
  else if c == '\t' then ['\\', 't']
  else if c == '\n' then ['\\', 'n']
  else if c == '\r' then ['\\', 'r']
  else if 0x20 ≤ byte.toNat && byte.toNat < 0x7F then [c]
  else '\\' :: 'x' :: Text.hex 2 byte.toNat

/-- Bytes in quotes, single ones unless the bytes hold a single quote and no double one. -/
def bytesText (bytes : List UInt8) : Text :=
  let holds (c : Char) : Bool := bytes.any fun byte => byte.toNat == c.toNat
  let quote := if holds '\x27' && !holds '"' then '"' else '\x27'
  'b' :: quote :: bytes.flatMap (byteText quote) ++ [quote]

/-- The text of a value that is no collection. A whole number of too many digits has none. -/
def text : Value → Except Failure Text
  | null => .ok "None"
  | bool true => .ok "True"
  | bool false => .ok "False"
  | int value =>
    let digits := Text.ofInt value
    if Text.longestNumeral < (Text.ofNat value.natAbs).length then .error .badValue else .ok digits
  | float value => .ok value.text
  | str value => .ok value
  | bytes value => .ok (bytesText value)
  | date value => .ok value.text
  | moment value => .ok value.text
  | _ => .ok []

/-! ### Scalars -/

/-- The truth value of a word in any letter case. -/
def ofBoolWord (s : Text) : Except Failure Value :=
  let word := Text.lower s
  if List.elem word (["yes", "true", "on"].map String.toList) then .ok (.bool true)
  else if List.elem word (["no", "false", "off"].map String.toList) then .ok (.bool false)
  else .error (.missingField word)

/-- The sign of a number and what follows it. A number must not be empty. -/
def signOf : Text → Except Failure (Bool × Text)
  | [] => .error .outOfRange
  | '-' :: rest => .ok (true, rest)
  | '+' :: rest => .ok (false, rest)
  | s => .ok (false, s)

/-- The mark by which a numeral of a base may begin. -/
def baseMark : Nat → Char
  | 2 => 'b'
  | 8 => 'o'
  | _ => 'x'

/-- The whole number that a text writes in a base of two, eight or sixteen. -/
def integerIn? (base : Nat) (s : Text) : Option Int :=
  let body := (Text.trim s).map Text.plainDigit
  let (negative, body) := match body with
    | '-' :: rest => (true, rest)
    | '+' :: rest => (false, rest)
    | _ => (false, body)
  let digits := match body with
    | '0' :: mark :: rest => if mark.toLower == baseMark base then rest else body
    | _ => body
  (Text.naturalIn? base digits).map fun n => if negative then -(n : Int) else n

/-- A number that must have been written. -/
def required {α : Type} : Option α → Except Failure α
  | some value => .ok value
  | none => .error .badValue

/-- The whole number that a text stands for: in a base of two, eight, ten or sixteen, or to the base
of sixty with colons between its parts. -/
def ofIntText (s : Text) : Except Failure Value := do
  let (negative, body) ← signOf (s.filter (· != '_'))
  let magnitude ← match body with
    | [] => .error .outOfRange
    | ['0'] => pure 0
    | '0' :: 'b' :: digits => required (integerIn? 2 digits)
    | '0' :: 'x' :: digits => required (integerIn? 16 digits)
    | '0' :: _ => required (integerIn? 8 body)
    | _ =>
      if body.contains ':' then do
        let parts ← (Text.pieces ':' body).mapM fun part => required (Text.integer? part)
        pure (parts.foldl (fun total part => total * 60 + part) 0)
      else
        required (Text.integer? body)
  pure (.int (if negative then -magnitude else magnitude))

/-- The sum of parts to the base of sixty, the last part first, from a power of sixty on. -/
def sixtySum (power : Nat) (total : Binary64) : List Binary64 → Except Failure Binary64
  | [] => .ok total
  | part :: more =>
    match Binary64.ofNat power with
    | .infinite _ => .error .unbounded
    | factor => sixtySum (power * 60) (total.plus (part.times factor)) more

/-- The number with a fraction that a text stands for. -/
def ofFloatText (s : Text) : Except Failure Value := do
  let (negative, body) ← signOf (Text.lower (s.filter (· != '_')))
  let magnitude ←
    if body = ".inf".toList then pure (.infinite false)
    else if body = ".nan".toList then pure .undefined
    else if body.contains ':' then do
      let parts ← (Text.pieces ':' body).mapM fun part => required (Binary64.read? part)
      sixtySum 1 (.zero false) parts.reverse
    else required (Binary64.read? body)
  pure (.float (if negative then magnitude.negate else magnitude))

/-- The date or moment that a text stands for. The end of a line after it does not count. -/
def ofTimestampText (s : Text) : Except Failure Value :=
  match timestampParts? ((Text.before? ['\n'] s).getD s) with
  | none => .error .noOperation
  | some stamp =>
    match stamp.time with
    | none => if stamp.date.isReal then .ok (.date stamp.date) else .error .badValue
    | some time =>
      let moment := stamp.moment time
      if moment.isReal then .ok (.moment moment) else .error .badValue

/-- The bytes that a text stands for. -/
def ofBinaryText (s : Text) : Except Fault Value :=
  if s.any fun c => 0x7F < c.toNat then
    malformed "failed to convert base64 data into ascii"
  else
    match base64? s with
    | some found => .ok (.bytes found)
    | none => malformed "failed to decode base64 data"

end Value

end Yaml

end LuauReference
