/-
This file says what a scalar of YAML 1.1 means when it is written without quotes: a constant, a
number, a date, or a text. The forms are those of the format: numbers may have underscores and other
bases, colons make a number to the base of sixty, and the words for truth values come in three
letter cases.
-/

import LuauReference.Text.Blank

namespace LuauReference

namespace Yaml

/-- What a scalar without quotes stands for. -/
inductive ScalarKind
  | null
  | bool
  | int
  | float
  | timestamp
  | merge
  | default
  | directive
  | str
  deriving DecidableEq, Repr

/-- A character that ends a line. Carriage returns have become line feeds before a text is read. -/
def isBreak (c : Char) : Bool :=
  c == '\n' || c == '\u0085' || c == '\u2028' || c == '\u2029'

/-! ### Numbers -/

/-- A text without the sign in front. -/
def dropSign : Text → Text
  | '-' :: rest => rest
  | '+' :: rest => rest
  | other => other

/-- A decimal digit or an underscore. -/
def isGrouped (c : Char) : Bool :=
  c.isDigit || c == '_'

/-- Whether a text is not empty and all its characters are of a class. -/
def isRun (test : Char → Bool) (s : Text) : Bool :=
  !s.isEmpty && s.all test

/-- Whether a text is a part of a number to the base of sixty. -/
def isSixtieth : Text → Bool
  | [d] => d.isDigit
  | [t, d] => '0' ≤ t && t ≤ '5' && d.isDigit
  | _ => false

/-- Whether a text is a colon and a part to the base of sixty, once or more. -/
def isSixtieths : Text → Bool
  | ':' :: rest => (Text.pieces ':' rest).all isSixtieth
  | _ => false

/-- Whether a text is a whole number. -/
def isInt (s : Text) : Bool :=
  match dropSign s with
  | ['0'] => true
  | '0' :: 'b' :: digits => isRun (fun c => c == '0' || c == '1' || c == '_') digits
  | '0' :: 'x' :: digits =>
    isRun (fun c => isGrouped c || ('a' ≤ c && c ≤ 'f') || ('A' ≤ c && c ≤ 'F')) digits
  | '0' :: digits => isRun (fun c => ('0' ≤ c && c ≤ '7') || c == '_') digits
  | c :: rest =>
    if c.isDigit then
      let tail := rest.dropWhile isGrouped
      tail.isEmpty || isSixtieths tail
    else
      false
  | [] => false

/-- Whether a text is empty or the exponent of a number, which must have a sign. -/
def isExponent : Text → Bool
  | [] => true
  | e :: sign :: digits =>
    (e == 'e' || e == 'E') && (sign == '-' || sign == '+') && isRun Char.isDigit digits
  | _ => false

/-- Whether a text is a number with a fraction. -/
def isFloat (s : Text) : Bool :=
  let unsigned := dropSign s
  let pointed := match s with
    | '.' :: c :: rest => c.isDigit && isExponent (rest.dropWhile isGrouped)
    | _ => false
  let whole := match unsigned with
    | c :: rest =>
      if c.isDigit then
        match rest.dropWhile isGrouped with
        | '.' :: tail => isExponent (tail.dropWhile isGrouped)
        | ':' :: tail =>
          match Text.cutLast? '.' (':' :: tail) with
          | some (parts, fraction) => isSixtieths parts && fraction.all isGrouped
          | none => false
        | _ => false
      else
        false
    | [] => false
  pointed || whole || List.elem unsigned (["." ++ "inf", ".Inf", ".INF"].map String.toList)
    || List.elem s ([".nan", ".NaN", ".NAN"].map String.toList)

/-! ### Dates -/

/-- One or two digits at the head of a text, and what follows. -/
def oneOrTwo? : Text → Option (Text × Text)
  | a :: b :: rest =>
    if a.isDigit then
      if b.isDigit then some ([a, b], rest) else some ([a], b :: rest)
    else
      none
  | [a] => if a.isDigit then some ([a], []) else none
  | [] => none

/-- Exactly two digits at the head of a text, and what follows. -/
def two? : Text → Option (Text × Text)
  | a :: b :: rest => if a.isDigit && b.isDigit then some ([a, b], rest) else none
  | _ => none

/-- The parts of a time of day: hour, minute, second, fraction and zone. -/
structure ClockTime where
  hour : Text
  minute : Text
  second : Text
  fraction : Text
  zone : Option (Char × Text × Text)

/-- The parts of a date, with a time of day or without. -/
structure Timestamp where
  year : Text
  month : Text
  day : Text
  time : Option ClockTime

/-- The zone at the end of a time: none, the letter for the zero zone, or a sign with hours and
minutes. -/
def zone? (s : Text) : Option (Option (Char × Text × Text)) :=
  match s.dropWhile fun c => c == ' ' || c == '\t' with
  | [] => if s.isEmpty then some none else none
  | ['Z'] => some (some ('Z', [], []))
  | sign :: rest =>
    if sign == '+' || sign == '-' then do
      let (hours, tail) ← oneOrTwo? rest
      match tail with
      | [] => some (some (sign, hours, []))
      | ':' :: minutes => do
        let (digits, after) ← two? minutes
        if after.isEmpty then some (some (sign, hours, digits)) else none
      | _ => none
    else
      none

/-- The time of day at the end of a date. -/
def time? (s : Text) : Option ClockTime := do
  let (hour, afterHour) ← oneOrTwo? s
  let minutes ← Text.after? ":" afterHour
  let (minute, afterMinute) ← two? minutes
  let seconds ← Text.after? ":" afterMinute
  let (second, afterSecond) ← two? seconds
  let (fraction, tail) := match afterSecond with
    | '.' :: rest => (rest.takeWhile Char.isDigit, rest.dropWhile Char.isDigit)
    | _ => ([], afterSecond)
  let zone ← zone? tail
  pure ⟨hour, minute, second, fraction, zone⟩

/-- The parts of a date, which may have single digits for month and day. -/
def timestampParts? (s : Text) : Option Timestamp := do
  let year := s.take 4
  if !(year.length == 4 && year.all Char.isDigit) then none
  let months ← Text.after? "-" (s.drop 4)
  let (month, afterMonth) ← oneOrTwo? months
  let days ← Text.after? "-" afterMonth
  let (day, tail) ← oneOrTwo? days
  match tail with
  | [] => pure ⟨year, month, day, none⟩
  | c :: rest =>
    if c == 'T' || c == 't' then do
      let time ← time? rest
      pure ⟨year, month, day, some time⟩
    else if c == ' ' || c == '\t' then do
      let time ← time? (rest.dropWhile fun c => c == ' ' || c == '\t')
      pure ⟨year, month, day, some time⟩
    else
      none

/-- Whether a text is a date. A date without a time of day needs two digits for month and day. -/
def isTimestamp (s : Text) : Bool :=
  match timestampParts? s with
  | some stamp => stamp.time.isSome || (stamp.month.length == 2 && stamp.day.length == 2)
  | none => false

/-! ### Kinds -/

/-- The words for a truth value. -/
def boolWords : List Text :=
  ["yes", "Yes", "YES", "no", "No", "NO", "true", "True", "TRUE", "false", "False", "FALSE", "on",
    "On", "ON", "off", "Off", "OFF"].map String.toList

/-- The words for nothing. -/
def nullWords : List Text :=
  ["", "~", "null", "Null", "NULL"].map String.toList

/-- What a scalar without quotes stands for. -/
def kindOf (s : Text) : ScalarKind :=
  if List.elem s nullWords then .null
  else if List.elem s boolWords then .bool
  else if isFloat s then .float
  else if isInt s then .int
  else if isTimestamp s then .timestamp
  else if s = "<<" then .merge
  else if s = "=" then .default
  else if s = "!" || s = "&" || s = "*" then .directive
  else .str

end Yaml

end LuauReference
