/-
This file holds dates and moments of the calendar: which of them exist, how they are written, and
when two moments are the same. A moment has the offset of its zone or none at all; two moments with
offsets are the same when they are so in one zone.
-/

import LuauReference.Text.Numeral

namespace LuauReference

/-- A day of the calendar. -/
structure Date where
  year : Nat
  month : Nat
  day : Nat
  deriving DecidableEq

/-- A time on a day, in microseconds, with the offset of its zone in minutes, if it has one. -/
structure Moment where
  date : Date
  hour : Nat
  minute : Nat
  second : Nat
  fraction : Nat
  offset : Option Int
  deriving DecidableEq

namespace Date

/-- Whether a year has an additional day. -/
def isLeapYear (year : Nat) : Bool :=
  year % 4 == 0 && (year % 100 != 0 || year % 400 == 0)

/-- How many days a month has. -/
def daysIn (year month : Nat) : Nat :=
  if month == 2 then if isLeapYear year then 29 else 28
  else if month == 4 || month == 6 || month == 9 || month == 11 then 30
  else 31

/-- Whether a date exists. -/
def isReal (date : Date) : Bool :=
  1 ≤ date.year && 1 ≤ date.month && date.month ≤ 12 && 1 ≤ date.day
    && date.day ≤ daysIn date.year date.month

/-- The number of a day, counted from the first day of the first year. -/
def number (date : Date) : Nat :=
  let past := date.year - 1
  let months :=
    (List.range (date.month - 1)).foldl (fun days m => days + daysIn date.year (m + 1)) 0
  past * 365 + past / 4 - past / 100 + past / 400 + months + date.day

/-- The month and day that lie the given number of days after the beginning of a month, where the
months that are left in the year are counted down. -/
def monthAndDay (year : Nat) : Nat → Nat → Nat → Nat × Nat
  | 0, month, days => (month, days + 1)
  | left + 1, month, days =>
    let length := daysIn year month
    if days < length then (month, days + 1) else monthAndDay year left (month + 1) (days - length)

/-- The day with a number. Years come in cycles of four hundred, one hundred and four, and the last
day of a cycle can be the day that its last year has more than others. -/
def ofNumber (number : Nat) : Date :=
  let days := number - 1
  let (cycles, days) := (days / 146097, days % 146097)
  let (centuries, days) := (days / 36524, days % 36524)
  let (fours, days) := (days / 1461, days % 1461)
  let (ones, days) := (days / 365, days % 365)
  let year := cycles * 400 + centuries * 100 + fours * 4 + ones + 1
  if ones = 4 || centuries = 4 then
    ⟨year - 1, 12, 31⟩
  else
    let (month, day) := monthAndDay year 11 1 days
    ⟨year, month, day⟩

/-- A date in text. -/
def text (date : Date) : Text :=
  Text.padZeros 4 (Text.ofNat date.year) ++ '-' :: Text.padZeros 2 (Text.ofNat date.month)
    ++ '-' :: Text.padZeros 2 (Text.ofNat date.day)

end Date

namespace Moment

/-- Whether a moment exists; its offset is less than a day. -/
def isReal (moment : Moment) : Bool :=
  moment.date.isReal && moment.hour ≤ 23 && moment.minute ≤ 59 && moment.second ≤ 59
    && moment.offset.all fun minutes => minutes.natAbs < 24 * 60

/-- The microseconds since the beginning of the calendar in the zone without offset. -/
def instant (moment : Moment) : Int :=
  let minutes := (moment.date.number * 24 + moment.hour) * 60 + moment.minute
  ((minutes : Int) - moment.offset.getD 0) * 60000000 + (moment.second * 1000000 + moment.fraction)

/-- Whether two moments are the same. -/
def same (moment other : Moment) : Bool :=
  moment.offset.isSome == other.offset.isSome && moment.instant == other.instant

/-- A number of at most two digits with both of them. -/
def twoDigits (n : Nat) : Text :=
  Text.padZeros 2 (Text.ofNat n)

/-- An offset in text. -/
def offsetText (minutes : Int) : Text :=
  (if minutes < 0 then '-' else '+') :: twoDigits (minutes.natAbs / 60)
    ++ ':' :: twoDigits (minutes.natAbs % 60)

/-- The time of day of a moment in text. A fraction is written only if there is one. -/
def timeText (moment : Moment) : Text :=
  twoDigits moment.hour ++ ':' :: twoDigits moment.minute ++ ':' :: twoDigits moment.second
    ++ (if moment.fraction = 0 then [] else '.' :: Text.padZeros 6 (Text.ofNat moment.fraction))

/-- A moment in text. -/
def text (moment : Moment) : Text :=
  moment.date.text ++ ' ' :: moment.timeText ++ (moment.offset.map offsetText).getD []

/-- A moment without offset as a record of when something was made. -/
def stamp (moment : Moment) : Text :=
  moment.date.text ++ 'T' :: moment.timeText ++ ['Z']

/-- The moment that lies the given number of microseconds after the beginning of a day. -/
def after (day : Date) (microseconds : Nat) : Moment :=
  let seconds := microseconds / 1000000
  ⟨Date.ofNumber (day.number + seconds / 86400), seconds / 3600 % 24, seconds / 60 % 60,
    seconds % 60,
    microseconds % 1000000, none⟩

end Moment

end LuauReference
