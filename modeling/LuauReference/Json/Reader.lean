/-
This file reads JSON text in two steps. The first cuts the text into tokens: marks, texts, numbers
and the words for the constants. The second runs over the tokens with a stack of the lists and
objects that are still open, so that it is plain recursion on the tokens, however deep the value
nests. Where no token can be cut off, a fault stands for the rest, so that it is reported only when
the run gets there and nothing before it was wrong.

Beside the numbers of the format, the words for the infinities and for the value that is no number
are accepted. Of fields with one name the last counts.
-/

import LuauReference.Json.Basic

namespace LuauReference

namespace Json

/-- Why a text is no JSON value. A numeral with too many digits is told apart. -/
inductive ReadFault
  | malformed
  | numeralTooLong
  deriving DecidableEq, Repr

/-- A token of JSON text: a mark, a text by its units, a number or constant, or the fault that ends
the text. -/
inductive Token
  | openList
  | closeList
  | openObject
  | closeObject
  | comma
  | colon
  | text (units : List Nat)
  | scalar (value : Json)
  | fault (fault : ReadFault)

namespace Token

/-- Whether a token opens a list or an object. -/
def opens : Token → Bool
  | openList => true
  | openObject => true
  | _ => false

/-- Whether a token closes a list or an object. -/
def closes : Token → Bool
  | closeList => true
  | closeObject => true
  | _ => false

end Token

/-! ### Texts -/

/-- The unit of UTF-16 that four hexadecimal digits write. -/
def unit? (a b c d : Char) : Option Nat :=
  Text.naturalIn? 16 [a, b, c, d]

/-- The character of an escape that is one letter. -/
def shortEscape? (c : Char) : Option Char :=
  match c with
  | '"' => some '"'
  | '\\' => some '\\'
  | '/' => some '/'
  | 'b' => some (Char.ofNat 0x08)
  | 'f' => some (Char.ofNat 0x0C)
  | 'n' => some '\n'
  | 'r' => some '\r'
  | 't' => some '\t'
  | _ => none

/-- Whether a unit is the first of a pair. -/
def isHighUnit (unit : Nat) : Bool :=
  0xD800 ≤ unit && unit < 0xDC00

/-- Whether a unit is the second of a pair. -/
def isLowUnit (unit : Nat) : Bool :=
  0xDC00 ≤ unit && unit < 0xE000

/-- Whether each half of a pair in a list of units and code points has its other half. -/
def arePaired : List Nat → Bool
  | [] => true
  | [last] => !isHighUnit last && !isLowUnit last
  | first :: second :: rest =>
    if isHighUnit first && isLowUnit second then arePaired rest
    else !isHighUnit first && !isLowUnit first && arePaired (second :: rest)

/-- The text of a list of units and code points. Two units of a pair make one character; half a
pair on its own is no character, and the replacement character stands for it. -/
def joinUnits : List Nat → Text
  | [] => []
  | [last] => [single last]
  | first :: second :: rest =>
    if isHighUnit first && isLowUnit second then
      Char.ofNat (0x10000 + (first - 0xD800) * 0x400 + (second - 0xDC00)) :: joinUnits rest
    else
      single first :: joinUnits (second :: rest)
where
  /-- The character of a unit or code point that is no part of a pair. -/
  single (unit : Nat) : Char :=
    if isHighUnit unit || isLowUnit unit then Char.ofNat 0xFFFD else Char.ofNat unit

/-- Puts a unit before the units of what follows, if both are there. -/
def prepend? : Option Nat → Option (List Nat × Text) → Option (List Nat × Text)
  | some unit, some (units, tail) => some (unit :: units, tail)
  | _, _ => none

/-- The units of a text up to its closing quote, and what follows that. -/
def textUnits? : Text → Option (List Nat × Text)
  | '"' :: rest => some ([], rest)
  | '\\' :: 'u' :: a :: b :: c :: d :: rest => prepend? (unit? a b c d) (textUnits? rest)
  | '\\' :: letter :: rest => prepend? ((shortEscape? letter).map Char.toNat) (textUnits? rest)
  | c :: rest =>
    if c = '\\' || c.toNat < 0x20 then none else prepend? (some c.toNat) (textUnits? rest)
  | [] => none

/-- What follows both parts is what follows the second. -/
theorem tail_of_prepend? {unit : Option Nat} {rest : Option (List Nat × Text)} {units : List Nat}
    {tail : Text} (found : prepend? unit rest = some (units, tail)) :
    ∃ more, rest = some (more, tail) := by
  unfold prepend? at found
  split at found
  · next more last =>
    simp only [Option.some.injEq, Prod.mk.injEq] at found
    exact ⟨more, by rw [found.2]⟩
  · simp at found

/-- What follows a text is shorter than the text with it. -/
theorem length_lt_of_textUnits? {s tail : Text} {units : List Nat}
    (found : textUnits? s = some (units, tail)) : tail.length < s.length := by
  fun_induction textUnits? s generalizing units with
  | case1 rest => simp_all
  | case2 a b c d rest inductionHypothesis =>
    obtain ⟨more, step⟩ := tail_of_prepend? found
    have := inductionHypothesis step
    simp only [List.length_cons]
    omega
  | case3 letter rest _ inductionHypothesis =>
    obtain ⟨more, step⟩ := tail_of_prepend? found
    have := inductionHypothesis step
    simp only [List.length_cons]
    omega
  | case4 => simp at found
  | case5 c rest _ _ _ _ inductionHypothesis =>
    obtain ⟨more, step⟩ := tail_of_prepend? found
    have := inductionHypothesis step
    simp only [List.length_cons]
    omega
  | case6 => simp at found

/-! ### Numbers and words -/

/-- Characters that occur in numbers. -/
def isNumberChar (c : Char) : Bool :=
  c.isDigit || c == '-' || c == '+' || c == '.' || c == 'e' || c == 'E'

/-- Whether a run of digits can be the whole part of a number: no zero stands before a digit. -/
def isWholePart : Text → Bool
  | [] => false
  | ['0'] => true
  | '0' :: _ => false
  | _ => true

/-- Whether a text begins with the fraction or the exponent of a number. -/
def goesOn : Text → Bool
  | [] => false
  | '.' :: rest => rest.head?.any Char.isDigit
  | c :: rest =>
    let digits := match rest with
      | '+' :: more => more
      | '-' :: more => more
      | _ => rest
    (c == 'e' || c == 'E') && digits.head?.any Char.isDigit

/-- The value of a number without its sign. A whole number that is too long is refused before what
follows it is looked at. -/
def magnitude? (negative : Bool) (s : Text) : Except ReadFault Json :=
  let (whole, rest) := Binary64.digitRun s
  if !isWholePart whole then
    .error .malformed
  else if !goesOn rest && decide (Text.longestNumeral < whole.length) then
    .error .numeralTooLong
  else if rest.isEmpty then
    match Text.naturalIn? 10 whole with
    | some n => .ok (int (if negative then -(n : Int) else n))
    | none => .error .malformed
  else if Text.endsWith s "." || Text.hasPart s ".e" || Text.hasPart s ".E" then
    .error .malformed
  else
    match Binary64.decimal? s with
    | some d => .ok (float (Binary64.ofDecimal negative d))
    | none => .error .malformed

/-- The value of a number. -/
def number? : Text → Except ReadFault Json
  | '-' :: rest => magnitude? true rest
  | s => magnitude? false s

/-- The constants that are written as words. -/
def constants : List (Text × Json) :=
  [("null", null), ("true", bool true), ("false", bool false), ("NaN", float .undefined),
    ("Infinity", float (.infinite false)), ("-Infinity", float (.infinite true))]

/-- The constant at the head of a text, with what follows it. -/
def constant? (s : Text) : Option (Json × Text) :=
  constants.findSome? fun (word, value) => (Text.after? word s).map fun rest => (value, rest)

/-- What follows a constant is shorter than the text with it. -/
theorem length_lt_of_constant? {s rest : Text} {value : Json}
    (found : constant? s = some (value, rest)) : rest.length < s.length := by
  obtain ⟨⟨word, constant⟩, member, step⟩ := List.exists_of_findSome?_eq_some found
  cases after : Text.after? word s with
  | none => simp [after] at step
  | some tail =>
    simp only [after, Option.map_some, Option.some.injEq, Prod.mk.injEq] at step
    have present : word ≠ [] := by
      simp only [constants, List.mem_cons, List.not_mem_nil, or_false, Prod.mk.injEq] at member
      rcases member with h | h | h | h | h | h <;> rw [h.1] <;> decide
    exact step.2 ▸ Text.length_lt_of_after? after present

/-! ### Tokens -/

/-- The blanks that may stand between tokens. -/
def isSpace (c : Char) : Bool :=
  c == ' ' || c == '\t' || c == '\n' || c == '\r'

/-- The token that a mark is. -/
def mark? (c : Char) : Option Token :=
  match c with
  | '[' => some .openList
  | ']' => some .closeList
  | '\x7b' => some .openObject
  | '\x7d' => some .closeObject
  | ',' => some .comma
  | ':' => some .colon
  | _ => none

/-- The tokens of a text. -/
def tokens (s : Text) : List Token :=
  match s with
  | [] => []
  | c :: rest =>
    if isSpace c then
      tokens rest
    else
      match mark? c with
      | some token => token :: tokens rest
      | none =>
        if c = '"' then
          match _step : textUnits? rest with
          | some (units, tail) => .text units :: tokens tail
          | none => [.fault .malformed]
        else
          match _step : constant? (c :: rest) with
          | some (value, tail) => .scalar value :: tokens tail
          | none =>
            if isNumberChar c then
              match number? (c :: rest.takeWhile isNumberChar) with
              | .ok value => .scalar value :: tokens (rest.dropWhile isNumberChar)
              | .error fault => [.fault fault]
            else
              [.fault .malformed]
termination_by s.length
decreasing_by
  · simp
  · simp
  · have := length_lt_of_textUnits? _step
    simp only [List.length_cons]
    omega
  · exact length_lt_of_constant? _step
  · have := (List.dropWhile_suffix (l := rest) isNumberChar).length_le
    simp only [List.length_cons]
    omega

/-! ### Values -/

/-- A list or object that is still open, with its entries so far, the last one first. An object
waits for the value of a name that has been read. -/
inductive Frame
  | list (items : List Json)
  | object (entries : List (Text × Json)) (name : Text)

/-- What must come next: a value, a value or the end of an empty list, a name, a name or the end of
an empty object, or a mark after a value. -/
inductive Expecting
  | value
  | valueOrEnd
  | name (entries : List (Text × Json))
  | nameOrEnd
  | colon (entries : List (Text × Json)) (name : Text)
  | afterValue (value : Json)

/-- What is expected after a value: it waits for the mark that says how to go on. -/
def step : Expecting → List Frame → Token → Option (Expecting × List Frame)
  | .value, stack, .text units => some (.afterValue (str (joinUnits units)), stack)
  | .value, stack, .scalar value => some (.afterValue value, stack)
  | .value, stack, .openList => some (.valueOrEnd, .list [] :: stack)
  | .value, stack, .openObject => some (.nameOrEnd, stack)
  | .valueOrEnd, .list [] :: stack, .closeList => some (.afterValue (arr []), stack)
  | .valueOrEnd, stack, .text units => some (.afterValue (str (joinUnits units)), stack)
  | .valueOrEnd, stack, .scalar value => some (.afterValue value, stack)
  | .valueOrEnd, stack, .openList => some (.valueOrEnd, .list [] :: stack)
  | .valueOrEnd, stack, .openObject => some (.nameOrEnd, stack)
  | .nameOrEnd, stack, .closeObject => some (.afterValue (obj []), stack)
  | .nameOrEnd, stack, .text units => some (.colon [] (joinUnits units), stack)
  | .name entries, stack, .text units => some (.colon entries (joinUnits units), stack)
  | .colon entries name, stack, .colon => some (.value, .object entries name :: stack)
  | .afterValue value, .list items :: stack, .comma =>
    some (.value, .list (value :: items) :: stack)
  | .afterValue value, .list items :: stack, .closeList =>
    some (.afterValue (arr (value :: items).reverse), stack)
  | .afterValue value, .object entries name :: stack, .comma =>
    some (.name ((name, value) :: entries), stack)
  | .afterValue value, .object entries name :: stack, .closeObject =>
    some (.afterValue (obj (Named.ofPairs ((name, value) :: entries).reverse)), stack)
  | _, _, _ => none

/-- Why a token is refused. A number that is too long is told apart where a number can stand;
elsewhere nobody looks what it is. -/
def refusal : Expecting → Token → ReadFault
  | .value, .fault fault => fault
  | .valueOrEnd, .fault fault => fault
  | _, _ => .malformed

/-- Runs over tokens. The run ends well when a value is complete and nothing is open. -/
def run : Expecting → List Frame → List Token → Except ReadFault Json
  | .afterValue value, [], [] => .ok value
  | _, _, [] => .error .malformed
  | expecting, stack, token :: rest =>
    match step expecting stack token with
    | some (expecting, stack) => run expecting stack rest
    | none => .error (refusal expecting token)

/-- The value that a text writes. -/
def read (s : Text) : Except ReadFault Json :=
  run .value [] (tokens s)

end Json

end LuauReference
