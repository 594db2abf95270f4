/-
This file proves that reading undoes writing for JSON values. The text of a value is cut into the
tokens of that value, whatever follows it, and running over the tokens of a value completes that
value on whatever stack. Two things can go wrong and are conditions: an object with two fields of
one name is read with one of them, and a number is read back only if the reader takes its text for
it. Whole numbers have too many digits or are read back; of other numbers the condition speaks as it
stands.
-/

import LuauReference.Proofs.Json.Quoted
import LuauReference.Proofs.Text.Named
import Mathlib.Data.List.TakeWhile

namespace LuauReference

namespace Json

/-! ### Values that are read back -/

mutual

/-- Whether every number in a value is read back from its text and no object has two fields of one
name. -/
def IsPlain : Json → Prop
  | null => True
  | bool _ => True
  | int value => number? (Text.ofInt value) = .ok (int value)
  | float value =>
    (∃ negative, value = .infinite negative) ∨ number? (writeFloat value) = .ok (float value)
  | str _ => True
  | arr items => ArePlainItems items
  | obj fields => (Named.names fields).Nodup ∧ ArePlainFields fields

/-- Whether all items are plain. -/
def ArePlainItems : List Json → Prop
  | [] => True
  | item :: items => IsPlain item ∧ ArePlainItems items

/-- Whether the values of all fields are plain. -/
def ArePlainFields : List (Text × Json) → Prop
  | [] => True
  | (_, value) :: fields => IsPlain value ∧ ArePlainFields fields

end

theorem arePlainItems_iff (items : List Json) :
    ArePlainItems items ↔ ∀ item ∈ items, IsPlain item := by
  induction items with
  | nil => simp [ArePlainItems]
  | cons item items inductionHypothesis => simp [ArePlainItems, inductionHypothesis]

theorem arePlainFields_iff (fields : List (Text × Json)) :
    ArePlainFields fields ↔ ∀ field ∈ fields, IsPlain field.2 := by
  induction fields with
  | nil => simp [ArePlainFields]
  | cons field fields inductionHypothesis => simp [ArePlainFields, inductionHypothesis]

/-! ### Numbers -/

theorem isWholePart_ofNat (n : Nat) : isWholePart (Text.ofNat n) = true := by
  rcases Nat.eq_zero_or_pos n with zero | positive
  · rw [zero]
    rfl
  · have present := Text.ofNat_ne_nil n
    have nonzero := Text.head?_ofNat_ne_zero positive
    unfold isWholePart
    split <;> simp_all

theorem digitRun_ofNat (n : Nat) : Binary64.digitRun (Text.ofNat n) = (Text.ofNat n, []) := by
  have digits : ∀ c ∈ Text.ofNat n, c.isDigit = true := fun c member =>
    Text.isDigit_of_mem_ofNat member
  rw [Binary64.digitRun, List.takeWhile_eq_self_iff.mpr digits,
    List.dropWhile_eq_nil_iff.mpr digits]

/-- A natural number of not too many digits is read back, with the sign before it. -/
theorem magnitude?_ofNat (negative : Bool) {n : Nat} (small : n < 10 ^ Text.longestNumeral) :
    magnitude? negative (Text.ofNat n) = .ok (int (if negative then -(n : Int) else n)) := by
  have short : ¬ Text.longestNumeral < (Text.ofNat n).length :=
    Nat.not_lt.mpr (Text.length_ofNat_le_iff.mpr small)
  simp only [magnitude?, digitRun_ofNat, isWholePart_ofNat, Text.naturalIn?_ofNat, List.isEmpty_nil,
    if_true, decide_eq_false short, Bool.and_false, Bool.not_true, Bool.false_eq_true, if_false]

/-- A whole number of not too many digits is read back. -/
theorem number?_ofInt {value : Int} (small : value.natAbs < 10 ^ Text.longestNumeral) :
    number? (Text.ofInt value) = .ok (int value) := by
  cases value with
  | ofNat n =>
    have unsigned : ∀ rest, Text.ofNat n ≠ '-' :: rest := by
      intro rest same
      have digit : '-'.isDigit = true := Text.isDigit_of_mem_ofNat (n := n) (by rw [same]; simp)
      exact absurd digit (by decide)
    have bounded : n < 10 ^ Text.longestNumeral := small
    rw [Text.ofInt, number?, magnitude?_ofNat false bounded]
    · rfl
    · exact unsigned
  | negSucc n =>
    have bounded : n + 1 < 10 ^ Text.longestNumeral := small
    rw [Text.ofInt, number?, magnitude?_ofNat true bounded]
    rfl

/-! ### The characters of numbers -/

/-- Whether a text has only characters that occur in numbers. -/
abbrev IsNumeric (s : Text) : Prop :=
  ∀ c ∈ s, isNumberChar c = true

theorem isNumeric_of_all {s : Text} (all : s.all isNumberChar = true) : IsNumeric s :=
  List.all_eq_true.mp all

theorem isNumeric_ofNat (n : Nat) : IsNumeric (Text.ofNat n) := by
  intro c member
  simp [isNumberChar, Text.isDigit_of_mem_ofNat member]

theorem isNumeric_cons {c : Char} {s : Text} (head : isNumberChar c = true) (tail : IsNumeric s) :
    IsNumeric (c :: s) :=
  List.forall_mem_cons.mpr ⟨head, tail⟩

theorem isNumeric_append {s t : Text} (front : IsNumeric s) (back : IsNumeric t) :
    IsNumeric (s ++ t) :=
  List.forall_mem_append.mpr ⟨front, back⟩

theorem isNumeric_nil : IsNumeric [] :=
  List.forall_mem_nil _

theorem isNumeric_replicate_zero (count : Nat) : IsNumeric (List.replicate count '0') := by
  intro c member
  rw [List.eq_of_mem_replicate member]
  rfl

theorem isNumeric_ofInt (value : Int) : IsNumeric (Text.ofInt value) := by
  cases value with
  | ofNat n => exact isNumeric_ofNat n
  | negSucc n => exact isNumeric_cons rfl (isNumeric_ofNat _)

/-- Digits and a power of ten are written with the characters of numbers. -/
theorem isNumeric_textOfDigits {digits : Text} (exponent : Int) (each : IsNumeric digits) :
    IsNumeric (Binary64.textOfDigits digits exponent) := by
  have front (count : Nat) : IsNumeric (digits.take count) := fun c member =>
    each c (List.mem_of_mem_take member)
  have back (count : Nat) : IsNumeric (digits.drop count) := fun c member =>
    each c (List.mem_of_mem_drop member)
  have fraction (count : Nat) (empty : Text) (numeric : IsNumeric empty) :
      IsNumeric (if (digits.drop count).isEmpty then empty else digits.drop count) := by
    split
    · exact numeric
    · exact back count
  have power (n : Nat) : IsNumeric (Text.padZeros 2 (Text.ofNat n)) :=
    isNumeric_append (isNumeric_replicate_zero _) (isNumeric_ofNat n)
  rw [Binary64.textOfDigits]
  split
  · split
    · exact isNumeric_append
        (isNumeric_append (isNumeric_of_all rfl) (isNumeric_replicate_zero _)) each
    · exact isNumeric_append (isNumeric_append (front _) (isNumeric_replicate_zero _))
        (isNumeric_cons rfl (fraction _ _ (isNumeric_of_all rfl)))
  · refine isNumeric_append (isNumeric_append (front _) ?_)
      (isNumeric_cons rfl (isNumeric_cons ?_ (power _)))
    · split
      · exact isNumeric_nil
      · exact isNumeric_cons rfl (back _)
    · split <;> rfl

/-- A finite number is written with the characters of numbers. -/
theorem isNumeric_writeFloat (negative : Bool) (mantissa : Nat) (exponent : Int) :
    IsNumeric (writeFloat (.finite negative mantissa exponent)) := by
  have magnitude : IsNumeric (Binary64.magnitudeText mantissa exponent) := by
    rw [Binary64.magnitudeText]
    split
    · exact isNumeric_of_all rfl
    · refine isNumeric_textOfDigits _ fun c member =>
        isNumeric_ofNat (Binary64.shortest mantissa exponent).digits c ?_
      exact List.mem_reverse.mp ((List.dropWhile_suffix _).subset (List.mem_reverse.mp member))
  rw [writeFloat, Binary64.textWith]
  refine isNumeric_append ?_ magnitude
  cases negative
  · exact isNumeric_nil
  · exact isNumeric_of_all rfl

/-! ### Tokens of a text -/

/-- What may follow a number: no character that could go on with it. -/
def EndsNumber (rest : Text) : Prop :=
  ∀ c ∈ rest.head?, isNumberChar c = false

theorem endsNumber_cons {c : Char} (rest : Text) (other : isNumberChar c = false) :
    EndsNumber (c :: rest) := by
  simp [EndsNumber, other]

theorem tokens_space {c : Char} (rest : Text) (space : isSpace c = true) :
    tokens (c :: rest) = tokens rest := by
  rw [tokens, if_pos space]

theorem tokens_mark {c : Char} {token : Token} (rest : Text) (solid : isSpace c = false)
    (mark : mark? c = some token) : tokens (c :: rest) = token :: tokens rest := by
  rw [tokens, if_neg (by simp [solid]), mark]

theorem tokens_newline (level : Nat) (rest : Text) :
    tokens (newline level ++ rest) = tokens rest := by
  have spaces (count : Nat) : tokens (List.replicate count ' ' ++ rest) = tokens rest := by
    induction count with
    | zero => rfl
    | succ count inductionHypothesis =>
      rw [List.replicate_succ, List.cons_append, tokens_space _ rfl, inductionHypothesis]
  rw [newline, List.cons_append, tokens_space _ rfl, spaces]

/-- A quoted text is one token. -/
theorem tokens_writeText (s rest : Text) :
    tokens (writeText s ++ rest) = .text (s.flatMap unitsOf) :: tokens rest := by
  have found := textUnits?_flatMap_escapeChar s rest
  rw [writeText, List.cons_append, List.cons_append, List.append_assoc, List.singleton_append,
    tokens, if_neg (by decide), show mark? '"' = none from rfl]
  simp only [if_true]
  split
  · next units tail step =>
    rw [found, Option.some.injEq, Prod.mk.injEq] at step
    rw [← step.1, ← step.2]
  · next step =>
    rw [found] at step
    exact absurd step (by simp)

/-- A constant is one token. -/
theorem tokens_constant {c : Char} {word : Text} {value : Json} (rest : Text)
    (solid : isSpace c = false) (noMark : mark? c = none) (notQuote : c ≠ '"')
    (found : constant? (c :: (word ++ rest)) = some (value, rest)) :
    tokens (c :: (word ++ rest)) = .scalar value :: tokens rest := by
  rw [tokens, if_neg (by simp [solid]), noMark]
  simp only [if_neg notQuote]
  split
  · next other tail step =>
    rw [found, Option.some.injEq, Prod.mk.injEq] at step
    rw [← step.1, ← step.2]
  · next step =>
    rw [found] at step
    exact absurd step (by simp)

theorem ne_of_isNumberChar {c m : Char} (number : isNumberChar c = true)
    (letter : isNumberChar m = false) : m ≠ c := by
  intro same
  rw [same, number] at letter
  exact absurd letter (by decide)

/-- A character of numbers begins a token that is neither a mark nor a text. -/
theorem solid_of_isNumberChar {c : Char} (number : isNumberChar c = true) :
    isSpace c = false ∧ mark? c = none ∧ c ≠ '"' := by
  have other {m : Char} (letter : isNumberChar m = false) : c ≠ m :=
    Ne.symm (ne_of_isNumberChar number letter)
  refine ⟨?_, ?_, other rfl⟩
  · have space : c ≠ ' ' := other rfl
    have tab : c ≠ '\t' := other rfl
    have feed : c ≠ '\n' := other rfl
    have back : c ≠ '\r' := other rfl
    simp [isSpace, space, tab, feed, back]
  · unfold mark?
    split <;> first | rfl | exact absurd number (by decide)

theorem after?_cons_of_ne {m c : Char} (mark rest : Text) (other : m ≠ c) :
    Text.after? (m :: mark) (c :: rest) = none := by
  rw [Text.after?, if_neg other]

/-- A text of characters of numbers begins no constant, unless it is the sign alone. -/
theorem constant?_eq_none {s : Text} (rest : Text) (numeric : IsNumeric s) (present : s ≠ [])
    (notSign : s ≠ ['-']) : constant? (s ++ rest) = none := by
  obtain ⟨c, more, rfl⟩ := List.exists_cons_of_ne_nil present
  have other {m : Char} (letter : isNumberChar m = false) : m ≠ c :=
    ne_of_isNumberChar (numeric c List.mem_cons_self) letter
  rw [constant?, List.findSome?_eq_none_iff]
  simp only [constants, List.forall_mem_cons, List.not_mem_nil, false_imp_iff, implies_true,
    and_true, Option.map_eq_none_iff, List.cons_append]
  refine ⟨after?_cons_of_ne _ _ (other rfl), after?_cons_of_ne _ _ (other rfl),
    after?_cons_of_ne _ _ (other rfl), after?_cons_of_ne _ _ (other rfl),
    after?_cons_of_ne _ _ (other rfl), ?_⟩
  -- Only the negative infinity begins with a character of numbers.
  by_cases sign : c = '-'
  · subst sign
    have further : more ≠ [] := fun empty => notSign (by rw [empty])
    obtain ⟨d, rest', rfl⟩ := List.exists_cons_of_ne_nil further
    have second : isNumberChar d = true := numeric d (by simp)
    show Text.after? ('-' :: 'I' :: "nfinity".toList) ('-' :: d :: (rest' ++ rest)) = none
    rw [Text.after?, if_pos rfl, after?_cons_of_ne _ _ (ne_of_isNumberChar second rfl)]
  · exact after?_cons_of_ne _ _ (Ne.symm sign)

/-- A number that is read back is one token. -/
theorem tokens_number {s rest : Text} {value : Json} (numeric : IsNumeric s)
    (read : number? s = .ok value) (ends : EndsNumber rest) :
    tokens (s ++ rest) = .scalar value :: tokens rest := by
  have present : s ≠ [] := by
    rintro rfl
    cases read
  have notSign : s ≠ ['-'] := by
    rintro rfl
    cases read
  have noConstant := constant?_eq_none rest numeric present notSign
  obtain ⟨c, more, rfl⟩ := List.exists_cons_of_ne_nil present
  have first : isNumberChar c = true := numeric c List.mem_cons_self
  have tail : ∀ d ∈ more, isNumberChar d = true := fun d member =>
    numeric d (List.mem_cons_of_mem _ member)
  have stop : rest.takeWhile isNumberChar = [] ∧ rest.dropWhile isNumberChar = rest := by
    cases rest with
    | nil => exact ⟨rfl, rfl⟩
    | cons d rest =>
      have other : isNumberChar d = false := ends d rfl
      simp [other]
  have taken : (more ++ rest).takeWhile isNumberChar = more := by
    rw [List.takeWhile_append_of_pos tail, stop.1, List.append_nil]
  have left : (more ++ rest).dropWhile isNumberChar = rest := by
    rw [List.dropWhile_append_of_pos tail, stop.2]
  obtain ⟨solid, noMark, notQuote⟩ := solid_of_isNumberChar first
  rw [List.cons_append] at noConstant ⊢
  rw [tokens, if_neg (by simp [solid]), noMark]
  simp only [if_neg notQuote]
  split
  · next other tail step =>
    rw [noConstant] at step
    exact absurd step (by simp)
  · rw [if_pos first, taken, left, read]

/-! ### Tokens of a value -/

mutual

/-- The tokens of a value. -/
def tokensOf : Json → List Token
  | arr [] => [.openList, .closeList]
  | arr (item :: items) => .openList :: tokensOf item ++ tokensOfItems items ++ [.closeList]
  | obj [] => [.openObject, .closeObject]
  | obj ((name, value) :: fields) =>
    .openObject :: .text (name.flatMap unitsOf) :: .colon :: tokensOf value ++ tokensOfFields fields
      ++ [.closeObject]
  | str text => [.text (text.flatMap unitsOf)]
  | scalar => [.scalar scalar]

/-- The tokens of the items after the first one, each with the comma before it. -/
def tokensOfItems : List Json → List Token
  | [] => []
  | item :: items => .comma :: tokensOf item ++ tokensOfItems items

/-- The tokens of the fields after the first one, each with the comma before it. -/
def tokensOfFields : List (Text × Json) → List Token
  | [] => []
  | (name, value) :: fields =>
    .comma :: .text (name.flatMap unitsOf) :: .colon :: tokensOf value ++ tokensOfFields fields

end

theorem endsNumber_newline (level : Nat) (rest : Text) : EndsNumber (newline level ++ rest) :=
  endsNumber_cons _ rfl

theorem endsNumber_spreadItems (level : Nat) (items : List Json) {rest : Text}
    (ends : EndsNumber rest) : EndsNumber (spreadItems level items ++ rest) := by
  cases items with
  | nil => exact ends
  | cons item items => exact endsNumber_cons _ rfl

theorem endsNumber_spreadFields (level : Nat) (fields : List (Text × Json)) {rest : Text}
    (ends : EndsNumber rest) : EndsNumber (spreadFields level fields ++ rest) := by
  cases fields with
  | nil => exact ends
  | cons field fields => exact endsNumber_cons _ rfl

theorem tokens_infinity (negative : Bool) (rest : Text) :
    tokens (writeFloat (.infinite negative) ++ rest) =
      .scalar (float (.infinite negative)) :: tokens rest := by
  cases negative
  · exact tokens_constant rest rfl rfl (by decide) rfl
  · exact tokens_constant rest rfl rfl (by decide) rfl

mutual

/-- The text of a value is cut into the tokens of that value. -/
theorem tokens_spread (level : Nat) : ∀ (value : Json) (rest : Text), IsPlain value →
    EndsNumber rest → tokens (spread level value ++ rest) = tokensOf value ++ tokens rest
  | null, rest, _, _ => tokens_constant rest rfl rfl (by decide) rfl
  | bool true, rest, _, _ => tokens_constant rest rfl rfl (by decide) rfl
  | bool false, rest, _, _ => tokens_constant rest rfl rfl (by decide) rfl
  | int value, rest, plain, ends => by
    rw [IsPlain] at plain
    exact tokens_number (isNumeric_ofInt value) plain ends
  | float value, rest, plain, ends => by
    rw [IsPlain] at plain
    rcases plain with ⟨negative, rfl⟩ | read
    · exact tokens_infinity negative rest
    · cases value with
      | finite negative mantissa exponent =>
        exact tokens_number (isNumeric_writeFloat negative mantissa exponent) read ends
      | infinite negative => exact tokens_infinity negative rest
      | undefined => cases read
  | str value, rest, _, _ => tokens_writeText value rest
  | arr [], rest, _, _ => by
    rw [spread, tokensOf, List.cons_append, List.singleton_append, tokens_mark _ rfl rfl,
      tokens_mark _ rfl rfl, List.cons_append, List.singleton_append]
  | arr (item :: items), rest, plain, _ => by
    rw [IsPlain, ArePlainItems] at plain
    simp only [spread, tokensOf, List.cons_append, List.append_assoc, List.nil_append]
    rw [tokens_mark _ rfl rfl, tokens_newline,
      tokens_spread (level + 1) item _ plain.1
        (endsNumber_spreadItems _ _ (endsNumber_newline _ _)),
      tokens_spreadItems (level + 1) items _ plain.2 (endsNumber_newline _ _), tokens_newline,
      tokens_mark _ rfl rfl]
  | obj [], rest, _, _ => by
    rw [spread, tokensOf, List.cons_append, List.singleton_append, tokens_mark _ rfl rfl,
      tokens_mark _ rfl rfl, List.cons_append, List.singleton_append]
  | obj ((name, value) :: fields), rest, plain, _ => by
    rw [IsPlain, ArePlainFields] at plain
    simp only [spread, tokensOf, List.cons_append, List.append_assoc, List.nil_append]
    rw [tokens_mark _ rfl rfl, tokens_newline, tokens_writeText, tokens_mark _ rfl rfl,
      tokens_space _ rfl,
      tokens_spread (level + 1) value _ plain.2.1
        (endsNumber_spreadFields _ _ (endsNumber_newline _ _)),
      tokens_spreadFields (level + 1) fields _ plain.2.2 (endsNumber_newline _ _), tokens_newline,
      tokens_mark _ rfl rfl]

theorem tokens_spreadItems (level : Nat) : ∀ (items : List Json) (rest : Text),
    ArePlainItems items → EndsNumber rest →
    tokens (spreadItems level items ++ rest) = tokensOfItems items ++ tokens rest
  | [], rest, _, _ => by
    rw [spreadItems, tokensOfItems, List.nil_append, List.nil_append]
  | item :: items, rest, plain, ends => by
    rw [ArePlainItems] at plain
    simp only [spreadItems, tokensOfItems, List.cons_append, List.append_assoc]
    rw [tokens_mark _ rfl rfl, tokens_newline,
      tokens_spread level item _ plain.1 (endsNumber_spreadItems _ _ ends),
      tokens_spreadItems level items _ plain.2 ends]

theorem tokens_spreadFields (level : Nat) : ∀ (fields : List (Text × Json)) (rest : Text),
    ArePlainFields fields → EndsNumber rest →
    tokens (spreadFields level fields ++ rest) = tokensOfFields fields ++ tokens rest
  | [], rest, _, _ => by
    rw [spreadFields, tokensOfFields, List.nil_append, List.nil_append]
  | (name, value) :: fields, rest, plain, ends => by
    rw [ArePlainFields] at plain
    simp only [spreadFields, tokensOfFields, List.cons_append, List.append_assoc]
    rw [tokens_mark _ rfl rfl, tokens_newline, tokens_writeText, tokens_mark _ rfl rfl,
      tokens_space _ rfl,
      tokens_spread level value _ plain.1 (endsNumber_spreadFields _ _ ends),
      tokens_spreadFields level fields _ plain.2 ends]

end

/-! ### Running over the tokens of a value -/

theorem run_cons {expecting next : Expecting} {stack left : List Frame} {token : Token}
    (rest : List Token) (taken : step expecting stack token = some (next, left)) :
    run expecting stack (token :: rest) = run next left rest := by
  rw [run, taken]

/-- Where a list may end, any token but its end is taken as where a value must follow. -/
theorem step_valueOrEnd {token : Token} (stack : List Frame) (notEnd : token ≠ .closeList) :
    step .valueOrEnd stack token = step .value stack token := by
  cases token with
  | closeList => exact absurd rfl notEnd
  | _ => simp [step]

theorem refusal_valueOrEnd (token : Token) : refusal .valueOrEnd token = refusal .value token := by
  cases token <;> rfl

/-- The first item of a list is read as any value is. -/
theorem run_valueOrEnd (value : Json) (stack : List Frame) (rest : List Token) :
    run .valueOrEnd stack (tokensOf value ++ rest) = run .value stack (tokensOf value ++ rest) := by
  have same {token : Token} (more : List Token) (notEnd : token ≠ .closeList) :
      run .valueOrEnd stack (token :: more) = run .value stack (token :: more) := by
    rw [run, run, step_valueOrEnd stack notEnd, refusal_valueOrEnd]
  match value with
  | null | bool _ | int _ | float _ | str _ => exact same _ (by simp)
  | arr [] | arr (_ :: _) => exact same _ (by simp)
  | obj [] | obj ((_, _) :: _) => exact same _ (by simp)

mutual

/-- Running over the tokens of a value completes that value and leaves the stack as it was. -/
theorem run_tokensOf : ∀ (value : Json) (stack : List Frame) (rest : List Token), IsPlain value →
    run .value stack (tokensOf value ++ rest) = run (.afterValue value) stack rest
  | null, stack, rest, _ => run_cons rest rfl
  | bool _, stack, rest, _ => run_cons rest rfl
  | int _, stack, rest, _ => run_cons rest rfl
  | float _, stack, rest, _ => run_cons rest rfl
  | str text, stack, rest, _ => by
    rw [tokensOf, List.singleton_append, run_cons rest rfl, joinUnits_flatMap_unitsOf]
  | arr [], stack, rest, _ => by
    rw [tokensOf, List.cons_append, run_cons _ rfl]
    exact run_cons rest rfl
  | arr (item :: items), stack, rest, plain => by
    rw [IsPlain, ArePlainItems] at plain
    simp only [tokensOf, List.cons_append, List.append_assoc, List.nil_append]
    rw [run_cons _ rfl, run_valueOrEnd, run_tokensOf item _ _ plain.1,
      run_tokensOfItems items item [] stack rest plain.2]
    rfl
  | obj [], stack, rest, _ => by
    rw [tokensOf, List.cons_append, run_cons _ rfl]
    exact run_cons rest rfl
  | obj ((name, value) :: fields), stack, rest, plain => by
    rw [IsPlain, ArePlainFields] at plain
    simp only [tokensOf, List.cons_append, List.append_assoc, List.nil_append]
    rw [run_cons _ rfl, run_cons _ rfl, joinUnits_flatMap_unitsOf, run_cons _ rfl,
      run_tokensOf value _ _ plain.2.1,
      run_tokensOfFields fields name value [] stack rest plain.2.2]
    simp only [List.reverse_singleton, List.singleton_append, Named.ofPairs_of_nodup plain.1]

theorem run_tokensOfItems : ∀ (items : List Json) (value : Json) (before : List Json)
    (stack : List Frame) (rest : List Token), ArePlainItems items →
    run (.afterValue value) (.list before :: stack) (tokensOfItems items ++ (.closeList :: rest)) =
      run (.afterValue (arr ((value :: before).reverse ++ items))) stack rest
  | [], value, before, stack, rest, _ => by
    rw [tokensOfItems, List.nil_append, List.append_nil]
    exact run_cons rest rfl
  | item :: items, value, before, stack, rest, plain => by
    rw [ArePlainItems] at plain
    simp only [tokensOfItems, List.cons_append, List.append_assoc]
    rw [run_cons _ rfl, run_tokensOf item _ _ plain.1,
      run_tokensOfItems items item (value :: before) stack rest plain.2, List.reverse_cons,
      List.append_assoc, List.singleton_append]

theorem run_tokensOfFields : ∀ (fields : List (Text × Json)) (name : Text) (value : Json)
    (before : List (Text × Json)) (stack : List Frame) (rest : List Token),
    ArePlainFields fields →
    run (.afterValue value) (.object before name :: stack)
        (tokensOfFields fields ++ (.closeObject :: rest)) =
      run (.afterValue (obj (Named.ofPairs (((name, value) :: before).reverse ++ fields)))) stack
        rest
  | [], name, value, before, stack, rest, _ => by
    rw [tokensOfFields, List.nil_append, List.append_nil]
    exact run_cons rest rfl
  | (next, first) :: fields, name, value, before, stack, rest, plain => by
    rw [ArePlainFields] at plain
    simp only [tokensOfFields, List.cons_append, List.append_assoc]
    rw [run_cons _ rfl, run_cons _ rfl, joinUnits_flatMap_unitsOf, run_cons _ rfl,
      run_tokensOf first _ _ plain.1,
      run_tokensOfFields fields next first ((name, value) :: before) stack rest plain.2,
      List.reverse_cons, List.append_assoc, List.singleton_append]

end

/-! ### Reading undoes writing -/

/-- The text of a document is read as its value. -/
theorem read_document {value : Json} (plain : IsPlain value) : read value.document = .ok value := by
  have cut : tokens value.document = tokensOf value ++ [] := by
    rw [document, tokens_spread 0 value _ plain (endsNumber_cons _ rfl), tokens_space _ rfl, tokens]
  rw [read, cut, run_tokensOf value [] [] plain, run]

end Json

end LuauReference
