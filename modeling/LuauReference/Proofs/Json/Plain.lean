/-
This file proves that what the reader returns can be written and read back. A whole number that was
read has no more digits than a numeral may have, a number with a fraction is one that rounding
gives, and an object that was read has each name once. Only the value that is no number is not read
back, so it is left out; what is proved of a value is that it is plain when it does not hold that
one, and this is kept by each step of the reader, whatever lists and objects are still open.
-/

import LuauReference.Proofs.Json.RoundTrip
import LuauReference.Proofs.Number.Spelling
import LuauReference.Proofs.Text.Identifier

namespace LuauReference

namespace Json

/-! ### Numbers with a fraction -/

section

open Binary64

variable {whole fraction tail : Text} {d : Decimal}

theorem isWholePart_of_spells (spells : Spells whole fraction tail d) :
    isWholePart whole = true := by
  rcases spells.headed with rfl | ⟨present, nonzero⟩
  · rfl
  · unfold isWholePart
    split <;> simp_all

/-- No point stands at the end of a numeral or before an exponent. -/
theorem not_hasPart_joined (spells : Spells whole fraction tail d) {c : Char}
    (other : c.isDigit = false) : Text.hasPart (joined whole fraction tail) ['.', c] = false := by
  rw [Bool.eq_false_iff]
  intro present
  obtain ⟨left, right, same⟩ := Text.exists_of_hasPart present
  rw [List.append_assoc, List.cons_append, List.singleton_append] at same
  obtain ⟨some, rest⟩ := eq_of_joined_eq_point spells same
  obtain ⟨first, more, rfl⟩ := List.exists_cons_of_ne_nil some
  have digit : c.isDigit = true := by
    rw [List.cons_append, List.cons.injEq] at rest
    exact spells.digits c (List.mem_append_right _ (rest.1 ▸ List.mem_cons_self))
  exact Bool.false_ne_true (other.symm.trans digit)

theorem not_endsWith_joined (spells : Spells whole fraction tail d) :
    Text.endsWith (joined whole fraction tail) "." = false := by
  rw [Bool.eq_false_iff]
  intro present
  obtain ⟨front, same⟩ := Text.endsWith_iff.mp present
  obtain ⟨before, c, last, digit⟩ := exists_joined_eq_concat spells
  rw [last] at same
  have point : ['.'] = [c] := (List.append_inj' same rfl).2
  rw [← List.singleton_inj.mp point] at digit
  exact absurd digit (by decide)

theorem joined_ne_minus (spells : Spells whole fraction tail d) (rest : Text) :
    joined whole fraction tail ≠ '-' :: rest := by
  obtain ⟨first, more, rfl⟩ := List.exists_cons_of_ne_nil spells.whole_ne_nil
  have digit : first.isDigit = true := spells.digits first (by simp)
  rintro same
  rw [joined, List.append_assoc, List.cons_append, List.cons.injEq] at same
  rw [same.1] at digit
  exact absurd digit (by decide)

theorem goesOn_of_isExponent {order : Int} (form : IsExponent tail order) (present : tail ≠ []) :
    goesOn tail = true := by
  cases form with
  | none => exact absurd rfl present
  | some order =>
    have some : Text.padZeros 2 (Text.ofNat order.natAbs) ≠ [] :=
      List.append_ne_nil_of_right_ne_nil _ (Text.ofNat_ne_nil order.natAbs)
    obtain ⟨first, more, digits⟩ := List.exists_cons_of_ne_nil some
    have digit : first.isDigit = true := isDigit_of_mem_padZeros 2 (digits ▸ List.mem_cons_self)
    rw [digits]
    split <;> simp [goesOn, digit]

/-- What follows the whole part of a numeral is a fraction or an exponent. -/
theorem goesOn_of_spells (spells : Spells whole fraction tail d) :
    goesOn ((if fraction.isEmpty then [] else '.' :: fraction) ++ tail) = true := by
  cases fraction with
  | cons first more =>
    have digit : first.isDigit = true := spells.digits first (by simp)
    simp [goesOn, digit]
  | nil =>
    exact goesOn_of_isExponent spells.exponent (spells.shown.resolve_left fun other => other rfl)

/-- A numeral with a fraction or an exponent is the number that it spells. -/
theorem magnitude?_joined (spells : Spells whole fraction tail d) (negative : Bool) :
    magnitude? negative (joined whole fraction tail) = .ok (float (ofDecimal negative d)) := by
  have run := digitRun_joined spells
  have rest : ((if fraction.isEmpty then [] else '.' :: fraction) ++ tail).isEmpty = false := by
    rcases spells.shown with some | some
    · simp [some]
    · simp [some]
  have atEnd := not_endsWith_joined spells
  have small : Text.hasPart (joined whole fraction tail) ".e" = false :=
    not_hasPart_joined spells (by decide)
  have capital : Text.hasPart (joined whole fraction tail) ".E" = false :=
    not_hasPart_joined spells (by decide)
  simp only
    [magnitude?, run, isWholePart_of_spells spells, goesOn_of_spells spells, rest, atEnd, small,
    capital, decimal?_joined spells, Bool.not_true, Bool.false_and, Bool.or_self,
    Bool.false_eq_true,
    if_false]

end

/-- A number that rounding gives is read back. -/
theorem isPlain_float {x : Binary64} (readable : x.IsReadable) : (float x).IsPlain := by
  rw [IsPlain]
  cases x with
  | undefined => exact readable.elim
  | infinite negative => exact Or.inl ⟨negative, rfl⟩
  | finite negative mantissa exponent =>
    obtain ⟨whole, fraction, tail, d, written, spells, value⟩ :=
      Binary64.exists_spells_magnitudeText readable
    have read := magnitude?_joined spells negative
    rw [value negative, ← written] at read
    refine Or.inr ?_
    cases negative with
    | true => exact read
    | false =>
      rw [writeFloat, Binary64.textWith, if_neg Bool.false_ne_true, List.nil_append, number?]
      · exact read
      · exact fun rest => written ▸ joined_ne_minus spells rest

/-- A whole number of not too many digits is read back. -/
theorem isPlain_int {value : Int} (small : value.natAbs < 10 ^ Text.longestNumeral) :
    (int value).IsPlain := by
  rw [IsPlain]
  exact number?_ofInt small

/-! ### Values without undefined numbers -/

mutual

/-- Whether no number in a value is the one that is no number. -/
def IsDefined : Json → Prop
  | null => True
  | bool _ => True
  | int _ => True
  | float value => value ≠ .undefined
  | str _ => True
  | arr items => AreDefinedItems items
  | obj fields => AreDefinedFields fields

/-- Whether no number in a list of items is undefined. -/
def AreDefinedItems : List Json → Prop
  | [] => True
  | item :: items => IsDefined item ∧ AreDefinedItems items

/-- Whether no number in the values of fields is undefined. -/
def AreDefinedFields : List (Text × Json) → Prop
  | [] => True
  | (_, value) :: fields => IsDefined value ∧ AreDefinedFields fields

end

theorem areDefinedItems_iff (items : List Json) :
    AreDefinedItems items ↔ ∀ item ∈ items, IsDefined item := by
  induction items with
  | nil => simp [AreDefinedItems]
  | cons item items inductionHypothesis => simp [AreDefinedItems, inductionHypothesis]

theorem areDefinedFields_iff (fields : List (Text × Json)) :
    AreDefinedFields fields ↔ ∀ field ∈ fields, IsDefined field.2 := by
  induction fields with
  | nil => simp [AreDefinedFields]
  | cons field fields inductionHypothesis => simp [AreDefinedFields, inductionHypothesis]

/-- Whether a value is read back unless it holds an undefined number. -/
def IsSound (value : Json) : Prop :=
  value.IsDefined → value.IsPlain

theorem isSound_str (text : Text) : (str text).IsSound := by
  rw [IsSound, IsPlain]
  exact fun _ => trivial

theorem isSound_arr {items : List Json} (each : ∀ item ∈ items, item.IsSound) :
    (arr items).IsSound := by
  rw [IsSound, IsDefined, IsPlain, areDefinedItems_iff, arePlainItems_iff]
  exact fun defined item member => each item member (defined item member)

theorem isSound_obj {fields : Fields} (distinct : (Named.names fields).Nodup)
    (each : ∀ field ∈ fields, field.2.IsSound) : (obj fields).IsSound := by
  rw [IsSound, IsDefined, IsPlain, areDefinedFields_iff, arePlainFields_iff]
  exact fun defined => ⟨distinct, fun field member => each field member (defined field member)⟩

/-! ### What numbers are read as -/

/-- Whether a value is a number that the reader returns: a whole one of not too many digits, or one
that rounding gives. -/
inductive IsNumber : Json → Prop
  | int {value : Int} (small : value.natAbs < 10 ^ Text.longestNumeral) : IsNumber (.int value)
  | float {value : Binary64} (readable : value.IsReadable) : IsNumber (.float value)

theorem IsNumber.isPlain {value : Json} (number : value.IsNumber) : value.IsPlain := by
  cases number with
  | int small => exact isPlain_int small
  | float readable => exact isPlain_float readable

theorem isNumber_of_magnitude? {negative : Bool} {s : Text} {value : Json}
    (read : magnitude? negative s = .ok value) : value.IsNumber := by
  simp only [magnitude?] at read
  split at read
  · cases read
  · split at read
    · cases read
    · next short =>
      split at read
      · next whole =>
        split at read
        · next n number =>
          cases read
          rw [List.isEmpty_iff.mp whole] at short
          have bound : ¬ Text.longestNumeral < (Binary64.digitRun s).1.length := by
            simpa [goesOn] using short
          have small := (Text.lt_of_naturalIn? number).trans_le
            (Nat.pow_le_pow_right (by omega) (not_lt.mp bound))
          refine .int ?_
          cases negative <;> simpa using small
        · cases read
      · split at read
        · cases read
        · split at read
          · next d decimal =>
            cases read
            exact .float (Binary64.isReadable_ofDecimal negative d)
          · cases read

theorem isNumber_of_number? {s : Text} {value : Json} (read : number? s = .ok value) :
    value.IsNumber := by
  unfold number? at read
  split at read
  · exact isNumber_of_magnitude? read
  · exact isNumber_of_magnitude? read

/-- A number with a fraction that is read back is one that rounding gives. -/
theorem isReadable_of_isPlain {x : Binary64} (plain : (float x).IsPlain) : x.IsReadable := by
  rw [IsPlain] at plain
  rcases plain with ⟨negative, rfl⟩ | read
  · trivial
  · cases isNumber_of_number? read with
    | float readable => exact readable

theorem isSound_of_constant? {s rest : Text} {value : Json}
    (found : constant? s = some (value, rest)) : value.IsSound := by
  obtain ⟨⟨word, constant⟩, member, step⟩ := List.exists_of_findSome?_eq_some found
  obtain ⟨tail, _, same⟩ := Option.map_eq_some_iff.mp step
  cases same
  simp only [constants, List.mem_cons, List.not_mem_nil, or_false, Prod.mk.injEq] at member
  rcases member with h | h | h | h | h | h <;> rw [h.2, IsSound, IsPlain]
  · exact fun _ => trivial
  · exact fun _ => trivial
  · exact fun _ => trivial
  · rw [IsDefined]
    exact fun defined => absurd rfl defined
  · exact fun _ => Or.inl ⟨_, rfl⟩
  · exact fun _ => Or.inl ⟨_, rfl⟩

/-! ### What texts are read as -/

/-- Whether the value of a token, if it has one, is sound. -/
def Token.IsSound : Token → Prop
  | .scalar value => value.IsSound
  | _ => True

theorem Token.isSound_of_mark? {c : Char} {token : Token} (found : mark? c = some token) :
    token.IsSound := by
  unfold mark? at found
  split at found <;> cases found <;> trivial

/-- All values among the tokens of a text are sound. -/
theorem isSound_of_mem_tokens (s : Text) : ∀ token ∈ tokens s, token.IsSound := by
  fun_induction tokens s with
  | case1 => exact List.forall_mem_nil _
  | case2 c rest space inductionHypothesis => exact inductionHypothesis
  | case3 c rest notSpace token mark inductionHypothesis =>
    exact List.forall_mem_cons.mpr ⟨Token.isSound_of_mark? mark, inductionHypothesis⟩
  | case4 rest units tail step notSpace noMark inductionHypothesis =>
    exact List.forall_mem_cons.mpr ⟨trivial, inductionHypothesis⟩
  | case5 => exact List.forall_mem_singleton.mpr trivial
  | case6 c rest notSpace noMark notQuote value tail step inductionHypothesis =>
    exact List.forall_mem_cons.mpr ⟨isSound_of_constant? step, inductionHypothesis⟩
  | case7 c rest notSpace noMark notQuote noConstant number value read inductionHypothesis =>
    have own : (Token.scalar value).IsSound := fun _ => (isNumber_of_number? read).isPlain
    exact List.forall_mem_cons.mpr ⟨own, inductionHypothesis⟩
  | case8 => exact List.forall_mem_singleton.mpr trivial
  | case9 => exact List.forall_mem_singleton.mpr trivial

/-! ### What values are read as -/

/-- Whether all values of an open list or object are sound. -/
def Frame.IsSound : Frame → Prop
  | .list items => ∀ item ∈ items, item.IsSound
  | .object entries _ => ∀ entry ∈ entries, entry.2.IsSound

/-- Whether all values that what is expected carries are sound. -/
def Expecting.IsSound : Expecting → Prop
  | .name entries => ∀ entry ∈ entries, entry.2.IsSound
  | .colon entries _ => ∀ entry ∈ entries, entry.2.IsSound
  | .afterValue complete => complete.IsSound
  | _ => True

/-- A step of the reader keeps all values sound. -/
theorem isSound_step {expecting next : Expecting} {stack left : List Frame} {token : Token}
    (here : expecting.IsSound) (opened : ∀ frame ∈ stack, frame.IsSound) (own : token.IsSound)
    (taken : step expecting stack token = some (next, left)) :
    next.IsSound ∧ ∀ frame ∈ left, frame.IsSound := by
  have empty : (Frame.list []).IsSound := List.forall_mem_nil _
  unfold step at taken
  split at taken <;> cases taken
  case h_1 | h_6 => exact ⟨isSound_str _, opened⟩
  case h_2 | h_7 => exact ⟨own, opened⟩
  case h_3 | h_8 => exact ⟨trivial, List.forall_mem_cons.mpr ⟨empty, opened⟩⟩
  case h_4 | h_9 => exact ⟨trivial, opened⟩
  case h_5 => exact ⟨isSound_arr (List.forall_mem_nil _), (List.forall_mem_cons.mp opened).2⟩
  case h_10 => exact ⟨isSound_obj List.nodup_nil (List.forall_mem_nil _), opened⟩
  case h_11 => exact ⟨List.forall_mem_nil _, opened⟩
  case h_12 => exact ⟨here, opened⟩
  case h_13 => exact ⟨trivial, List.forall_mem_cons.mpr ⟨here, opened⟩⟩
  case h_14 =>
    obtain ⟨items, rest⟩ := List.forall_mem_cons.mp opened
    exact ⟨trivial, List.forall_mem_cons.mpr ⟨List.forall_mem_cons.mpr ⟨here, items⟩, rest⟩⟩
  case h_15 value items =>
    obtain ⟨earlier, rest⟩ := List.forall_mem_cons.mp opened
    have all : ∀ item ∈ value :: items, item.IsSound := List.forall_mem_cons.mpr ⟨here, earlier⟩
    exact ⟨isSound_arr fun item member => all item (List.mem_reverse.mp member), rest⟩
  case h_16 =>
    obtain ⟨entries, rest⟩ := List.forall_mem_cons.mp opened
    exact ⟨List.forall_mem_cons.mpr ⟨here, entries⟩, rest⟩
  case h_17 value entries name =>
    obtain ⟨earlier, rest⟩ := List.forall_mem_cons.mp opened
    have all : ∀ entry ∈ (name, value) :: entries, entry.2.IsSound :=
      List.forall_mem_cons.mpr ⟨here, earlier⟩
    refine ⟨isSound_obj (Named.nodup_names_ofPairs _) fun entry member => ?_, rest⟩
    exact all entry (List.mem_reverse.mp (Named.mem_of_mem_ofPairs member))

/-- A run over sound tokens ends with a sound value. -/
theorem isSound_run {expecting : Expecting} {stack : List Frame} {found : List Token} {value : Json}
    (here : expecting.IsSound) (opened : ∀ frame ∈ stack, frame.IsSound)
    (each : ∀ token ∈ found, token.IsSound) (finished : run expecting stack found = .ok value) :
    value.IsSound := by
  fun_induction run expecting stack found with
  | case1 complete =>
    cases finished
    exact here
  | case2 => cases finished
  | case3 expecting stack token rest next left taken inductionHypothesis =>
    obtain ⟨own, others⟩ := List.forall_mem_cons.mp each
    obtain ⟨after, opened'⟩ := isSound_step here opened own taken
    exact inductionHypothesis after opened' others finished
  | case4 => cases finished

/-- A text is read as a value that is read back unless it holds an undefined number. -/
theorem isSound_of_read {s : Text} {value : Json} (read : Json.read s = .ok value) :
    value.IsSound := by
  have start : Expecting.value.IsSound := trivial
  exact isSound_run start (List.forall_mem_nil _) (isSound_of_mem_tokens s) read

end Json

end LuauReference
