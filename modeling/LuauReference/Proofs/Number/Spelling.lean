/-
This file proves that the text of a number is read as a decimal of that number. A written number has
three parts: digits, perhaps a point with more digits, and perhaps an exponent. Which parts there
are and where the point stands depends on the place of the first digit; what does not depend on it
is the value of the decimal that the parts spell, so the three layouts are told apart once.
-/

import LuauReference.Proofs.Number.Shortest

namespace LuauReference

namespace Text

/-! ### Zeros at the end -/

theorem naturalIn?_append_digit {base : Nat} {s : Text} {n digit : Nat} {c : Char}
    (read : naturalIn? base s = some n) (value : digitIn? base c = some digit) :
    naturalIn? base (s ++ [c]) = some (n * base + digit) := by
  have present : (s ++ [c]).isEmpty = false := by simp
  rw [naturalIn?] at read
  split at read
  · cases read
  · obtain ⟨digits, each, rfl⟩ := Option.map_eq_some_iff.mp read
    rw [naturalIn?, present, if_neg Bool.false_ne_true, mapM_append_singleton each value,
      Option.map_some, ofDigits_append]

/-- Zeros after a numeral multiply its number by a power of the base. -/
theorem naturalIn?_append_replicate {base : Nat} (several : 1 < base) {s : Text} {n : Nat}
    (read : naturalIn? base s = some n) (count : Nat) :
    naturalIn? base (s ++ List.replicate count '0') = some (n * base ^ count) := by
  induction count with
  | zero => rw [List.replicate_zero, List.append_nil, Nat.pow_zero, Nat.mul_one, read]
  | succ count inductionHypothesis =>
    rw [List.replicate_succ', ← List.append_assoc,
      naturalIn?_append_digit inductionHypothesis (digitIn?_zero several), Nat.pow_succ,
      Nat.mul_assoc, Nat.add_zero]

theorem dropEndWhile_concat (test : Char → Bool) (s : Text) (c : Char) :
    dropEndWhile test (s ++ [c]) = if test c then dropEndWhile test s else s ++ [c] := by
  rw [dropEndWhile, dropEndWhile, List.reverse_append, List.reverse_singleton,
    List.singleton_append, List.dropWhile_cons]
  split
  · rfl
  · rw [List.reverse_cons, List.reverse_reverse]

/-- The digits of a positive number without the zeros at their end are those of another one. -/
theorem exists_dropEndWhile_ofNat {n : Nat} (present : 0 < n) :
    ∃ kept zeros, 0 < kept ∧ n = kept * 10 ^ zeros ∧
      dropEndWhile (· == '0') (ofNat n) = ofNat kept := by
  induction n using Nat.strong_induction_on with
  | _ n inductionHypothesis =>
    have last : ((n % 10).digitChar == '0') = decide (n % 10 = 0) := by
      rw [Bool.eq_iff_iff, beq_iff_eq, decide_eq_true_eq, Nat.digitChar_eq_zero]
    rcases Nat.lt_or_ge n 10 with small | large
    · refine ⟨n, 0, present, (Nat.mul_one n).symm, ?_⟩
      have nonzero : ¬ (n.digitChar == '0') = true := by
        rw [beq_iff_eq, Nat.digitChar_eq_zero]
        omega
      rw [ofNat, Nat.toDigits_eq_if (by omega), if_pos small, ← List.nil_append [n.digitChar],
        dropEndWhile_concat, if_neg nonzero]
    · have split : ofNat n = ofNat (n / 10) ++ [(n % 10).digitChar] := by
        rw [ofNat, Nat.toDigits_eq_if (by omega), if_neg (by omega)]
        rfl
      by_cases zero : n % 10 = 0
      · obtain ⟨kept, zeros, positive, product, same⟩ :=
          inductionHypothesis (n / 10) (by omega) (by omega)
        refine ⟨kept, zeros + 1, positive, ?_, ?_⟩
        · rw [Nat.pow_succ, ← Nat.mul_assoc, ← product]
          omega
        · rw [split, dropEndWhile_concat, last, decide_eq_true zero, if_pos rfl, same]
      · refine ⟨n, 0, present, (Nat.mul_one n).symm, ?_⟩
        rw [split, dropEndWhile_concat, last, decide_eq_false zero, if_neg Bool.false_ne_true]

end Text

namespace Binary64

/-- A positive decimal keeps its digits up to the last that is not zero. -/
theorem exists_trimZeros {d : Decimal} (present : 0 < d.digits) :
    ∃ kept zeros : Nat, 0 < kept ∧ d.digits = kept * 10 ^ zeros ∧
      d.trimZeros = (Text.ofNat kept, d.exponent + zeros) := by
  obtain ⟨kept, zeros, positive, product, same⟩ := Text.exists_dropEndWhile_ofNat present
  refine ⟨kept, zeros, positive, product, ?_⟩
  have length := length_ofNat_mul_pow positive zeros
  rw [← product] at length
  have dropped : (Text.ofNat d.digits).length - (Text.ofNat kept).length = zeros := by omega
  rw [Decimal.trimZeros, same, dropped]

/-! ### The parts of a numeral -/

/-- The text of an exponent: none at all, or a letter, a sign and at least two digits. -/
inductive IsExponent : Text → Int → Prop
  | none : IsExponent [] 0
  | some (order : Int) : IsExponent ('e' :: (if order < 0 then '-' else '+') ::
      Text.padZeros 2 (Text.ofNat order.natAbs)) order

/-- The text of a numeral in its parts; the point stands only before digits. -/
def joined (whole fraction tail : Text) : Text :=
  whole ++ (if fraction.isEmpty then [] else '.' :: fraction) ++ tail

/-- Whether the parts of a numeral spell a decimal, in a form in which a fraction or an exponent
shows that it is no whole number. -/
structure Spells (whole fraction tail : Text) (d : Decimal) : Prop where
  digits : ∀ c ∈ whole ++ fraction, c.isDigit = true
  headed : whole = ['0'] ∨ (whole ≠ [] ∧ whole.head? ≠ some '0')
  shown : fraction ≠ [] ∨ tail ≠ []
  number : Text.naturalIn? 10 (whole ++ fraction) = some d.digits
  exponent : IsExponent tail (d.exponent + fraction.length)

theorem isDigit_of_mem_padZeros {n : Nat} {c : Char} (width : Nat)
    (member : c ∈ Text.padZeros width (Text.ofNat n)) : c.isDigit = true := by
  rcases List.mem_append.mp member with zero | digit
  · rw [List.eq_of_mem_replicate zero]
    rfl
  · exact Text.isDigit_of_mem_ofNat digit

theorem naturalIn?_padZeros (width n : Nat) :
    Text.naturalIn? 10 (Text.padZeros width (Text.ofNat n)) = some n := by
  rw [Text.padZeros, Text.naturalIn?_replicate_append (by omega) _ (Text.ofNat_ne_nil n),
    Text.naturalIn?_ofNat]

theorem exponentPart?_of_isExponent {tail : Text} {power : Int} (form : IsExponent tail power) :
    exponentPart? tail = some power := by
  cases form with
  | none => rfl
  | some order =>
    rcases Int.lt_or_le power 0 with negative | positive
    · rw [if_pos negative, exponentPart?, if_pos (by decide)]
      simp only [naturalIn?_padZeros, Option.pure_def, Option.bind_eq_bind, Option.bind_some,
        Option.map_some, Option.some.injEq]
      omega
    · rw [if_neg (by omega), exponentPart?, if_pos (by decide)]
      simp only [naturalIn?_padZeros, Option.map_some, Option.some.injEq, Int.ofNat_eq_natCast]
      omega

/-- What may follow digits: no digit and no point. -/
def EndsDigits (rest : Text) : Prop :=
  ∀ c ∈ rest.head?, c.isDigit = false ∧ c ≠ '.'

theorem endsDigits_of_isExponent {tail : Text} {power : Int} (form : IsExponent tail power) :
    EndsDigits tail := by
  cases form with
  | none => simp [EndsDigits]
  | some order => simp [EndsDigits, Char.isDigit]

theorem digitRun_append {digits rest : Text} (each : ∀ c ∈ digits, c.isDigit = true)
    (stop : ∀ c ∈ rest.head?, c.isDigit = false) : digitRun (digits ++ rest) = (digits, rest) := by
  have none : rest.takeWhile Char.isDigit = [] ∧ rest.dropWhile Char.isDigit = rest := by
    cases rest with
    | nil => exact ⟨rfl, rfl⟩
    | cons c rest =>
      have other : c.isDigit = false := stop c rfl
      simp [other]
  rw [digitRun, List.takeWhile_append_of_pos each, List.dropWhile_append_of_pos each,
    none.1, none.2,
    List.append_nil]

section

variable {whole fraction tail : Text} {power : Int} {d : Decimal}

theorem Spells.whole_ne_nil (spells : Spells whole fraction tail d) : whole ≠ [] := by
  rcases spells.headed with rfl | headed
  · exact List.cons_ne_nil _ _
  · exact headed.1

/-- The digits before the point are the first part of a numeral. -/
theorem digitRun_joined (spells : Spells whole fraction tail d) :
    digitRun (joined whole fraction tail) =
      (whole, (if fraction.isEmpty then [] else '.' :: fraction) ++ tail) := by
  rw [joined, List.append_assoc]
  refine digitRun_append (fun c member => spells.digits c (List.mem_append_left _ member)) ?_
  cases fraction with
  | nil => exact fun c member => (endsDigits_of_isExponent spells.exponent c member).1
  | cons c more => simp [Char.isDigit]

/-- A numeral is read as the decimal that its parts spell. -/
theorem decimal?_joined (spells : Spells whole fraction tail d) :
    decimal? (joined whole fraction tail) = some d := by
  have run := digitRun_joined spells
  have ends := endsDigits_of_isExponent spells.exponent
  have power := exponentPart?_of_isExponent spells.exponent
  have number := spells.number
  have present : whole.isEmpty = false := by simpa using spells.whole_ne_nil
  have kept : d.exponent + (fraction.length : Int) - fraction.length = d.exponent :=
    add_sub_cancel_right _ _
  rw [decimal?, run]
  cases fraction with
  | nil =>
    rw [List.isEmpty_nil, if_pos rfl, List.nil_append]
    dsimp only
    split
    · next more => exact absurd rfl (ends '.' rfl).2
    · simp only [present, power, number, Bool.false_and, Bool.false_eq_true, if_false]
      show some (⟨d.digits, _⟩ : Decimal) = some d
      rw [kept]
  | cons c more =>
    have further : digitRun (c :: more ++ tail) = (c :: more, tail) :=
      digitRun_append (fun c member => spells.digits c (List.mem_append_right _ member))
        fun c member => (ends c member).1
    rw [List.isEmpty_cons, if_neg Bool.false_ne_true, List.cons_append]
    simp only [further, present, power, number, Bool.false_and, Bool.false_eq_true, if_false]
    show some (⟨d.digits, _⟩ : Decimal) = some d
    rw [kept]

theorem exists_concat {digits : Text} (some : digits ≠ []) (each : ∀ c ∈ digits, c.isDigit = true) :
    ∃ front c, digits = front ++ [c] ∧ c.isDigit = true := by
  obtain ⟨front, c, rfl⟩ := (List.eq_nil_or_concat digits).resolve_left some
  exact ⟨front, c, List.concat_eq_append, each c (by simp)⟩

theorem eq_concat_of_isExponent (form : IsExponent tail power) :
    tail = [] ∨ ∃ front c, tail = front ++ [c] ∧ c.isDigit = true := by
  cases form with
  | none => exact Or.inl rfl
  | some order =>
    obtain ⟨front, c, same, digit⟩ := exists_concat
      (List.append_ne_nil_of_right_ne_nil _ (Text.ofNat_ne_nil power.natAbs))
      (fun c => isDigit_of_mem_padZeros 2)
    refine Or.inr ⟨['e', if power < 0 then '-' else '+'] ++ front, c, ?_, digit⟩
    rw [Text.padZeros, same]
    rfl

/-- A numeral ends with a digit. -/
theorem exists_joined_eq_concat (spells : Spells whole fraction tail d) :
    ∃ front c, joined whole fraction tail = front ++ [c] ∧ c.isDigit = true := by
  rcases eq_concat_of_isExponent spells.exponent with rfl | ⟨front, c, rfl, digit⟩
  · have some := spells.shown.resolve_right (not_not.mpr rfl)
    obtain ⟨front, c, rfl, digit⟩ := exists_concat some fun c member =>
      spells.digits c (List.mem_append_right _ member)
    exact ⟨whole ++ '.' :: front, c, by simp [joined], digit⟩
  · exact ⟨_, c, (List.append_assoc ..).symm, digit⟩

theorem point_notMem_tail (form : IsExponent tail power) : '.' ∉ tail := by
  cases form with
  | none => exact List.not_mem_nil
  | some order =>
    have digits : '.' ∉ Text.padZeros 2 (Text.ofNat power.natAbs) := fun member =>
      absurd (isDigit_of_mem_padZeros 2 member) (by decide)
    split_ifs <;> simp [digits]

/-- A point stands before the fraction and nowhere else. -/
theorem eq_of_joined_eq_point (spells : Spells whole fraction tail d) {left right : Text}
    (same : joined whole fraction tail = left ++ '.' :: right) :
    fraction ≠ [] ∧ right = fraction ++ tail := by
  have digits : '.' ∉ whole ++ fraction := fun member =>
    absurd (spells.digits '.' member) (by decide)
  obtain ⟨whole', fraction'⟩ := not_or.mp (mt List.mem_append.mpr digits)
  have tail' := point_notMem_tail spells.exponent
  cases fraction with
  | nil =>
    have point : '.' ∈ joined whole [] tail := by simp [same]
    simp [joined, whole', tail'] at point
  | cons c more =>
    have rest : '.' ∉ c :: more ++ tail := by
      rw [List.mem_append, not_or]
      exact ⟨fraction', tail'⟩
    rw [joined, List.isEmpty_cons, if_neg Bool.false_ne_true, List.append_assoc, List.cons_append,
      List.append_cons_inj_of_notMem whole' rest] at same
    exact ⟨List.cons_ne_nil _ _, same.2.2.symm⟩

end

/-! ### The three layouts -/

section

variable {n : Nat} {exponent order : Int}

/-- A number with nothing before the point: a zero stands there, and zeros stand before the
digits. -/
theorem spells_below (place : exponent + (Text.ofNat n).length - 1 = order) (negative : order < 0) :
    Spells ['0'] (List.replicate (-order - 1).toNat '0' ++ Text.ofNat n) [] ⟨n, exponent⟩ where
  digits := by
    intro c member
    rcases List.mem_append.mp member with zero | rest
    · rw [List.mem_singleton.mp zero]
      rfl
    · rcases List.mem_append.mp rest with zero | digit
      · rw [List.eq_of_mem_replicate zero]
        rfl
      · exact Text.isDigit_of_mem_ofNat digit
  headed := Or.inl rfl
  shown := Or.inl (by simp [Text.ofNat_ne_nil])
  number := by
    have zeros : ['0'] ++ (List.replicate (-order - 1).toNat '0' ++ Text.ofNat n) =
        List.replicate ((-order - 1).toNat + 1) '0' ++ Text.ofNat n := rfl
    rw [zeros, Text.naturalIn?_replicate_append (by omega) _ (Text.ofNat_ne_nil n),
      Text.naturalIn?_ofNat]
  exponent := by
    have none : exponent + ((List.replicate (-order - 1).toNat '0' ++ Text.ofNat n).length : Int) =
        0 := by
      rw [List.length_append, List.length_replicate]
      omega
    rw [none]
    exact IsExponent.none

/-- A whole number: zeros stand after the digits up to the point, and one after it. -/
theorem spells_whole (present : 0 < n) {whole : Nat}
    (place : exponent + (Text.ofNat n).length = whole) (long : (Text.ofNat n).length ≤ whole) :
    Spells (Text.ofNat n ++ List.replicate (whole - (Text.ofNat n).length) '0') ['0'] []
      ⟨n * 10 ^ (whole - (Text.ofNat n).length + 1),
        exponent - (whole - (Text.ofNat n).length + 1 : Nat)⟩ where
  digits := by
    rw [List.append_assoc, ← List.replicate_succ']
    intro c member
    rcases List.mem_append.mp member with digit | zero
    · exact Text.isDigit_of_mem_ofNat digit
    · rw [List.eq_of_mem_replicate zero]
      rfl
  headed := by
    have headed : (Text.ofNat n).head?.isSome = true := by simp [Text.ofNat_ne_nil]
    rw [List.head?_append, Option.or_of_isSome headed]
    exact Or.inr ⟨List.append_ne_nil_of_left_ne_nil (Text.ofNat_ne_nil n) _,
      Text.head?_ofNat_ne_zero present⟩
  shown := Or.inl (List.cons_ne_nil _ _)
  number := by
    rw [List.append_assoc, ← List.replicate_succ']
    exact Text.naturalIn?_append_replicate (by omega) (Text.naturalIn?_ofNat n) _
  exponent := by
    have none : exponent - (whole - (Text.ofNat n).length + 1 : Nat) +
        ((['0'] : Text).length : Int) = 0 := by
      rw [List.length_singleton]
      omega
    rw [none]
    exact IsExponent.none

/-- Digits on both sides of the point, or before an exponent. -/
theorem spells_split (present : 0 < n) {whole : Nat} (front : 0 < whole) {tail : Text} {power : Int}
    (form : IsExponent tail power) (place : exponent + (Text.ofNat n).length = whole + power)
    (fits : whole ≤ (Text.ofNat n).length) (shown : whole < (Text.ofNat n).length ∨ tail ≠ []) :
    Spells ((Text.ofNat n).take whole) ((Text.ofNat n).drop whole) tail ⟨n, exponent⟩ where
  digits := by
    rw [List.take_append_drop]
    exact fun c => Text.isDigit_of_mem_ofNat
  headed := by
    rw [List.head?_take, if_neg front.ne', ne_eq, List.take_eq_nil_iff, not_or]
    exact Or.inr ⟨⟨front.ne', Text.ofNat_ne_nil n⟩, Text.head?_ofNat_ne_zero present⟩
  shown := shown.imp_left fun short => by
    rw [ne_eq, List.drop_eq_nil_iff]
    omega
  number := by
    rw [List.take_append_drop, Text.naturalIn?_ofNat]
  exponent := by
    have same : exponent + (((Text.ofNat n).drop whole).length : Int) = power := by
      rw [List.length_drop]
      omega
    rwa [same]

end

/-- Digits and a power of ten are written in parts that spell their decimal, with zeros moved
between the digits and the exponent. -/
theorem exists_spells {n : Nat} (present : 0 < n) (exponent : Int) :
    ∃ (whole fraction tail : Text) (zeros : Nat),
      textOfDigits (Text.ofNat n) exponent = joined whole fraction tail ∧
        Spells whole fraction tail ⟨n * 10 ^ zeros, exponent - zeros⟩ := by
  have some : 0 < (Text.ofNat n).length := List.length_pos_iff.mpr (Text.ofNat_ne_nil n)
  have same : (⟨n * 10 ^ 0, exponent - (0 : Nat)⟩ : Decimal) = ⟨n, exponent⟩ := by
    rw [Nat.pow_zero, Nat.mul_one, Nat.cast_zero, sub_zero]
  obtain ⟨order, place⟩ : ∃ order, exponent + (Text.ofNat n).length - 1 = order := ⟨_, rfl⟩
  rw [textOfDigits, place]
  split
  · next positional =>
    simp only [Bool.and_eq_true, decide_eq_true_eq] at positional
    split
    · next negative =>
      refine ⟨['0'], _, [], 0, ?_, same ▸ spells_below place negative⟩
      simp [joined, Text.ofNat_ne_nil]
    · next positive =>
      obtain ⟨whole, shown⟩ := Int.eq_ofNat_of_zero_le (show 0 ≤ order + 1 by omega)
      rw [shown, Int.toNat_natCast]
      rcases Nat.lt_or_ge whole (Text.ofNat n).length with short | long
      · have further : ((Text.ofNat n).drop whole).isEmpty = false := by simp [short]
        refine ⟨_, _, [], 0, ?_, same ▸ spells_split present (by omega) IsExponent.none (by omega)
          short.le (Or.inl short)⟩
        simp [joined, Nat.sub_eq_zero_of_le short.le, further]
      · refine ⟨_, _, [], _, ?_, spells_whole present (by omega) long⟩
        simp [joined, List.take_of_length_le long, List.drop_of_length_le long]
  · exact ⟨_, _, _, 0, rfl,
      same ▸ spells_split present Nat.one_pos (IsExponent.some order) (by omega)
      some (Or.inr (List.cons_ne_nil _ _))⟩

/-- A number is written in parts that spell a decimal which is read as that number, of either
sign. -/
theorem exists_spells_magnitudeText {mantissa : Nat} {exponent : Int}
    (canonical : IsCanonical mantissa exponent) :
    ∃ whole fraction tail d, magnitudeText mantissa exponent = joined whole fraction tail ∧
      Spells whole fraction tail d ∧
        ∀ negative, ofDecimal negative d = .finite negative mantissa exponent := by
  rcases Nat.eq_zero_or_pos mantissa with rfl | present
  · have least : exponent = leastExponent := canonical.full.resolve_left (by decide)
    refine ⟨['0'], ['0'], [], ⟨0, -1⟩, rfl, ?_, fun negative => least ▸ rfl⟩
    exact ⟨by simp [Char.isDigit], Or.inl rfl, Or.inl (List.cons_ne_nil _ _), rfl, IsExponent.none⟩
  · have back := ofDecimal_shortest canonical present
    obtain ⟨kept, zeros, some, product, trimmed⟩ :=
      exists_trimZeros (digits_shortest_pos canonical present)
    obtain ⟨whole, fraction, tail, moved, same, spells⟩ :=
      exists_spells some ((shortest mantissa exponent).exponent + zeros)
    refine ⟨whole, fraction, tail, _, ?_, spells, ?_⟩
    · rw [magnitudeText, if_neg present.ne', trimmed]
      exact same
    · have unsigned : ofDecimal false ⟨kept * 10 ^ moved,
          (shortest mantissa exponent).exponent + zeros - moved⟩ =
            .finite false mantissa exponent := by
        rw [← back, ofDecimal_mul_pow false some, sub_add_cancel, ← ofDecimal_mul_pow false some,
          ← product]
      intro negative
      cases negative with
      | false => exact unsigned
      | true =>
        rw [← Bool.not_false, ofDecimal_negate, unsigned]
        rfl

end Binary64

end LuauReference
