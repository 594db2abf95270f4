/-
This file proves that numerals are read back: the digits of a number in a base stand for that
number, with or without zeros before them. Everything goes by strong induction on the number, whose
digits are those of its quotient by the base and one more.
-/

import LuauReference.Text.Numeral
import Mathlib.Data.List.Induction
import Mathlib.Tactic.IntervalCases

namespace LuauReference

namespace Text

/-! ### Digits -/

theorem digitIn?_digitChar {base digit : Nat} (small : digit < base) (known : base ≤ 16) :
    digitIn? base digit.digitChar = some digit := by
  have bounded : digit < 16 := Nat.lt_of_lt_of_le small known
  have value : (if digit.digitChar.isDigit then some (digit.digitChar.toNat - '0'.toNat)
      else if 'a'.toNat ≤ digit.digitChar.toNat && digit.digitChar.toNat ≤ 'f'.toNat then
        some (digit.digitChar.toNat - 'a'.toNat + 10)
      else if 'A'.toNat ≤ digit.digitChar.toNat && digit.digitChar.toNat ≤ 'F'.toNat then
        some (digit.digitChar.toNat - 'A'.toNat + 10)
      else none) = some digit := by
    interval_cases digit <;> rfl
  rw [digitIn?, value]
  simp [small]

theorem ofDigits_append (base : Nat) (digits : List Nat) (last : Nat) :
    ofDigits base (digits ++ [last]) = ofDigits base digits * base + last := by
  simp [ofDigits, List.foldl_append]

/-- Digits below the base stand for a number below the power of the base. -/
theorem ofDigits_lt {base : Nat} {digits : List Nat} (small : ∀ digit ∈ digits, digit < base) :
    ofDigits base digits < base ^ digits.length := by
  induction digits using List.reverseRecOn with
  | nil => exact Nat.one_pos
  | append_singleton front last inductionHypothesis =>
    have before :=
      inductionHypothesis fun digit member => small digit (List.mem_append_left _ member)
    have digit : last < base := small last (by simp)
    rw [ofDigits_append, List.length_append, List.length_singleton, Nat.pow_succ]
    calc ofDigits base front * base + last < ofDigits base front * base + base := by omega
      _ = (ofDigits base front + 1) * base := (Nat.succ_mul ..).symm
      _ ≤ base ^ front.length * base := Nat.mul_le_mul_right base before

theorem mapM_append_singleton {digits : List Nat} {s : Text} {c : Char} {last base : Nat}
    (front : s.mapM (digitIn? base) = some digits) (back : digitIn? base c = some last) :
    (s ++ [c]).mapM (digitIn? base) = some (digits ++ [last]) := by
  rw [List.mapM_append, front]
  simp [back]

/-- The digits of a number have values, and these stand for the number. -/
theorem exists_mapM_toDigits {base : Nat} (several : 1 < base) (known : base ≤ 16) (n : Nat) :
    ∃ digits, (Nat.toDigits base n).mapM (digitIn? base) = some digits ∧
      ofDigits base digits = n := by
  induction n using Nat.strong_induction_on with
  | _ n inductionHypothesis =>
    rw [Nat.toDigits_eq_if several]
    split
    · next small =>
      exact ⟨[n], by simp [digitIn?_digitChar small known], by simp [ofDigits]⟩
    · next large =>
      have smaller : n / base < n := Nat.div_lt_self (by omega) several
      obtain ⟨digits, front, value⟩ := inductionHypothesis (n / base) smaller
      have rest : n % base < base := Nat.mod_lt n (by omega)
      refine ⟨digits ++ [n % base],
        mapM_append_singleton front (digitIn?_digitChar rest known), ?_⟩
      rw [ofDigits_append, value, Nat.mul_comm, Nat.div_add_mod]

/-- The digits of a number in a base are read as that number. -/
theorem naturalIn?_toDigits {base : Nat} (several : 1 < base) (known : base ≤ 16) (n : Nat) :
    naturalIn? base (Nat.toDigits base n) = some n := by
  obtain ⟨digits, front, value⟩ := exists_mapM_toDigits several known n
  have present : (Nat.toDigits base n).isEmpty = false := by simp
  rw [naturalIn?, present, if_neg Bool.false_ne_true, front, Option.map_some, value]

/-- Each character of a numeral has one value. -/
theorem values_of_mapM {value : Char → Option Nat} {bound : Nat}
    (small : ∀ c digit, value c = some digit → digit < bound) {s : Text} {digits : List Nat}
    (each : s.mapM value = some digits) :
    digits.length = s.length ∧ ∀ digit ∈ digits, digit < bound := by
  induction s generalizing digits with
  | nil =>
    cases each
    exact ⟨rfl, List.forall_mem_nil _⟩
  | cons c rest inductionHypothesis =>
    rw [List.mapM_cons] at each
    obtain ⟨first, here, more⟩ := Option.bind_eq_some_iff.mp each
    obtain ⟨others, below, same⟩ := Option.bind_eq_some_iff.mp more
    cases same
    obtain ⟨length, others'⟩ := inductionHypothesis below
    exact ⟨congrArg (· + 1) length, List.forall_mem_cons.mpr ⟨small c first here, others'⟩⟩

theorem lt_of_digitIn? {base : Nat} (c : Char) (digit : Nat)
    (value : digitIn? base c = some digit) :
    digit < base := by
  rw [digitIn?, Option.filter_eq_some_iff] at value
  exact of_decide_eq_true value.2

/-- A numeral of so many digits stands for a number below the power of the base. -/
theorem lt_of_naturalIn? {base : Nat} {s : Text} {n : Nat} (read : naturalIn? base s = some n) :
    n < base ^ s.length := by
  rw [naturalIn?] at read
  split at read
  · cases read
  · obtain ⟨digits, each, rfl⟩ := Option.map_eq_some_iff.mp read
    obtain ⟨length, small⟩ := values_of_mapM lt_of_digitIn? each
    rw [← length]
    exact ofDigits_lt small

/-! ### Zeros in front -/

theorem digitIn?_zero {base : Nat} (several : 1 < base) : digitIn? base '0' = some 0 := by
  have positive : 0 < base := by omega
  simp [digitIn?, positive, Char.isDigit]

theorem ofDigits_zero_cons (base : Nat) (digits : List Nat) :
    ofDigits base (0 :: digits) = ofDigits base digits := by
  simp [ofDigits]

/-- Zeros before a numeral do not change what it stands for. -/
theorem naturalIn?_replicate_append {base : Nat} (several : 1 < base) (count : Nat) {s : Text}
    (present : s ≠ []) :
    naturalIn? base (List.replicate count '0' ++ s) = naturalIn? base s := by
  induction count with
  | zero => rw [List.replicate_zero, List.nil_append]
  | succ count inductionHypothesis =>
    rw [← inductionHypothesis, List.replicate_succ, List.cons_append]
    have notEmpty : (List.replicate count '0' ++ s).isEmpty = false := by simp [present]
    rw [naturalIn?, naturalIn?, notEmpty, List.isEmpty_cons, if_neg Bool.false_ne_true,
      if_neg Bool.false_ne_true, List.mapM_cons, digitIn?_zero several]
    cases read : (List.replicate count '0' ++ s).mapM (digitIn? base) with
    | none => rfl
    | some digits => simp [ofDigits_zero_cons]

/-- A number of at most four hexadecimal digits is written with exactly four, which are read
back. -/
theorem exists_hex_four {n : Nat} (small : n < 0x10000) :
    ∃ a b c d, hex 4 n = [a, b, c, d] ∧ naturalIn? 16 [a, b, c, d] = some n := by
  have short : (Nat.toDigits 16 n).length ≤ 4 :=
    (Nat.length_toDigits_le_iff (by omega) (by omega)).mpr small
  have length : (hex 4 n).length = 4 := by
    rw [hex, padZeros, List.length_append, List.length_replicate]
    omega
  have value : naturalIn? 16 (hex 4 n) = some n := by
    rw [hex, padZeros, naturalIn?_replicate_append (by omega) _ Nat.toDigits_ne_nil,
      naturalIn?_toDigits (by omega) (by omega)]
  obtain ⟨a, b, c, d, written⟩ : ∃ a b c d, hex 4 n = [a, b, c, d] := by
    match hex 4 n, length with
    | [a, b, c, d], _ => exact ⟨a, b, c, d, rfl⟩
  exact ⟨a, b, c, d, written, written ▸ value⟩

/-! ### Decimals -/

theorem isDigit_of_mem_ofNat {n : Nat} {c : Char} (member : c ∈ ofNat n) : c.isDigit = true :=
  Nat.isDigit_of_mem_toDigits (by omega) (by omega) member

theorem ofNat_ne_nil (n : Nat) : ofNat n ≠ [] :=
  Nat.toDigits_ne_nil

/-- A positive number does not begin with a zero. -/
theorem head?_ofNat_ne_zero {n : Nat} (positive : 0 < n) : (ofNat n).head? ≠ some '0' := by
  induction n using Nat.strong_induction_on with
  | _ n inductionHypothesis =>
    rw [ofNat, Nat.toDigits_eq_if (by omega)]
    split
    · next small =>
      have nonzero : n.digitChar ≠ '0' := by
        rw [ne_eq, Nat.digitChar_eq_zero]
        omega
      simpa using nonzero
    · next large =>
      have headed : (Nat.toDigits 10 (n / 10)).head?.isSome = true := by simp
      rw [List.head?_append, Option.or_of_isSome headed]
      exact inductionHypothesis (n / 10) (by omega) (by omega)

theorem naturalIn?_ofNat (n : Nat) : naturalIn? 10 (ofNat n) = some n :=
  naturalIn?_toDigits (by omega) (by omega) n

/-- A numeral is short enough to be read exactly when its number is below the power of ten. -/
theorem length_ofNat_le_iff {n : Nat} :
    (ofNat n).length ≤ longestNumeral ↔ n < 10 ^ longestNumeral :=
  Nat.length_toDigits_le_iff (by omega) (by decide)

/-! ### Numerals of any script -/

theorem lt_of_digit? (c : Char) (digit : Nat) (value : digit? c = some digit) : digit < 10 := by
  obtain ⟨start, found, rfl⟩ := Option.map_eq_some_iff.mp value
  have within := List.find?_some found
  simp only [Bool.and_eq_true, decide_eq_true_eq] at within
  omega

/-- A whole number that is read has no more digits than the longest numeral. -/
theorem natAbs_lt_of_integer? {s : Text} {whole : Int} (read : integer? s = some whole) :
    whole.natAbs < 10 ^ longestNumeral := by
  have bounded {body : Text} {n : Nat} (read : integer?.natural? body = some n) :
      n < 10 ^ longestNumeral := by
    obtain ⟨digits, grouped, value⟩ := Option.bind_eq_some_iff.mp read
    split at value
    · next short =>
      cases value
      rw [groupedDigits?] at grouped
      split at grouped
      · cases grouped
      · have small := (values_of_mapM lt_of_digit? grouped).2
        exact (ofDigits_lt small).trans_le (Nat.pow_le_pow_right (by omega) short)
    · cases value
  rw [integer?] at read
  split at read
  · obtain ⟨lifted, signed, rfl⟩ := Option.map_eq_some_iff.mp read
    obtain ⟨n, body, same⟩ := Option.bind_eq_some_iff.mp signed
    cases same
    simpa using bounded body
  all_goals
    obtain ⟨n, body, rfl⟩ := Option.map_eq_some_iff.mp read
    exact bounded body

end Text

end LuauReference
