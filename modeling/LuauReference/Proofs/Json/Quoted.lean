/-
This file proves that quoted texts are read back. A text is written character by character, and each
character has one or two units of UTF-16 between the quotes; the reader first collects units and
then joins them. So there are two statements: the units of a written text are those of its
characters, and the units of characters join to the characters.
-/

import LuauReference.Json.Reader
import LuauReference.Json.Writer
import LuauReference.Proofs.Text.Numeral
import Mathlib.Tactic.SplitIfs

namespace LuauReference

namespace Json

/-! ### Units -/

/-- The units of a character: itself, or the two of a pair. -/
def unitsOf (c : Char) : List Nat :=
  if c.toNat < 0x10000 then [c.toNat]
  else [0xD800 + (c.toNat - 0x10000) / 0x400, 0xDC00 + (c.toNat - 0x10000) % 0x400]

/-- No character is half a pair. -/
theorem not_half (c : Char) : isHighUnit c.toNat = false ∧ isLowUnit c.toNat = false := by
  have valid : c.toNat < 0xD800 ∨ (0xDFFF < c.toNat ∧ c.toNat < 0x110000) := c.valid
  simp only [isHighUnit, isLowUnit, Bool.and_eq_false_iff, decide_eq_false_iff_not]
  omega

theorem single_toNat (c : Char) : joinUnits.single c.toNat = c := by
  obtain ⟨notHigh, notLow⟩ := not_half c
  rw [joinUnits.single, notHigh, notLow, Bool.or_false, if_neg Bool.false_ne_true,
    Char.ofNat_toNat]

/-- The units of a character join to it, whatever follows. -/
theorem joinUnits_unitsOf_append (c : Char) (more : List Nat) :
    joinUnits (unitsOf c ++ more) = c :: joinUnits more := by
  have valid : c.toNat < 0xD800 ∨ (0xDFFF < c.toNat ∧ c.toNat < 0x110000) := c.valid
  rw [unitsOf]
  split
  · cases more with
    | nil => simp [joinUnits, single_toNat]
    | cons next rest =>
      simp [joinUnits, (not_half c).1, single_toNat]
  · next wide =>
    have high : isHighUnit (0xD800 + (c.toNat - 0x10000) / 0x400) = true := by
      simp only [isHighUnit, Bool.and_eq_true, decide_eq_true_eq]
      omega
    have low : isLowUnit (0xDC00 + (c.toNat - 0x10000) % 0x400) = true := by
      simp only [isLowUnit, Bool.and_eq_true, decide_eq_true_eq]
      omega
    have whole : 0x10000 + (0xD800 + (c.toNat - 0x10000) / 0x400 - 0xD800) * 0x400 +
        (0xDC00 + (c.toNat - 0x10000) % 0x400 - 0xDC00) = c.toNat := by omega
    rw [List.cons_append, List.cons_append, List.nil_append, joinUnits, high, low, Bool.and_self,
      if_pos rfl, whole, Char.ofNat_toNat]

theorem joinUnits_flatMap_unitsOf (s : Text) : joinUnits (s.flatMap unitsOf) = s := by
  induction s with
  | nil => rfl
  | cons c rest inductionHypothesis =>
    rw [List.flatMap_cons, joinUnits_unitsOf_append, inductionHypothesis]

/-! ### Escapes -/

/-- An escaped unit is read as that unit. -/
theorem textUnits?_escapeUnit {unit : Nat} (small : unit < 0x10000) (rest : Text) :
    textUnits? (escapeUnit unit ++ rest) = prepend? (some unit) (textUnits? rest) := by
  obtain ⟨a, b, c, d, written, value⟩ := Text.exists_hex_four small
  rw [escapeUnit, written]
  simp only [List.cons_append, List.nil_append]
  rw [textUnits?, unit?, value]

/-- An escape of one letter is read as the character that it stands for. -/
theorem textUnits?_shortEscape {letter c : Char} (rest : Text)
    (found : shortEscape? letter = some c) (plain : letter ≠ 'u') :
    textUnits? ('\\' :: letter :: rest) = prepend? (some c.toNat) (textUnits? rest) := by
  rw [textUnits?, found, Option.map_some]
  simp [plain]

/-- A character that needs no escape is read as itself. -/
theorem textUnits?_plain {c : Char} (rest : Text) (notQuote : c ≠ '"') (notSlash : c ≠ '\\')
    (visible : 0x20 ≤ c.toNat) :
    textUnits? (c :: rest) = prepend? (some c.toNat) (textUnits? rest) := by
  have low : ¬ c.toNat < 0x20 := by omega
  rw [textUnits?]
  · simp [notSlash, low]
  · simpa using notQuote
  · simp [notSlash]
  · simp [notSlash]

/-- Puts units before the units of what follows. -/
def prependAll (units : List Nat) (rest : Option (List Nat × Text)) : Option (List Nat × Text) :=
  rest.map fun (more, tail) => (units ++ more, tail)

theorem prepend?_some (unit : Nat) (rest : Option (List Nat × Text)) :
    prepend? (some unit) rest = prependAll [unit] rest := by
  cases rest <;> rfl

theorem prependAll_prependAll (first second : List Nat) (rest : Option (List Nat × Text)) :
    prependAll first (prependAll second rest) = prependAll (first ++ second) rest := by
  cases rest <;> simp [prependAll]

/-- A written character is read as its units. -/
theorem textUnits?_escapeChar (c : Char) (rest : Text) :
    textUnits? (escapeChar c ++ rest) = prependAll (unitsOf c) (textUnits? rest) := by
  have valid : c.toNat < 0xD800 ∨ (0xDFFF < c.toNat ∧ c.toNat < 0x110000) := c.valid
  have short {letter : Char} (found : shortEscape? letter = some c) (plain : letter ≠ 'u')
      (narrow : c.toNat < 0x10000) :
      textUnits? (['\\', letter] ++ rest) = prependAll (unitsOf c) (textUnits? rest) := by
    rw [List.cons_append, List.cons_append, List.nil_append,
      textUnits?_shortEscape rest found plain,
      prepend?_some, unitsOf, if_pos narrow]
  have named {code : Nat} (same : c.toNat = code) : Char.ofNat code = c := by
    rw [← same, Char.ofNat_toNat]
  unfold escapeChar
  split_ifs with quote slash feed back tab form erase visible narrow
  · exact short (by rw [quote]; rfl) (by decide) (by rw [quote]; decide)
  · exact short (by rw [slash]; rfl) (by decide) (by rw [slash]; decide)
  · exact short (by rw [feed]; rfl) (by decide) (by rw [feed]; decide)
  · exact short (by rw [back]; rfl) (by decide) (by rw [back]; decide)
  · exact short (by rw [tab]; rfl) (by decide) (by rw [tab]; decide)
  · exact short (by rw [← named form]; rfl) (by decide) (by omega)
  · exact short (by rw [← named erase]; rfl) (by decide) (by omega)
  · simp only [Bool.and_eq_true, decide_eq_true_eq] at visible
    rw [List.cons_append, List.nil_append, textUnits?_plain rest quote slash visible.1,
      prepend?_some, unitsOf, if_pos (by omega)]
  · rw [textUnits?_escapeUnit narrow, prepend?_some, unitsOf, if_pos narrow]
  · rw [List.append_assoc, textUnits?_escapeUnit (by omega), textUnits?_escapeUnit (by omega),
      prepend?_some, prepend?_some, prependAll_prependAll, unitsOf, if_neg narrow,
      List.singleton_append]

/-- A written text up to its closing quote is read as the units of its characters. -/
theorem textUnits?_flatMap_escapeChar (s rest : Text) :
    textUnits? (s.flatMap escapeChar ++ '"' :: rest) = some (s.flatMap unitsOf, rest) := by
  induction s with
  | nil => rw [List.flatMap_nil, List.nil_append, textUnits?, List.flatMap_nil]
  | cons c more inductionHypothesis =>
    rw [List.flatMap_cons, List.append_assoc, textUnits?_escapeChar, inductionHypothesis,
      List.flatMap_cons]
    rfl

end Json

end LuauReference
