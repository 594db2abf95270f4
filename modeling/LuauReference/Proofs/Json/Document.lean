/-
This file proves that the text of a JSON document holds no carriage return. A text file is read with
line feeds for all ends of lines, so this is what makes a document come back from a file exactly as
it was written: escapes stand for the carriage returns of quoted texts, and lines end with line
feeds only.
-/

import LuauReference.Proofs.Json.RoundTrip

namespace LuauReference

namespace Json

theorem unbroken_hex {unit : Nat} (small : unit < 0x10000) : '\r' ∉ Text.hex 4 unit := by
  obtain ⟨a, b, c, d, written, value⟩ := Text.exists_hex_four small
  rw [written]
  intro member
  have refused : Text.digitIn? 16 '\r' = none := rfl
  simp only [List.mem_cons, List.not_mem_nil, or_false] at member
  rcases member with rfl | rfl | rfl | rfl <;>
    simp [Text.naturalIn?, refused, List.mapM_cons] at value

theorem unbroken_escapeUnit {unit : Nat} (small : unit < 0x10000) : '\r' ∉ escapeUnit unit := by
  have hex := unbroken_hex small
  simp [escapeUnit, hex]

theorem unbroken_escapeChar (c : Char) : '\r' ∉ escapeChar c := by
  have valid : c.toNat < 0xD800 ∨ (0xDFFF < c.toNat ∧ c.toNat < 0x110000) := c.valid
  unfold escapeChar
  split_ifs with quote slash feed back tab form erase visible narrow
  any_goals decide
  · exact fun member => back (List.mem_singleton.mp member).symm
  · exact unbroken_escapeUnit narrow
  · rw [List.mem_append, not_or]
    exact ⟨unbroken_escapeUnit (by omega), unbroken_escapeUnit (by omega)⟩

theorem unbroken_writeText (s : Text) : '\r' ∉ writeText s := by
  have inner : '\r' ∉ s.flatMap escapeChar := by
    intro member
    obtain ⟨c, _, here⟩ := List.mem_flatMap.mp member
    exact unbroken_escapeChar c here
  simp [writeText, inner]

theorem unbroken_of_isNumeric {s : Text} (numeric : IsNumeric s) : '\r' ∉ s :=
  fun member => absurd (numeric _ member) (by decide)

theorem unbroken_writeFloat (x : Binary64) : '\r' ∉ writeFloat x := by
  cases x with
  | finite negative mantissa exponent =>
    exact unbroken_of_isNumeric (isNumeric_writeFloat negative mantissa exponent)
  | infinite negative => cases negative <;> decide
  | undefined => decide

theorem unbroken_newline (level : Nat) : '\r' ∉ newline level := by
  simp [newline, List.mem_replicate]

mutual

theorem unbroken_spread (level : Nat) : ∀ value : Json, '\r' ∉ spread level value
  | null => by rw [spread]; decide
  | bool true => by rw [spread]; decide
  | bool false => by rw [spread]; decide
  | int value => by rw [spread]; exact unbroken_of_isNumeric (isNumeric_ofInt value)
  | float value => by rw [spread]; exact unbroken_writeFloat value
  | str value => by rw [spread]; exact unbroken_writeText value
  | arr [] => by rw [spread]; decide
  | arr (item :: items) => by
    rw [spread]
    simp [unbroken_newline, unbroken_spread (level + 1) item,
      unbroken_spreadItems (level + 1) items]
  | obj [] => by rw [spread]; decide
  | obj ((name, value) :: fields) => by
    rw [spread]
    simp [unbroken_newline, unbroken_writeText, unbroken_spread (level + 1) value,
      unbroken_spreadFields (level + 1) fields]

theorem unbroken_spreadItems (level : Nat) : ∀ items : List Json, '\r' ∉ spreadItems level items
  | [] => by rw [spreadItems]; decide
  | item :: items => by
    rw [spreadItems]
    simp [unbroken_newline, unbroken_spread level item, unbroken_spreadItems level items]

theorem unbroken_spreadFields (level : Nat) :
    ∀ fields : List (Text × Json), '\r' ∉ spreadFields level fields
  | [] => by rw [spreadFields]; decide
  | (name, value) :: fields => by
    rw [spreadFields]
    simp [unbroken_newline, unbroken_writeText, unbroken_spread level value,
      unbroken_spreadFields level fields]

end

/-- The text of a document has no carriage return. -/
theorem unbroken_document (value : Json) : '\r' ∉ value.document := by
  simp [document, unbroken_spread 0 value]

end Json

end LuauReference
