/-
This file proves that decoding undoes encoding and the other way round: the bytes of a text are read
back as that text, and bytes that are read as a text without a gap are the bytes of that text. The
decoder goes byte by byte, so the statements for one character are about any bytes that follow it,
and those for a text are inductions over its characters.
-/

import LuauReference.Text.Utf8
import Mathlib.Logic.Function.Defs
import Mathlib.Tactic.SplitIfs

namespace LuauReference

namespace Text

/-! ### Single bytes -/

/-- A byte in the range that an unfinished character asks for completes it. -/
theorem nextByte_last {value low high byte : Nat} (above : low ≤ byte) (below : byte ≤ high) :
    nextByte (some ⟨1, value, low, high⟩) byte =
      ([some (Char.ofNat (value * 0x40 + (byte - 0x80)))], none) := by
  simp [nextByte, above, below]

/-- A byte in the range that an unfinished character asks for leaves one byte less to read. -/
theorem nextByte_more {missing value low high byte : Nat} (above : low ≤ byte)
    (below : byte ≤ high) :
    nextByte (some ⟨missing + 2, value, low, high⟩) byte =
      ([], some ⟨missing + 1, value * 0x40 + (byte - 0x80), 0x80, 0xBF⟩) := by
  simp [nextByte, above, below]

/-- The first byte of a character of two bytes. -/
theorem firstByte_two {byte : Nat} (above : 0xC2 ≤ byte) (below : byte ≤ 0xDF) :
    firstByte byte = ([], some ⟨1, byte - 0xC0, 0x80, 0xBF⟩) := by
  rw [firstByte, if_neg (by omega), if_neg (by omega), if_pos below]

/-- The first byte of a character of three bytes. The range of the second byte leaves out what has
a shorter form and what is half a pair. -/
theorem firstByte_three (byte second : Nat) (above : 0xE0 ≤ byte) (below : byte ≤ 0xEF)
    (atLeast : 0x80 ≤ second) (atMost : second ≤ 0xBF) (noShorter : byte = 0xE0 → 0xA0 ≤ second)
    (noHalf : byte = 0xED → second ≤ 0x9F) :
    ∃ low high, firstByte byte = ([], some ⟨2, byte - 0xE0, low, high⟩) ∧
      low ≤ second ∧ second ≤ high := by
  rw [firstByte, if_neg (by omega), if_neg (by omega), if_neg (by omega)]
  split_ifs with first half
  · exact ⟨0xA0, 0xBF, by rw [first], noShorter first, atMost⟩
  · exact ⟨0x80, 0x9F, by rw [half], atLeast, noHalf half⟩
  · exact ⟨0x80, 0xBF, rfl, atLeast, atMost⟩

/-- The first byte of a character of four bytes. The range of the second byte leaves out what has a
shorter form and what lies beyond the last character. -/
theorem firstByte_four (byte second : Nat) (above : 0xF0 ≤ byte) (below : byte ≤ 0xF4)
    (atLeast : 0x80 ≤ second) (atMost : second ≤ 0xBF) (noShorter : byte = 0xF0 → 0x90 ≤ second)
    (notBeyond : byte = 0xF4 → second ≤ 0x8F) :
    ∃ low high, firstByte byte = ([], some ⟨3, byte - 0xF0, low, high⟩) ∧
      low ≤ second ∧ second ≤ high := by
  rw [firstByte, if_neg (by omega), if_neg (by omega), if_neg (by omega), if_neg (by omega),
    if_neg (by omega), if_neg (by omega)]
  split_ifs with first middle last
  · exact ⟨0x90, 0xBF, by rw [first], noShorter first, atMost⟩
  · exact ⟨0x80, 0xBF, rfl, atLeast, atMost⟩
  · exact ⟨0x80, 0x8F, by rw [last], atLeast, notBeyond last⟩
  · omega

/-- What the first byte of a character leads to, told by how many bytes the character has. The range
of the second byte is one in which no shorter form, no half of a pair and nothing beyond the last
character begins. -/
inductive LeadsTo (byte : Nat) : List (Option Char) × Option Unfinished → Prop
  | one (below : byte ≤ 0x7F) : LeadsTo byte ([some (Char.ofNat byte)], none)
  | gap : LeadsTo byte ([none], none)
  | two {value : Nat} (start : byte = value + 0xC0) (above : 2 ≤ value) (below : value ≤ 0x1F) :
    LeadsTo byte ([], some ⟨1, value, 0x80, 0xBF⟩)
  | three {value low high : Nat} (start : byte = value + 0xE0) (below : value ≤ 0xF)
    (atLeast : 0x80 ≤ low)
      (atMost : high ≤ 0xBF) (noShorter : value = 0 → 0xA0 ≤ low)
      (noHalf : value = 0xD → high ≤ 0x9F) :
    LeadsTo byte ([], some ⟨2, value, low, high⟩)
  | four {value low high : Nat} (start : byte = value + 0xF0) (below : value ≤ 4)
    (atLeast : 0x80 ≤ low)
      (atMost : high ≤ 0xBF) (noShorter : value = 0 → 0x90 ≤ low)
      (notBeyond : value = 4 → high ≤ 0x8F) :
    LeadsTo byte ([], some ⟨3, value, low, high⟩)

theorem leadsTo_firstByte (byte : Nat) : LeadsTo byte (firstByte byte) := by
  unfold firstByte
  split
  next below => exact .one below
  split
  next => exact .gap
  split
  next => exact .two (by omega) (by omega) (by omega)
  split
  next => exact .three (by omega) (by omega) (by omega) (by omega) (by omega) (by omega)
  split
  next => exact .three (by omega) (by omega) (by omega) (by omega) (by omega) (by omega)
  split
  next => exact .three (by omega) (by omega) (by omega) (by omega) (by omega) (by omega)
  split
  next => exact .four (by omega) (by omega) (by omega) (by omega) (by omega) (by omega)
  split
  next => exact .four (by omega) (by omega) (by omega) (by omega) (by omega) (by omega)
  split
  next => exact .four (by omega) (by omega) (by omega) (by omega) (by omega) (by omega)
  next => exact .gap

/-! ### Characters -/

/-- The decoder goes on after a byte in the state that the byte leads to. -/
theorem decodeFrom_ofNat (state : Option Unfinished) {byte : Nat} (small : byte < 256)
    (rest : List UInt8) :
    decodeFrom state (UInt8.ofNat byte :: rest) =
      (nextByte state byte).1 ++ decodeFrom (nextByte state byte).2 rest := by
  have same : (UInt8.ofNat byte).toNat = byte := UInt8.toNat_ofNat_of_lt small
  rw [decodeFrom, same]

/-- The bytes of a character are read as that character, whatever follows them. -/
theorem decodeFrom_utf8EncodeChar (c : Char) (rest : List UInt8) :
    decodeFrom none (String.utf8EncodeChar c ++ rest) = some c :: decodeFrom none rest := by
  have valid : c.toNat < 0xD800 ∨ (0xDFFF < c.toNat ∧ c.toNat < 0x110000) := c.valid
  have same : Char.ofNat c.toNat = c := Char.ofNat_toNat c
  unfold String.utf8EncodeChar
  simp only [show c.val.toNat = c.toNat from rfl]
  generalize c.toNat = value at valid same ⊢
  split_ifs with one two three
  · rw [List.cons_append, List.nil_append, decodeFrom_ofNat none (by omega), nextByte, firstByte,
      if_pos one]
    simp [same]
  · simp only [List.cons_append, List.nil_append]
    rw [decodeFrom_ofNat none (by omega), nextByte, firstByte_two (by omega) (by omega),
      decodeFrom_ofNat _ (by omega), nextByte_last (by omega) (by omega)]
    have whole : (value / 64 % 32 + 192 - 192) * 64 + (value % 64 + 128 - 128) = value := by omega
    simp only [List.nil_append, whole, same, List.cons_append]
  · simp only [List.cons_append, List.nil_append]
    obtain ⟨low, high, first, above, below⟩ := firstByte_three (value / 4096 % 16 + 224)
      (value / 64 % 64 + 128) (by omega) (by omega) (by omega) (by omega) (by omega)
      (by omega)
    rw [decodeFrom_ofNat none (by omega), nextByte, first, decodeFrom_ofNat _ (by omega),
      nextByte_more above below, decodeFrom_ofNat _ (by omega),
      nextByte_last (by omega) (by omega)]
    have whole : ((value / 4096 % 16 + 224 - 224) * 64 + (value / 64 % 64 + 128 - 128)) * 64 +
        (value % 64 + 128 - 128) = value := by omega
    simp only [List.nil_append, whole, same, List.cons_append]
  · simp only [List.cons_append, List.nil_append]
    obtain ⟨low, high, first, above, below⟩ := firstByte_four (value / 262144 % 8 + 240)
      (value / 4096 % 64 + 128) (by omega) (by omega) (by omega) (by omega) (by omega)
      (by omega)
    rw [decodeFrom_ofNat none (by omega), nextByte, first, decodeFrom_ofNat _ (by omega),
      nextByte_more above below, decodeFrom_ofNat _ (by omega),
      nextByte_more (by omega) (by omega), decodeFrom_ofNat _ (by omega),
      nextByte_last (by omega) (by omega)]
    have whole : (((value / 262144 % 8 + 240 - 240) * 64 + (value / 4096 % 64 + 128 - 128)) * 64 +
        (value / 64 % 64 + 128 - 128)) * 64 + (value % 64 + 128 - 128) = value := by omega
    simp only [List.nil_append, whole, same, List.cons_append]

/-! ### Texts -/

theorem decodeFrom_utf8 (s : Text) : decodeFrom none (utf8 s) = s.map some := by
  induction s with
  | nil => rfl
  | cons c rest inductionHypothesis =>
    rw [utf8, List.flatMap_cons, decodeFrom_utf8EncodeChar]
    exact congrArg (some c :: ·) inductionHypothesis

/-- The bytes of a text are read back as that text. -/
theorem ofUtf8?_utf8 (s : Text) : ofUtf8? (utf8 s) = some s := by
  rw [ofUtf8?, decodeFrom_utf8]
  induction s with
  | nil => rfl
  | cons c rest inductionHypothesis =>
    rw [List.map_cons, List.mapM_cons, inductionHypothesis]
    rfl

/-! ### Bytes without a gap -/

/-- An unfinished character that needs one more byte is completed by the next one. -/
theorem decodeFrom_last {value low high : Nat} {bytes : List UInt8} {found : Text}
    (whole : decodeFrom (some ⟨1, value, low, high⟩) bytes = found.map some) :
    ∃ (byte : UInt8) (rest : List UInt8) (more : Text), bytes = byte :: rest ∧
      low ≤ byte.toNat ∧ byte.toNat ≤ high ∧
      found = Char.ofNat (value * 0x40 + (byte.toNat - 0x80)) :: more ∧
      decodeFrom none rest = more.map some := by
  cases bytes with
  | nil => cases found <;> simp [decodeFrom] at whole
  | cons byte rest =>
    rw [decodeFrom] at whole
    by_cases within : low ≤ byte.toNat ∧ byte.toNat ≤ high
    · rw [nextByte_last within.1 within.2] at whole
      cases found with
      | nil => exact nomatch whole
      | cons c more =>
        obtain ⟨same, others⟩ := List.cons.inj whole
        exact ⟨byte, rest, more, rfl, within.1, within.2, by rw [Option.some.inj same], others⟩
    · cases found <;> simp [nextByte, within] at whole

/-- An unfinished character that needs more bytes goes on with the next one. -/
theorem decodeFrom_more {missing value low high : Nat} {bytes : List UInt8} {found : Text}
    (whole : decodeFrom (some ⟨missing + 2, value, low, high⟩) bytes = found.map some) :
    ∃ (byte : UInt8) (rest : List UInt8), bytes = byte :: rest ∧
      low ≤ byte.toNat ∧ byte.toNat ≤ high ∧
      decodeFrom (some ⟨missing + 1, value * 0x40 + (byte.toNat - 0x80), 0x80, 0xBF⟩) rest =
        found.map some := by
  cases bytes with
  | nil => cases found <;> simp [decodeFrom] at whole
  | cons byte rest =>
    rw [decodeFrom] at whole
    by_cases within : low ≤ byte.toNat ∧ byte.toNat ≤ high
    · rw [nextByte_more within.1 within.2] at whole
      exact ⟨byte, rest, rfl, within.1, within.2, whole⟩
    · cases found <;> simp [nextByte, within] at whole

/-- The bytes of the character with a number. -/
theorem utf8EncodeChar_ofNat {value : Nat} (valid : value.isValidChar) :
    String.utf8EncodeChar (Char.ofNat value) =
      if value ≤ 0x7F then [UInt8.ofNat value]
      else if value ≤ 0x7FF then
        [UInt8.ofNat (value / 64 % 32 + 192), UInt8.ofNat (value % 64 + 128)]
      else if value ≤ 0xFFFF then
        [UInt8.ofNat (value / 4096 % 16 + 224), UInt8.ofNat (value / 64 % 64 + 128),
          UInt8.ofNat (value % 64 + 128)]
      else
        [UInt8.ofNat (value / 262144 % 8 + 240), UInt8.ofNat (value / 4096 % 64 + 128),
          UInt8.ofNat (value / 64 % 64 + 128), UInt8.ofNat (value % 64 + 128)] := by
  have same : (Char.ofNat value).toNat = value := by
    rw [Char.ofNat, dif_pos valid]
    rfl
  unfold String.utf8EncodeChar
  simp only [show (Char.ofNat value).val.toNat = (Char.ofNat value).toNat from rfl, same]

theorem ofNat_eq_of_eq_toNat {n : Nat} (byte : UInt8) (same : n = byte.toNat) :
    UInt8.ofNat n = byte := by
  rw [same, UInt8.ofNat_toNat]

/-- What is read after the first byte of two completes a character that is written by both. -/
theorem exists_of_two {first : UInt8} {value : Nat} {rest : List UInt8} {c : Char} {more : Text}
    (whole : decodeFrom (some ⟨1, value, 0x80, 0xBF⟩) rest = (c :: more).map some)
    (start : first.toNat = value + 0xC0) (above : 2 ≤ value) (below : value ≤ 0x1F) :
    ∃ left, first :: rest = String.utf8EncodeChar c ++ left ∧
      decodeFrom none left = more.map some := by
  obtain ⟨second, left, others, rfl, low, high, same, ends⟩ := decodeFrom_last whole
  obtain ⟨character, rfl⟩ := List.cons.inj same
  refine ⟨left, ?_, ends⟩
  rw [character, utf8EncodeChar_ofNat (Or.inl (by omega)), if_neg (by omega), if_pos (by omega),
    ofNat_eq_of_eq_toNat first (by omega), ofNat_eq_of_eq_toNat second (by omega)]
  rfl

/-- The same for the first byte of three, which bounds the second one so that no shorter form and no
half of a pair is read. -/
theorem exists_of_three {first : UInt8} {value low high : Nat} {rest : List UInt8} {c : Char}
    {more : Text} (whole : decodeFrom (some ⟨2, value, low, high⟩) rest = (c :: more).map some)
    (start : first.toNat = value + 0xE0) (below : value ≤ 0xF) (atLeast : 0x80 ≤ low)
    (atMost : high ≤ 0xBF) (noShorter : value = 0 → 0xA0 ≤ low)
    (noHalf : value = 0xD → high ≤ 0x9F) :
    ∃ left, first :: rest = String.utf8EncodeChar c ++ left ∧
      decodeFrom none left = more.map some := by
  obtain ⟨second, rest, rfl, low₁, high₁, whole⟩ := decodeFrom_more whole
  obtain ⟨third, left, others, rfl, low₂, high₂, same, ends⟩ := decodeFrom_last whole
  obtain ⟨character, rfl⟩ := List.cons.inj same
  refine ⟨left, ?_, ends⟩
  have valid : ((value * 0x40 + (second.toNat - 0x80)) * 0x40 +
      (third.toNat - 0x80)).isValidChar := by
    unfold Nat.isValidChar
    omega
  rw [character, utf8EncodeChar_ofNat valid, if_neg (by omega), if_neg (by omega),
    if_pos (by omega),
    ofNat_eq_of_eq_toNat first (by omega), ofNat_eq_of_eq_toNat second (by omega),
    ofNat_eq_of_eq_toNat third (by omega)]
  rfl

/-- The same for the first byte of four, where the second one leads to no character beyond the
last. -/
theorem exists_of_four {first : UInt8} {value low high : Nat} {rest : List UInt8} {c : Char}
    {more : Text} (whole : decodeFrom (some ⟨3, value, low, high⟩) rest = (c :: more).map some)
    (start : first.toNat = value + 0xF0) (below : value ≤ 4) (atLeast : 0x80 ≤ low)
    (atMost : high ≤ 0xBF) (noShorter : value = 0 → 0x90 ≤ low)
    (notBeyond : value = 4 → high ≤ 0x8F) :
    ∃ left, first :: rest = String.utf8EncodeChar c ++ left ∧
      decodeFrom none left = more.map some := by
  obtain ⟨second, rest, rfl, low₁, high₁, whole⟩ := decodeFrom_more whole
  obtain ⟨third, rest, rfl, low₂, high₂, whole⟩ := decodeFrom_more whole
  obtain ⟨fourth, left, others, rfl, low₃, high₃, same, ends⟩ := decodeFrom_last whole
  obtain ⟨character, rfl⟩ := List.cons.inj same
  refine ⟨left, ?_, ends⟩
  have valid : (((value * 0x40 + (second.toNat - 0x80)) * 0x40 + (third.toNat - 0x80)) * 0x40 +
      (fourth.toNat - 0x80)).isValidChar := by
    unfold Nat.isValidChar
    omega
  rw [character, utf8EncodeChar_ofNat valid, if_neg (by omega), if_neg (by omega),
    if_neg (by omega),
    ofNat_eq_of_eq_toNat first (by omega), ofNat_eq_of_eq_toNat second (by omega),
    ofNat_eq_of_eq_toNat third (by omega), ofNat_eq_of_eq_toNat fourth (by omega)]
  rfl

/-- A list of bytes that is read without a gap begins with the bytes of the first character. -/
theorem exists_of_decodeFrom {bytes : List UInt8} {c : Char} {more : Text}
    (whole : decodeFrom none bytes = (c :: more).map some) :
    ∃ left, bytes = String.utf8EncodeChar c ++ left ∧ decodeFrom none left = more.map some := by
  cases bytes with
  | nil => exact nomatch whole
  | cons first rest =>
    rw [decodeFrom, nextByte] at whole
    have leads := leadsTo_firstByte first.toNat
    generalize firstByte first.toNat = result at whole leads
    cases leads with
    | one below =>
      obtain ⟨same, ends⟩ := List.cons.inj whole
      refine ⟨rest, ?_, ends⟩
      rw [← Option.some.inj same, utf8EncodeChar_ofNat (Or.inl (by omega)), if_pos below,
        UInt8.ofNat_toNat]
      rfl
    | gap => cases (List.cons.inj whole).1
    | two start above below => exact exists_of_two whole start above below
    | three start below atLeast atMost noShorter noHalf =>
      exact exists_of_three whole start below atLeast atMost noShorter noHalf
    | four start below atLeast atMost noShorter notBeyond =>
      exact exists_of_four whole start below atLeast atMost noShorter notBeyond

/-- An unfinished character is read as something, if only as a gap. -/
theorem decodeFrom_some_ne_nil (unfinished : Unfinished) (bytes : List UInt8) :
    decodeFrom (some unfinished) bytes ≠ [] := by
  induction bytes generalizing unfinished with
  | nil => exact List.cons_ne_nil _ _
  | cons byte rest inductionHypothesis =>
    rw [decodeFrom, nextByte]
    split_ifs
    · exact List.cons_ne_nil _ _
    · exact inductionHypothesis _
    · exact List.cons_ne_nil _ _

theorem decodeFrom_cons_ne_nil (byte : UInt8) (rest : List UInt8) :
    decodeFrom none (byte :: rest) ≠ [] := by
  rw [decodeFrom, nextByte]
  have leads := leadsTo_firstByte byte.toNat
  generalize firstByte byte.toNat = result at leads
  cases leads with
  | one => exact List.cons_ne_nil _ _
  | gap => exact List.cons_ne_nil _ _
  | two => exact decodeFrom_some_ne_nil _ _
  | three => exact decodeFrom_some_ne_nil _ _
  | four => exact decodeFrom_some_ne_nil _ _

theorem eq_map_some_of_mapM_id {found : List (Option Char)} {s : Text}
    (whole : found.mapM id = some s) : found = s.map some := by
  induction found generalizing s with
  | nil =>
    cases whole
    rfl
  | cons first rest inductionHypothesis =>
    rw [List.mapM_cons] at whole
    obtain ⟨c, here, whole⟩ := Option.bind_eq_some_iff.mp whole
    obtain ⟨more, others, same⟩ := Option.bind_eq_some_iff.mp whole
    rw [← Option.some.inj same, List.map_cons, ← inductionHypothesis others]
    exact congrArg (· :: rest) here

/-- Bytes that are read as a text are the bytes of that text. -/
theorem utf8_of_ofUtf8? {bytes : List UInt8} {s : Text} (read : ofUtf8? bytes = some s) :
    utf8 s = bytes := by
  have whole := eq_map_some_of_mapM_id read
  clear read
  induction s generalizing bytes with
  | nil =>
    cases bytes with
    | nil => rfl
    | cons byte rest => exact absurd whole (decodeFrom_cons_ne_nil byte rest)
  | cons c more inductionHypothesis =>
    obtain ⟨left, rfl, ends⟩ := exists_of_decodeFrom whole
    rw [utf8, List.flatMap_cons]
    exact congrArg _ (inductionHypothesis ends)

end Text

end LuauReference
