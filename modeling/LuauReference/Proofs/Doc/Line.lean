/-
This file says what reading one line of a documentation block does. There are five kinds of lines,
and for each of them what is read before decides no more than whether the line is fenced and whether
an entry is open. A line that continues an entry changes the tag that opened it: the record is the
same as if the tag had come with the line.
-/

import LuauReference.Doc.Reader
import LuauReference.Proofs.Comment.Indent

namespace LuauReference

namespace Doc

/-! ### Kinds of lines -/

/-- Whether a line begins or ends fenced code. -/
def isFence (line : Text) : Bool :=
  Text.startsWith (Text.trim line) fence

/-- Whether a line belongs to fenced code, when the line before it does or does not. -/
def isFencedAfter (inFence : Bool) (line : Text) : Bool :=
  if isFence line then !inFence else inFence

/-- Whether a line begins like a tag. -/
def isTagLine (line : Text) : Bool :=
  (Text.trim line).head? == some '@'

/-- Whether a line begins like a field. -/
def isFieldLine (line : Text) : Bool :=
  (Text.trim line).head? == some '.'

/-- The tag that a line is, if it fits the form of one and its name is known. -/
def tagOf? (line : Text) : Option Tag :=
  (tagParts? (Text.trim line)).bind fun (name, value) => Tag.read? name value

/-- The field that a line is. -/
def fieldOfLine (line : Text) : Field :=
  fieldOf (Text.trim (Text.trim line).tail)

/-- What a line adds to the entry that it continues. -/
def continuation (line : Text) : Text :=
  Text.trimEnd (Text.dropIndent line)

/-- A record with the given lines of description. -/
def Record.withDescription (record : Record) (lines : List Text) : Record :=
  { record with description := lines }

/-- A record with a further line of description. -/
def Record.describe (record : Record) (line : Text) : Record :=
  { record with description := record.description ++ [Text.trimEnd line] }

theorem exists_of_isTagLine {line : Text} (tagged : isTagLine line = true) :
    ∃ rest, Text.trim line = '@' :: rest :=
  List.head?_eq_some_iff.mp (beq_iff_eq.mp tagged)

theorem exists_of_isFieldLine {line : Text} (dotted : isFieldLine line = true) :
    ∃ rest, Text.trim line = '.' :: rest :=
  List.head?_eq_some_iff.mp (beq_iff_eq.mp dotted)

/-- A tag continues no entry. -/
theorem isContinuation_of_isTagLine {line : Text} (tagged : isTagLine line = true) :
    isContinuation line = false := by
  obtain ⟨rest, trimmed⟩ := exists_of_isTagLine tagged
  rw [isContinuation, Text.trim_dropIndent, trimmed]
  exact ite_self false

/-- A field continues no entry. -/
theorem isContinuation_of_isFieldLine {line : Text} (dotted : isFieldLine line = true) :
    isContinuation line = false := by
  obtain ⟨rest, trimmed⟩ := exists_of_isFieldLine dotted
  rw [isContinuation, Text.trim_dropIndent, trimmed]
  exact ite_self false

/-- No line is a tag and a field. -/
theorem isTagLine_of_isFieldLine {line : Text} (dotted : isFieldLine line = true) :
    isTagLine line = false := by
  rw [isTagLine, beq_iff_eq.mp dotted]
  rfl

/-! ### Reading a line -/

namespace Reading

variable {reading : Reading} {line : Text}

theorem next_of_fenced (inside : isFencedAfter reading.inFence line = true) :
    reading.next line = ⟨reading.record.describe line, true, none⟩ := by
  rw [isFencedAfter, isFence] at inside
  simp only [next, inside, if_pos, Record.describe]

/-- No entry is continued where none is open, or by a line of another form. -/
theorem filter_of_closed (reading : Reading) {line : Text}
    (closed : reading.continuing = none ∨ isContinuation line = false) :
    reading.continuing.filter (fun _ => isContinuation line) = none := by
  rcases closed with nothing | unshaped
  · rw [nothing, Option.filter_none]
  · rw [unshaped, Option.filter_eq_none_iff]
    exact fun _ _ => Bool.false_ne_true

section

variable (outside : isFencedAfter reading.inFence line = false)

include outside

theorem next_of_continues {place : Continuing} (open_ : reading.continuing = some place)
    (shaped : isContinuation line = true) :
    reading.next line = ⟨reading.record.extend (continuation line) place, false, some place⟩ := by
  rw [isFencedAfter, isFence] at outside
  simp only
    [next, outside, Bool.false_eq_true, if_false, open_, Option.filter_some, shaped, if_true,
    continuation]

theorem next_of_isTagLine (tagged : isTagLine line = true) :
    reading.next line = ⟨(tagOf? line).elim reading.record (·.apply reading.record), false,
      (tagOf? line).bind Tag.continuing?⟩ := by
  obtain ⟨rest, trimmed⟩ := exists_of_isTagLine tagged
  have closed := reading.filter_of_closed (Or.inr (isContinuation_of_isTagLine tagged))
  rw [isFencedAfter, isFence] at outside
  rw [tagOf?]
  simp only [next, outside, Bool.false_eq_true, if_false, closed]
  rw [trimmed]
  cases (tagParts? ('@' :: rest)).bind fun parts => Tag.read? parts.1 parts.2 <;> rfl

theorem next_of_isFieldLine (dotted : isFieldLine line = true) :
    reading.next line = ⟨(Tag.field (fieldOfLine line)).apply reading.record, false, none⟩ := by
  obtain ⟨rest, trimmed⟩ := exists_of_isFieldLine dotted
  have closed := reading.filter_of_closed (Or.inr (isContinuation_of_isFieldLine dotted))
  rw [isFencedAfter, isFence] at outside
  rw [fieldOfLine]
  simp only [next, outside, Bool.false_eq_true, if_false, closed]
  rw [trimmed]
  rfl

theorem next_of_closed (closed : reading.continuing = none ∨ isContinuation line = false)
    (untagged : isTagLine line = false) (undotted : isFieldLine line = false) :
    reading.next line = ⟨reading.record.describe line, false, none⟩ := by
  have unfiltered := reading.filter_of_closed closed
  rw [isTagLine, beq_eq_false_iff_ne] at untagged
  rw [isFieldLine, beq_eq_false_iff_ne] at undotted
  rw [isFencedAfter, isFence] at outside
  simp only [next, outside, Bool.false_eq_true, if_false, unfiltered]
  split
  · next trimmed => exact absurd (congrArg List.head? trimmed) untagged
  · next trimmed => exact absurd (congrArg List.head? trimmed) undotted
  · rfl

end

end Reading

/-! ### Tags with the lines that continue them -/

/-- A tag whose entry goes on with further lines. -/
def Tag.continuedBy (more : List Text) : Tag → Tag
  | .param entry => .param { entry with lines := entry.lines ++ more }
  | .returns entry => .returns { entry with lines := entry.lines ++ more }
  | .error entry => .error { entry with lines := entry.lines ++ more }
  | tag => tag

namespace Tag

theorem continuedBy_nil (tag : Tag) : tag.continuedBy [] = tag := by
  cases tag <;> simp only [continuedBy, List.append_nil]

theorem map_continuedBy_nil (tag : Option Tag) : tag.map (continuedBy []) = tag :=
  (congrArg (Option.map · tag) (funext continuedBy_nil)).trans Option.map_id'

theorem continuedBy_continuedBy (tag : Tag) (first second : List Text) :
    (tag.continuedBy first).continuedBy second = tag.continuedBy (first ++ second) := by
  cases tag <;> simp only [continuedBy, List.append_assoc]

theorem continuing?_continuedBy (tag : Tag) (more : List Text) :
    (tag.continuedBy more).continuing? = tag.continuing? := by
  cases tag <;> rfl

/-- No tag looks at the description. -/
theorem apply_withDescription (tag : Tag) (record : Record) (lines : List Text) :
    tag.apply (record.withDescription lines) = (tag.apply record).withDescription lines := by
  cases tag <;> rfl

end Tag

/-- The record that tags make up, applied in order. -/
def applyAll (tags : List Tag) : Record :=
  tags.foldl (fun record tag => tag.apply record) {}

theorem applyAll_concat (tags : List Tag) (tag : Tag) :
    applyAll (tags ++ [tag]) = tag.apply (applyAll tags) := by
  rw [applyAll, List.foldl_append]
  rfl

theorem extendLast_concat (line : Text) (entries : List Entry) (last : Entry) :
    extendLast line (entries ++ [last]) =
      entries ++ [{ last with lines := last.lines ++ [line] }] := by
  induction entries with
  | nil => rfl
  | cons entry rest inductionHypothesis =>
    cases rest with
    | nil => rfl
    | cons next more => exact congrArg (entry :: ·) inductionHypothesis

/-- A line that continues an entry does not look at the description. -/
theorem Record.extend_withDescription (record : Record) (lines : List Text) (line : Text)
    (place : Continuing) :
    (record.withDescription lines).extend line place =
      (record.extend line place).withDescription lines := by
  cases place <;> rfl

/-- A line that continues the entry of the last tag is read with that tag. -/
theorem Record.extend_apply {tag : Tag} {place : Continuing} (opens : tag.continuing? = some place)
    (record : Record) (line : Text) :
    (tag.apply record).extend line place = (tag.continuedBy [line]).apply record := by
  cases tag <;> cases opens <;>
    simp only [Tag.apply, Tag.applyMarks, Record.extend, Tag.continuedBy, extendLast_concat]

end Doc

end LuauReference
