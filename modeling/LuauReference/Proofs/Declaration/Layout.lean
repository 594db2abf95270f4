/-
This file proves that a table type is read back in both of the layouts in which it is written: on
one line, where the list between its braces is split, and with a line for each field, where the
lines are gone through at the depth of braces that the opening line has reached. In the second
layout every field comes with its own line and with the documentation lines in front of it. The
types of fields may have braces of their own, and it is their nesting that keeps the depth from line
to line.
-/

import LuauReference.Declaration.Reader
import LuauReference.Proofs.Comment.Block
import LuauReference.Proofs.Declaration.Line
import LuauReference.Proofs.Declaration.Nesting
import LuauReference.Proofs.Declaration.Table
import LuauReference.Proofs.Doc.Reader
import LuauReference.Proofs.Text.Cut

namespace LuauReference

namespace Declaration

/-! ### Fields as they are written -/

/-- What no type of a field has outside of brackets: commas and semicolons. -/
def fieldMarks : Text := ",;"

/-- Whether a text is written as the type of a field. -/
structure IsFieldType (type : Text) : Prop where
  trimmed : Text.IsTrimmed type
  single : '\n' ∉ type
  unquoted : type.any isQuote = false
  uncommented : ¬ commentMark <:+: type
  nested : IsNested fieldMarks type

/-- A field with the documentation lines in front of it, its indentation and the separator behind
it. -/
structure Written where
  doc : List Text
  indent : Text
  name : Text
  type : Text
  ending : Text

namespace Written

/-- The name and the type of a field. -/
def text (field : Written) : Text :=
  field.name ++ ": ".toList ++ field.type

/-- The line of a field. -/
def line (field : Written) : Text :=
  field.indent ++ field.text ++ field.ending

/-- The lines of a field, its documentation first. -/
def lines (field : Written) : List Text :=
  field.doc ++ [field.line]

/-- Whether a field is written as fields are. -/
structure IsSound (field : Written) : Prop where
  doc : ∀ line ∈ field.doc, Comment.isMarked line = true
  indent : Text.isBlankText field.indent = true
  name : Text.isIdentifier field.name = true
  type : IsFieldType field.type
  ending : field.ending = "," ∨ field.ending = ";" ∨ field.ending = []

/-- The text of the documentation lines in front of a field, without their markers and the
indentation that they share. -/
def description (field : Written) : Option Text :=
  Doc.nonEmpty? (Doc.summarize (Comment.dedent (field.doc.map Comment.stripMarker))).2

end Written

/-- The fields that are read from their lines, of which the first has the given index. -/
def fieldsFrom (index : Nat) : List Written → List TableField
  | [] => []
  | field :: rest =>
    let number := index + field.doc.length + 1
    ⟨field.name, some field.type, field.description, some number⟩ :: fieldsFrom number rest

/-! ### Descriptions -/

/-- Blank lines at the end do not matter to a text whose end is trimmed. -/
theorem trimEnd_join_reverse (body : List Text) :
    Text.trimEnd (Text.join "\n" (Text.dropBlankLines body).reverse) =
      Text.trimEnd (Text.join "\n" body.reverse) := by
  induction body with
  | nil => rfl
  | cons last front inductionHypothesis =>
    cases blank : Text.isBlankText last with
    | false => rw [Text.dropBlankLines, List.dropWhile_cons_of_neg (by simp [blank])]
    | true =>
      rw [Text.dropBlankLines, List.dropWhile_cons_of_pos blank, ← Text.dropBlankLines,
        inductionHypothesis,
        List.reverse_cons]
      by_cases alone : front.reverse = []
      · rw [alone]
        exact (Text.trimEnd_of_isBlankText blank).symm
      · have behind : Text.isBlankText ("\n".toList ++ last) = true := blank
        rw [Text.join_append alone (List.cons_ne_nil _ _), Text.join, List.append_assoc,
          Text.trimEnd_append behind]

/-- A field is described like a symbol: blank lines in front and blanks at the end are left out. -/
theorem fieldDescription?_eq (content : List Text) :
    fieldDescription? (some content) =
      Doc.nonEmpty? (Doc.summarize (Comment.dedent content)).2 := by
  have same := trimEnd_join_reverse (Text.dropBlankLines (Comment.dedent content)).reverse
  rw [List.reverse_reverse] at same
  rw [fieldDescription?, same, Doc.summarize]

/-! ### The text of a field -/

namespace Written

variable {field : Written} (sound : field.IsSound)

include sound

theorem IsSound.isTrimmed_text : Text.IsTrimmed field.text :=
  (Text.isTrimmed_of_isIdentifier sound.name).append sound.type.trimmed ": "

theorem IsSound.isNested_text : IsNested fieldMarks field.text := by
  have name : IsNested fieldMarks field.name := isNested_of_isIdentifier sound.name (by decide)
  exact (name.append (by decide)).append sound.type.nested

/-- The type with the separator behind it is trimmed as well. -/
theorem IsSound.isTrimmed_type : Text.IsTrimmed (field.type ++ field.ending) := by
  have ended {c : Char} (solid : Text.IsTrimmed [c]) : Text.IsTrimmed (field.type ++ [c]) :=
    (List.append_nil field.type) ▸ sound.type.trimmed.append solid []
  rcases sound.ending with same | same | same
  · rw [same]
    exact ended ⟨by decide, by decide⟩
  · rw [same]
    exact ended ⟨by decide, by decide⟩
  · rw [same, List.append_nil]
    exact sound.type.trimmed

theorem IsSound.notMem_type {c : Char} (type : c ∉ field.type) (comma : c ≠ ',')
    (semicolon : c ≠ ';') :
    c ∉ field.type ++ field.ending := by
  rcases sound.ending with same | same | same
  all_goals simp [same, type, comma, semicolon]

/-- A field is read from its text, whatever blanks and separators stand around it. -/
theorem IsSound.fieldParts?_line :
    fieldParts? field.line = some (field.name, field.type ++ field.ending) := by
  have whole : field.line =
      field.indent ++ (field.name ++ ':' :: (' ' :: (field.type ++ field.ending))) := by
    simp [line, text]
  have solid := Text.isTrimmed_of_isIdentifier sound.name
  have typed : Text.trimStart (' ' :: (field.type ++ field.ending)) =
      field.type ++ field.ending := by
    have kept := sound.isTrimmed_type.trimStart_append []
    rw [List.append_nil] at kept
    exact kept
  have single : Text.restOfLine? (field.type ++ field.ending) =
      some (field.type ++ field.ending) := by
    have missing := sound.notMem_type sound.type.single (by decide) (by decide)
    have other : ∀ c ∈ field.type ++ field.ending, (c != '\n') = true := fun c member =>
      bne_iff_ne.mpr fun same => missing (same ▸ member)
    rw [Text.restOfLine?, List.takeWhile_eq_self_iff.mpr other, List.dropWhile_eq_nil_iff.mpr other]
  have behind : Text.after? ":" (Text.trimStart (':' :: (' ' :: (field.type ++ field.ending)))) =
      some (' ' :: (field.type ++ field.ending)) := Text.after?_eq_some_iff.mpr rfl
  rw [fieldParts?, whole, Text.trimStart_append sound.indent, solid.trimStart_append,
    Text.identifier?_append sound.name rfl]
  simp only
    [Option.bind_eq_bind, Option.bind_some, behind, typed, single, sound.isTrimmed_type.trimmed,
    Option.pure_def]

/-- The text of a field is read like a line that has nothing else. -/
theorem IsSound.fieldParts?_text : fieldParts? field.text = some (field.name, field.type) := by
  have alone : ({ field with indent := [], ending := [] } : Written).IsSound :=
    ⟨sound.doc, rfl, sound.name, sound.type, Or.inr (Or.inr rfl)⟩
  have parts := alone.fieldParts?_line
  rw [line, List.nil_append, List.append_nil, List.append_nil] at parts
  exact parts

/-- The text of a field is code, unless a hyphen follows that would make a comment with it. -/
theorem IsSound.dropComment_text {rest : Text} (apart : rest.head? ≠ some '-') :
    dropComment none (field.text ++ rest) = field.text ++ dropComment none rest := by
  have colon : ": ".toList.all isOrdinary = true := by decide
  simp only [text, List.append_assoc]
  rw [dropComment_append_of_ordinary (all_isOrdinary_of_isIdentifier sound.name),
    dropComment_append_of_ordinary colon,
    dropComment_append sound.type.unquoted sound.type.uncommented (Or.inr apart)]

/-- The line of a field is code as a whole. -/
theorem IsSound.codeOf_line : codeOf field.line = field.line := by
  have ending : field.ending.head? ≠ some '-' ∧ dropComment none field.ending = field.ending := by
    rcases sound.ending with same | same | same
    all_goals
      rw [same]
      decide
  have whole : field.line = field.indent ++ (field.text ++ field.ending) := List.append_assoc _ _ _
  rw [codeOf, whole, dropComment_append_of_ordinary (all_isOrdinary_of_isBlankText sound.indent),
    sound.dropComment_text ending.1, ending.2]

/-- The line of a field leaves the depth of braces as it is. -/
theorem IsSound.braceBalance_line : braceBalance field.line = 0 := by
  have ending : braceBalance field.ending = 0 := by
    rcases sound.ending with same | same | same
    all_goals
      rw [same]
      decide
  rw [line, braceBalance_append, braceBalance_append, braceBalance_of_isBlankText sound.indent,
    braceBalance_of_isNested sound.isNested_text, ending]
  rfl

/-- The separator is taken from the end of the type, and nothing else is. -/
theorem IsSound.trimType_type : trimType false (field.type ++ field.ending) = field.type := by
  have kept : Text.dropEndWhile (fun c => c == ',' || c == ';') field.type = field.type := by
    obtain ⟨front, last, whole⟩ :=
      (List.eq_nil_or_concat' field.type).resolve_left sound.type.trimmed.present
    have other : last ≠ ',' ∧ last ≠ ';' := by
      have nested := sound.type.nested
      rw [whole] at nested
      constructor
      · rintro rfl
        exact nested.last_notMem rfl (by decide)
      · rintro rfl
        exact nested.last_notMem rfl (by decide)
    rw [whole, Text.dropEndWhile, List.reverse_append, List.reverse_singleton,
      List.singleton_append,
      List.dropWhile_cons_of_neg (by simp [other]), List.reverse_cons, List.reverse_reverse]
  have dropped : Text.dropEndWhile (fun c => c == ',' || c == ';') (field.type ++ field.ending) =
      Text.dropEndWhile (fun c => c == ',' || c == ';') field.type := by
    rcases sound.ending with same | same | same
    · rw [same, Text.dropEndWhile, List.reverse_append]
      rfl
    · rw [same, Text.dropEndWhile, List.reverse_append]
      rfl
    · rw [same, List.append_nil]
  rw [trimType, if_neg Bool.false_ne_true, sound.isTrimmed_type.trimmed, dropped, kept,
    sound.type.trimmed.trimmed]

end Written

/-! ### Lines of a table -/

/-- Whether a line is neither a comment nor the beginning of one. -/
structure IsCode (line : Text) : Prop where
  unmarked : Comment.isMarked line = false
  noBlock : ∀ rest, Comment.blockAt? line rest = none
  noComment : (Text.trim line).startsWith "--" = false

/-- A line that begins with anything but a hyphen is code. -/
theorem isCode_of_trimStart {line : Text} {c : Char} {tail : Text}
    (begins : Text.trimStart line = c :: tail)
    (other : c ≠ '-') : IsCode line := by
  have unlike (mark : Text) : (Text.trimStart line).startsWith ('-' :: mark) = false := by
    rw [begins, Text.startsWith, Text.after?, if_neg (Ne.symm other)]
    rfl
  have unmarked : Comment.isMarked line = false := unlike "--"
  have unopened : (Text.trimStart line).startsWith Comment.opener = false := unlike "-[=["
  refine ⟨unmarked, fun rest => ?_, (Text.startsWith_trim (by decide) line).trans (unlike "-")⟩
  rw [Comment.blockAt?, unmarked, if_neg Bool.false_ne_true, unopened, if_neg Bool.false_ne_true]

/-- A run of documentation lines is one block up to the line of code behind it. -/
theorem blockAt?_run {line next : Text} {run : List Text}
    (marked : ∀ other ∈ line :: run, Comment.isMarked other = true)
    (ends : Comment.isMarked next = false)
    (rest : List Text) :
    Comment.blockAt? line (run ++ next :: rest) =
      some ((line :: run).map Comment.stripMarker, run.length) := by
  obtain ⟨first, others⟩ := List.forall_mem_cons.mp marked
  have taken : Comment.lineRun (run ++ next :: rest) = run.map Comment.stripMarker := by
    rw [Comment.lineRun, List.takeWhile_append_of_pos others,
      List.takeWhile_cons_of_neg (by rw [ends]; exact Bool.false_ne_true), List.append_nil]
  rw [Comment.blockAt?, if_pos first, taken, List.length_map, List.map_cons]

theorem Written.IsSound.isCode {field : Written} (sound : field.IsSound) : IsCode field.line := by
  obtain ⟨c, rest, same, begins⟩ := Text.exists_cons_of_isIdentifier sound.name
  have whole : Text.trimStart field.line =
      c :: (rest ++ (": ".toList ++ field.type ++ field.ending)) := by
    have solid := Text.isTrimmed_of_isIdentifier sound.name
    have parts : field.line =
        field.indent ++ (field.name ++ (": ".toList ++ field.type ++ field.ending)) := by
      simp [Written.line, Written.text]
    rw [parts, Text.trimStart_append sound.indent, solid.trimStart_append, same, List.cons_append]
  refine isCode_of_trimStart whole ?_
  rintro rfl
  cases begins

/-- The documentation in front of a field waits for it. -/
theorem tableBody_doc (index : Nat) {field : Written} (sound : field.IsSound) (rest : List Text) :
    ∃ waiting, fieldDescription? waiting = field.description ∧
      tableBody index 1 none (field.doc ++ field.line :: rest) =
        tableBody (index + field.doc.length) 1 waiting (field.line :: rest) := by
  cases run : field.doc with
  | nil =>
    refine ⟨none, ?_, rfl⟩
    rw [Written.description, run]
    rfl
  | cons first others =>
    have marked : ∀ line ∈ first :: others, Comment.isMarked line = true := run ▸ sound.doc
    refine ⟨some ((first :: others).map Comment.stripMarker), ?_, ?_⟩
    · rw [fieldDescription?_eq, Written.description, run]
    · rw [List.cons_append, tableBody_of_block (blockAt?_run marked sound.isCode.unmarked rest),
        List.drop_left, List.length_cons, Nat.add_assoc]

/-- The line of a field gives the field, and the depth is the same behind it. -/
theorem tableBody_line (index : Nat) (waiting : Option (List Text)) {field : Written}
    (sound : field.IsSound)
    (rest : List Text) :
    tableBody index 1 waiting (field.line :: rest) =
      let later := tableBody (index + 1) 1 none rest
      (⟨field.name, some field.type, fieldDescription? waiting, some (index + 1)⟩ :: later.1,
        later.2) := by
  have typed : Doc.nonEmpty? (trimType false (field.type ++ field.ending)) = some field.type := by
    rw [sound.trimType_type, Doc.nonEmpty?_of_ne_nil sound.type.trimmed.present]
  have parts : (if (1 : Int) == 1 then fieldParts? (codeOf field.line) else none) =
      some (field.name, field.type ++ field.ending) := by
    rw [sound.codeOf_line]
    exact sound.fieldParts?_line
  have whole : wholeType (field.type ++ field.ending) (1 + braceBalance (codeOf field.line)) rest =
      (field.type ++ field.ending, 1, 0) := by
    rw [sound.codeOf_line, sound.braceBalance_line, Int.add_zero, wholeType_of_le _ (Int.le_refl 1)]
  rw [tableBody_of_field (sound.isCode.noBlock rest)
    (Bool.eq_false_iff.mp sound.isCode.noComment) parts
    whole (by decide), show decide ((1 : Int) ≤ 0) = false by decide, typed]
  rfl

/-- The brace that closes a table ends it. -/
theorem tableBody_closing (index : Nat) {pad : Text} (blank : Text.isBlankText pad = true)
    (after : List Text) : tableBody index 1 none ((pad ++ ['\x7d']) :: after) = ([], index) := by
  have begins : Text.trimStart (pad ++ ['\x7d']) = ['\x7d'] := Text.trimStart_append blank _
  have closing := isCode_of_trimStart begins (by decide)
  have code : codeOf (pad ++ ['\x7d']) = pad ++ ['\x7d'] :=
    dropComment_append_of_ordinary (all_isOrdinary_of_isBlankText blank) _
  have noField : (if (1 : Int) == 1 then fieldParts? (codeOf (pad ++ ['\x7d'])) else none) =
      none := by
    rw [code, if_pos (by decide), fieldParts?, begins]
    rfl
  have balance : (1 : Int) + braceBalance (codeOf (pad ++ ['\x7d'])) = 0 := by
    rw [code, braceBalance_append, braceBalance_of_isBlankText blank]
    rfl
  exact tableBody_of_end (closing.noBlock after) (Bool.eq_false_iff.mp closing.noComment) noField
    (Int.le_of_eq balance)

/-- The lines of the fields are read one field after the other, up to the brace that closes the
table. -/
theorem tableBody_lines (index : Nat) {fields : List Written}
    (sound : ∀ field ∈ fields, field.IsSound)
    {pad : Text} (blank : Text.isBlankText pad = true) (after : List Text) :
    tableBody index 1 none (fields.flatMap Written.lines ++ (pad ++ ['\x7d']) :: after) =
      (fieldsFrom index fields, index + (fields.flatMap Written.lines).length) := by
  induction fields generalizing index with
  | nil => exact tableBody_closing index blank after
  | cons field rest inductionHypothesis =>
    obtain ⟨first, others⟩ := List.forall_mem_cons.mp sound
    have whole : (field :: rest).flatMap Written.lines ++ (pad ++ ['\x7d']) :: after =
        field.doc ++ field.line :: (rest.flatMap Written.lines ++ (pad ++ ['\x7d']) :: after) := by
      simp [Written.lines]
    obtain ⟨waiting, described, behind⟩ := tableBody_doc index first
      (rest.flatMap Written.lines ++ (pad ++ ['\x7d']) :: after)
    rw [whole, behind, tableBody_line _ waiting first, inductionHypothesis _ others, described]
    simp only
      [fieldsFrom, List.flatMap_cons, Written.lines, List.length_append, List.length_singleton,
      Nat.add_assoc]

/-! ### The opening line -/

/-- The line on which a table type opens, up to its brace. -/
def opening (name : Text) : Text :=
  "type ".toList ++ name ++ " = ".toList

section

variable {name : Text} (identifier : Text.isIdentifier name = true)

include identifier

/-- A table type is not taken for a function. -/
theorem signature_opening {head : Text}
    (trimmed : Text.trimEnd (opening name ++ head) = opening name ++ head) :
    signature (opening name ++ head) = none := by
  have whole : Text.trim (opening name ++ head) = opening name ++ head := trimmed
  have noKeyword : keywordHead? (opening name ++ head) = none := rfl
  have noValue : assignedHead? (opening name ++ head) = none := by
    obtain ⟨c, rest, rfl, begins⟩ := Text.exists_cons_of_isIdentifier identifier
    have path : Text.run? Text.isWordStart isDottedChar (opening (c :: rest) ++ head) =
        some ("type".toList, ' ' :: (c :: rest ++ (" = ".toList ++ head))) := by
      rw [← List.append_assoc]
      rfl
    have solid := Text.isTrimmed_of_isIdentifier identifier
    have behind : Text.trimStart (' ' :: (c :: rest ++ (" = ".toList ++ head))) =
        c :: (rest ++ (" = ".toList ++ head)) := solid.trimStart_append _
    have other : '=' ≠ c := by
      rintro rfl
      cases begins
    have unassigned : Text.after? "=" (c :: (rest ++ (" = ".toList ++ head))) = none := if_neg other
    simp only [assignedHead?, path, behind, unassigned, Option.bind_eq_bind, Option.bind_some,
      Option.bind_none]
  rw [signature, whole, noKeyword, noValue]

theorem tableHead?_opening (head : Text) :
    tableHead? (opening name ++ '\x7b' :: head) = some name := by
  have solid := Text.isTrimmed_of_isIdentifier identifier
  let tail : Text := ' ' :: '=' :: ' ' :: '\x7b' :: head
  have whole : opening name ++ '\x7b' :: head = "type".toList ++ ' ' :: (name ++ tail) :=
    (List.append_assoc ("type ".toList ++ name) _ _).trans (List.append_assoc "type ".toList _ _)
  have unexported : skipKeyword "export" (Text.trimStart ("type".toList ++ ' ' :: (name ++ tail))) =
      "type".toList ++ ' ' :: (name ++ tail) := rfl
  have named : Text.identifier? (name ++ tail) = some (name, tail) :=
    Text.identifier?_append identifier rfl _
  rw [tableHead?, whole, unexported, afterKeyword?_append "type" solid, Option.bind_eq_bind,
    Option.bind_some,
    named]
  rfl

/-- The declaration on the opening line is the table type with what its table has. -/
theorem declarationAt?_opening {head : Text} {index last : Nat} {rest : List Text}
    {fields : List TableField}
    (code : codeOf (opening name ++ '\x7b' :: head) = opening name ++ '\x7b' :: head)
    (trimmed : Text.trimEnd (opening name ++ '\x7b' :: head) = opening name ++ '\x7b' :: head)
    (read : table index (opening name ++ '\x7b' :: head) rest = (fields, last)) :
    declarationAt? index (opening name ++ '\x7b' :: head) rest =
      some ⟨.type name fields (last + 1), index + 1, opening name ++ '\x7b' :: head⟩ := by
  rw [declarationAt?, shapeAt?, code, trimmed]
  dsimp only
  rw [signature_opening identifier trimmed]
  dsimp only
  rw [tableHead?_opening identifier]
  dsimp only
  rw [read]
  rfl

theorem all_isOrdinary_opening : (opening name).all isOrdinary = true := by
  have words : ("type ".toList).all isOrdinary = true ∧
      (" = ".toList).all isOrdinary = true := by decide
  change ("type ".toList ++ name ++ " = ".toList).all isOrdinary = true
  rw [List.all_append, List.all_append, words.1, words.2, all_isOrdinary_of_isIdentifier identifier]
  rfl

theorem codeOf_header : codeOf (opening name ++ ['\x7b']) = opening name ++ ['\x7b'] :=
  dropComment_append_of_ordinary (all_isOrdinary_opening identifier) _

/-- The brace behind the opening is the first one on its line. -/
theorem cut?_opening (head : Text) :
    Text.cut? "\x7b" (opening name ++ '\x7b' :: head) = some (opening name, head) := by
  refine Text.cut?_append_cons (fun member => ?_) head
  have keyword : '\x7b' ∉ "type ".toList ∧ '\x7b' ∉ " = ".toList := by decide
  rcases List.mem_append.mp member with inside | inside
  · rcases List.mem_append.mp inside with inside | inside
    · exact keyword.1 inside
    · exact Text.notMem_of_isIdentifier identifier rfl inside
  · exact keyword.2 inside

end

/-! ### The two layouts -/

/-- The list between the braces of a table type on one line. -/
def inlineList (fields : List Written) : Text :=
  [' '] ++ Text.join ", " (fields.map Written.text) ++ [' ']

/-- A table type on one line. -/
def inlineTable (name : Text) (fields : List Written) : Text :=
  opening name ++ '\x7b' :: (inlineList fields ++ ['\x7d'])

/-- A table type with a line for each field, behind the documentation of the field. -/
def linedTable (name : Text) (fields : List Written) (pad : Text) : List Text :=
  (opening name ++ ['\x7b']) :: (fields.flatMap Written.lines ++ [pad ++ ['\x7d']])

section

variable {fields : List Written} (sound : ∀ field ∈ fields, field.IsSound)

include sound

theorem dropComment_join {tail : Text} (apart : tail.head? ≠ some '-') :
    dropComment none (Text.join ", " (fields.map Written.text) ++ tail) =
      Text.join ", " (fields.map Written.text) ++ dropComment none tail := by
  induction fields with
  | nil => rfl
  | cons field rest inductionHypothesis =>
    obtain ⟨first, others⟩ := List.forall_mem_cons.mp sound
    cases rest with
    | nil => exact first.dropComment_text apart
    | cons second rest =>
      have comma : ", ".toList.all isOrdinary = true := by decide
      have behind := inductionHypothesis others
      simp only [List.map_cons, Text.join, List.append_assoc] at behind ⊢
      rw [first.dropComment_text (by simp), dropComment_append_of_ordinary comma, behind]

theorem isNested_inlineList : IsNested [] (inlineList fields) := by
  have parts : IsNested [] (Text.join ", " (fields.map Written.text)) := by
    refine isNested_join (by decide) fun part member => ?_
    obtain ⟨field, inside, rfl⟩ := List.mem_map.mp member
    exact (sound field inside).isNested_text.mono rfl
  exact (IsNested.append (by decide) parts).append (by decide)

/-- The list between the braces is split into its fields. -/
theorem inlineFields_inlineList (number : Nat) :
    inlineFields number (inlineList fields) =
      fields.map fun field => ⟨field.name, some field.type, none, some number⟩ := by
  have listed : ',' ∈ fieldMarks := by decide
  have space : Text.isBlankText [' '] = true := rfl
  have parts : ∀ part ∈ fields.map Written.text, Text.IsTrimmed part ∧
      IsNested fieldMarks part := by
    intro part member
    obtain ⟨field, inside, rfl⟩ := List.mem_map.mp member
    exact ⟨(sound field inside).isTrimmed_text, (sound field inside).isNested_text⟩
  have split : splitTopLevel fieldMarks (inlineList fields) = fields.map Written.text :=
    splitTopLevel_join (by decide) listed space space space parts
  have each : ∀ field ∈ fields, ((fieldParts? field.text).map fun parts =>
      (⟨parts.1, Doc.nonEmpty? parts.2, none, some number⟩ : TableField)) =
        some ⟨field.name, some field.type, none, some number⟩ := fun field member => by
    rw [(sound field member).fieldParts?_text, Option.map_some,
      Doc.nonEmpty?_of_ne_nil (sound field member).type.trimmed.present]
  show (splitTopLevel fieldMarks _).filterMap _ = _
  rw [split, List.filterMap_map]
  exact List.filterMap_eq_map_iff_forall_eq_some.mpr each

variable {name : Text} (identifier : Text.isIdentifier name = true)

include identifier

/-- A table type on one line is code as a whole. -/
theorem codeOf_inlineTable : codeOf (inlineTable name fields) = inlineTable name fields := by
  have brace : "\x7b ".toList.all isOrdinary = true := by decide
  have whole : inlineTable name fields = opening name ++ ("\x7b ".toList ++
      (Text.join ", " (fields.map Written.text) ++ " \x7d".toList)) := by
    simp [inlineTable, inlineList]
  rw [codeOf, whole, dropComment_append_of_ordinary (all_isOrdinary_opening identifier),
    dropComment_append_of_ordinary brace, dropComment_join sound (by decide)]
  rfl

/-- A table type on one line has its fields and ends there. -/
theorem table_inlineTable (index : Nat) (rest : List Text) :
    table index (inlineTable name fields) rest =
      (fields.map fun field => ⟨field.name, some field.type, none, some (index + 1)⟩, index) := by
  have balance : (1 : Int) + braceBalance (inlineList fields ++ ['\x7d']) = 0 := by
    rw [braceBalance_append, braceBalance_of_isNested (isNested_inlineList sound)]
    rfl
  have list : beforeLastBrace (inlineList fields ++ ['\x7d']) = inlineList fields := by
    rw [beforeLastBrace, Text.cutLast?_append_cons List.not_mem_nil]
  rw [table, codeOf_inlineTable sound identifier, inlineTable, cut?_opening identifier]
  dsimp only
  rw [balance, if_pos (Int.le_refl 0), list, inlineFields_inlineList sound]

/-- A table type with lines for its fields has them, and ends with its last line. -/
theorem table_linedTable (index : Nat) {pad : Text} (blank : Text.isBlankText pad = true)
    (after : List Text) :
    table index (opening name ++ ['\x7b'])
        (fields.flatMap Written.lines ++ (pad ++ ['\x7d']) :: after) =
      (fieldsFrom (index + 1) fields, index + 1 + (fields.flatMap Written.lines).length) := by
  rw [table, codeOf_header identifier, cut?_opening identifier []]
  exact tableBody_lines (index + 1) sound blank after

end

/-- What is read at an index is what is read at the line that stands there. -/
theorem atIndex_append (before : List Text) (line : Text) (rest : List Text) :
    atIndex (before ++ line :: rest) before.length =
      .ok (declarationAt? before.length line rest) := by
  rw [atIndex, Comment.linesAt_of_drop List.drop_left]
  rfl

/-- A table type is read back in either layout, wherever it stands in a file: with the same fields
on one line, and with a line for each field, where a field has the number of its line and the text
of the documentation in front of it, and the last line of the table is that of the closing brace. -/
theorem table_read_in_both_layouts {name : Text} (identifier : Text.isIdentifier name = true)
    {fields : List Written} (sound : ∀ field ∈ fields, field.IsSound) {pad : Text}
    (blank : Text.isBlankText pad = true) (before after : List Text) :
    let number := before.length + 1
    atIndex (before ++ inlineTable name fields :: after) before.length =
        .ok (some ⟨.type name
          (fields.map fun field => ⟨field.name, some field.type, none, some number⟩) number,
          number, inlineTable name fields⟩) ∧
      atIndex (before ++ (linedTable name fields pad ++ after)) before.length =
        .ok (some
          ⟨.type name (fieldsFrom number fields)
            (before.length + (linedTable name fields pad).length),
          number, opening name ++ ['\x7b']⟩) := by
  intro number
  constructor
  · have trimmed : Text.trimEnd (inlineTable name fields) = inlineTable name fields := by
      have whole : inlineTable name fields = (opening name ++ '\x7b' :: inlineList fields) ++
          ['\x7d'] := by
        simp [inlineTable]
      rw [whole]
      exact Text.trimEnd_append_cons (by decide) _ []
    rw [atIndex_append]
    exact congrArg Except.ok
      (declarationAt?_opening identifier (codeOf_inlineTable sound identifier) trimmed
      (table_inlineTable sound identifier before.length after))
  · have trimmed : Text.trimEnd (opening name ++ ['\x7b']) = opening name ++ ['\x7b'] :=
      Text.trimEnd_append_cons (by decide) _ []
    have lines : linedTable name fields pad ++ after = (opening name ++ ['\x7b']) ::
        (fields.flatMap Written.lines ++ (pad ++ ['\x7d']) :: after) := by
      simp [linedTable]
    have last : before.length + (linedTable name fields pad).length =
        before.length + 1 + (fields.flatMap Written.lines).length + 1 := by
      simp only [linedTable, List.length_cons, List.length_append, List.length_nil]
      omega
    rw [lines, atIndex_append, last]
    exact congrArg Except.ok (declarationAt?_opening identifier (codeOf_header identifier) trimmed
      (table_linedTable sound identifier before.length blank after))

/-- A field with documentation and braces in its type, and one with neither. -/
def gateFields : List Written :=
  [⟨["  --- What opens it:", "  ---   a key"], "  ", "open",
      "(\x7b [string]: Part, n: number \x7d) -> ()", ","⟩,
    ⟨[], "\t", "width", "number", []⟩]

theorem table_read_in_both_layouts_gate :
    atIndex ("local Gate".toList :: inlineTable "Gate" gateFields :: ["return Gate".toList]) 1 =
        .ok (some ⟨.type "Gate"
          [⟨"open", some "(\x7b [string]: Part, n: number \x7d) -> ()".toList, none, some 2⟩,
            ⟨"width", some "number".toList, none, some 2⟩] 2,
          2, inlineTable "Gate" gateFields⟩) ∧
      atIndex
          ("local Gate".toList :: (linedTable "Gate" gateFields [] ++ ["return Gate".toList])) 1 =
        .ok (some ⟨.type "Gate"
          [⟨"open", some "(\x7b [string]: Part, n: number \x7d) -> ()".toList,
              some "What opens it:\n  a key".toList, some 5⟩,
            ⟨"width", some "number".toList, none, some 6⟩] 7,
          2, opening "Gate" ++ ['\x7b']⟩) := by
  have sound : ∀ field ∈ gateFields, field.IsSound := by
    intro field member
    simp only [gateFields, List.mem_cons, List.not_mem_nil, or_false] at member
    rcases member with rfl | rfl
    · exact ⟨by decide, rfl, by decide, ⟨⟨by decide, by decide⟩, by decide, by decide,
        Text.not_isInfix_of_cut? rfl, by decide⟩, Or.inl rfl⟩
    · exact ⟨by decide, rfl, by decide, ⟨⟨by decide, by decide⟩, by decide, by decide,
        Text.not_isInfix_of_cut? rfl, by decide⟩, Or.inr (Or.inr rfl)⟩
  have identifier : Text.isIdentifier "Gate" = true := by decide
  have blank : Text.isBlankText [] = true := rfl
  have lined : fieldsFrom 2 gateFields =
      [⟨"open", some "(\x7b [string]: Part, n: number \x7d) -> ()".toList,
          some "What opens it:\n  a key".toList, some 5⟩,
        ⟨"width", some "number".toList, none, some 6⟩] := by decide
  rw [← lined]
  exact table_read_in_both_layouts identifier sound blank ["local Gate".toList]
    ["return Gate".toList]

end Declaration

end LuauReference
