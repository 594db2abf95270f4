/-
This file proves that it does not matter in which of the two styles a documentation comment is
written, and how far it is indented. Behind three hyphens the lines are read as they are; inside of
a long comment they come with an indentation of their own, which is taken away again because they
share it, and with the indentation of the closer as one more line. That line is blank, and blank
lines at the end of a block only lengthen a description whose end is trimmed.
-/

import LuauReference.Proofs.Comment.Scan
import LuauReference.Proofs.Doc.Line
import LuauReference.Proofs.Text.Pieces

namespace LuauReference

/-! ### Blocks of one comment -/

namespace Text

theorem cut?_mark_append (mark rest : Text) : cut? mark (mark ++ rest) = some ([], rest) := by
  cases mark with
  | nil => cases rest <;> rfl
  | cons first mark => rw [List.cons_append, cut?, ← List.cons_append, after?_eq_some_iff.mpr rfl]

/-- A mark is found behind a text without its first character. -/
theorem cut?_front_mark {first : Char} {front : Text} (missing : first ∉ front) (mark rest : Text) :
    cut? (first :: mark) (front ++ (first :: mark ++ rest)) = some (front, rest) := by
  rw [cut?_append missing, cut?_mark_append, Option.map_some, List.append_nil]

end Text

namespace Comment

section

variable {indent : Text} (drawn : ∀ c ∈ indent, c = ' ' ∨ c = '\t')

include drawn

theorem trimStart_indented {mark : Text} (solid : mark.head?.all (!Text.isBlank ·) = true) :
    Text.trimStart (indent ++ mark) = mark := by
  rw [Text.trimStart_append (Text.isBlankText_of_isIndent drawn)]
  cases mark with
  | nil => rfl
  | cons c rest => exact List.dropWhile_cons_of_neg (by simpa using solid)

theorem isMarked_indented (line : Text) :
    isMarked (indent ++ (lineMarker ++ ' ' :: line)) = true := by
  rw [isMarked, trimStart_indented drawn rfl]
  rfl

theorem stripMarker_indented (line : Text) :
    stripMarker (indent ++ (lineMarker ++ ' ' :: line)) = line := by
  have behind : Text.after? lineMarker (lineMarker ++ ' ' :: line) = some (' ' :: line) :=
    Text.after?_eq_some_iff.mpr rfl
  rw [stripMarker, trimStart_indented drawn rfl, behind]
  rfl

theorem notMem_of_isIndent {c : Char} (noSpace : c ≠ ' ') (noTab : c ≠ '\t') : c ∉ indent :=
  fun member => (drawn c member).elim noSpace noTab

end

theorem blocks_of_blockAt? {line : Text} {rest content : List Text}
    (found : blockAt? line rest = some (content, rest.length)) :
    blocks (line :: rest) = [⟨1, 1 + rest.length, content⟩] := by
  rw [blocks, blocksFrom, found]
  dsimp only
  rw [List.drop_length, blocksFrom]

/-- Lines behind three hyphens and a space are one block, which holds them as they are. -/
theorem blocks_marked {indent : Text} (drawn : ∀ c ∈ indent, c = ' ' ∨ c = '\t') {body : List Text}
    (present : body ≠ []) :
    blocks (body.map fun line => indent ++ (lineMarker ++ ' ' :: line)) =
      [⟨1, body.length, body⟩] := by
  obtain ⟨line, rest, rfl⟩ := List.exists_cons_of_ne_nil present
  have run : lineRun (rest.map fun line => indent ++ (lineMarker ++ ' ' :: line)) = rest := by
    have whole := List.takeWhile_eq_self_iff.mpr fun other
        (member : other ∈ rest.map fun line => indent ++ (lineMarker ++ ' ' :: line)) =>
      show isMarked other = true by
        obtain ⟨line, -, rfl⟩ := List.mem_map.mp member
        exact isMarked_indented drawn line
    rw [lineRun, whole, List.map_map]
    exact (List.map_congr_left fun line _ => stripMarker_indented drawn line).trans
      (List.map_id rest)
  have found : blockAt? (indent ++ (lineMarker ++ ' ' :: line))
      (rest.map fun line => indent ++ (lineMarker ++ ' ' :: line)) =
        some (line :: rest,
          (rest.map fun line => indent ++ (lineMarker ++ ' ' :: line)).length) := by
    rw [blockAt?, if_pos (isMarked_indented drawn line), stripMarker_indented drawn, run,
      List.length_map]
  rw [List.map_cons, blocks_of_blockAt? found, List.length_map, List.length_cons, Nat.add_comm]

/-- Lines without a closer are held as they are, up to the line that closes the comment. -/
theorem longRest_append {interior : List Text}
    (open_ : ∀ line ∈ interior, Text.cut? closer line = none)
    {last before after : Text} (closes : Text.cut? closer last = some (before, after)) :
    longRest (interior ++ [last]) =
      ⟨interior ++ unlessEmpty before, interior.length + 1, true⟩ := by
  induction interior with
  | nil =>
    rw [List.nil_append, longRest, closes]
    rfl
  | cons line interior inductionHypothesis =>
    obtain ⟨here, later⟩ := List.forall_mem_cons.mp open_
    rw [List.cons_append, longRest, here, inductionHypothesis later]
    rfl

/-- Lines without a closer between the two ends of a long comment are one block. The indentation of
the closer is its last line. -/
theorem blocks_bracketed {indent : Text} (drawn : ∀ c ∈ indent, c = ' ' ∨ c = '\t')
    {interior : List Text} (open_ : ∀ line ∈ interior, Text.cut? closer line = none) :
    blocks ((indent ++ opener) :: (interior ++ [indent ++ closer])) =
      [⟨1, interior.length + 2, interior ++ unlessEmpty indent⟩] := by
  have dash : '-' ≠ ' ' ∧ '-' ≠ '\t' := by decide
  have bracket : ']' ≠ ' ' ∧ ']' ≠ '\t' := by decide
  have opens : Text.cut? opener (indent ++ opener) = some (indent, []) := by
    have cut := Text.cut?_front_mark (notMem_of_isIndent drawn dash.1 dash.2) "-[=[" []
    rwa [List.append_nil] at cut
  have closes : Text.cut? closer (indent ++ closer) = some (indent, []) := by
    have cut := Text.cut?_front_mark (notMem_of_isIndent drawn bracket.1 bracket.2) "=]" []
    rwa [List.append_nil] at cut
  have unmarked : isMarked (indent ++ opener) = false := by
    rw [isMarked, trimStart_indented drawn rfl]
    rfl
  have begins : (Text.trimStart (indent ++ opener)).startsWith opener = true := by
    rw [trimStart_indented drawn rfl]
    rfl
  have found : blockAt? (indent ++ opener) (interior ++ [indent ++ closer]) =
      some (interior ++ unlessEmpty indent, (interior ++ [indent ++ closer]).length) := by
    have body : longBody? (indent ++ opener) (interior ++ [indent ++ closer]) =
        some ⟨interior ++ unlessEmpty indent, interior.length + 1 + 1, true⟩ := by
      rw [longBody?, opens]
      dsimp only
      rw [Text.cut?_of_not_isInfix (by decide), longRest_append open_ closes]
      rfl
    rw [blockAt?, unmarked, if_neg Bool.false_ne_true, if_pos begins, body, List.length_append]
    rfl
  rw [blocks_of_blockAt? found, List.length_append, List.length_singleton, Nat.add_comm]

end Comment

namespace Doc

/-! ### Records that say the same -/

/-- What an entry says: its name, its type and its description. -/
def Entry.told (entry : Entry) : Option Text × Option Text × Option Text :=
  (entry.name, entry.type, entry.description)

/-- Whether two records say the same. They may differ in how their descriptions are cut into
lines. -/
structure Record.SaysSame (first second : Record) : Prop where
  declared : first.declared = second.declared
  fields : first.fields = second.fields
  labels : first.labels = second.labels
  realms : first.realms = second.realms
  externals : first.externals = second.externals
  marks : first.marks = second.marks
  params : first.params.map Entry.told = second.params.map Entry.told
  returns : first.returns.map Entry.told = second.returns.map Entry.told
  errors : first.errors.map Entry.told = second.errors.map Entry.told
  description : summarize first.description = summarize second.description

namespace Record.SaysSame

variable {first second third : Record}

theorem refl (record : Record) : record.SaysSame record :=
  ⟨rfl, rfl, rfl, rfl, rfl, rfl, rfl, rfl, rfl, rfl⟩

theorem symm (same : first.SaysSame second) : second.SaysSame first :=
  ⟨same.declared.symm, same.fields.symm, same.labels.symm, same.realms.symm, same.externals.symm,
    same.marks.symm, same.params.symm, same.returns.symm, same.errors.symm, same.description.symm⟩

theorem trans (same : first.SaysSame second) (again : second.SaysSame third) :
    first.SaysSame third :=
  ⟨same.declared.trans again.declared, same.fields.trans again.fields,
    same.labels.trans again.labels,
    same.realms.trans again.realms, same.externals.trans again.externals,
    same.marks.trans again.marks, same.params.trans again.params, same.returns.trans again.returns,
    same.errors.trans again.errors, same.description.trans again.description⟩

end Record.SaysSame

/-! ### Blank lines at the end -/

/-- An empty line behind others adds a line feed at most. -/
theorem exists_join_concat_nil (lines : List Text) : ∃ blanks, Text.isBlankText blanks = true ∧
    Text.join "\n" (lines ++ [[]]) = Text.join "\n" lines ++ blanks := by
  by_cases nothing : lines = []
  · exact ⟨[], rfl, by rw [nothing]; rfl⟩
  · refine ⟨"\n", by decide, ?_⟩
    rw [Text.join_append nothing (List.cons_ne_nil _ _), Text.join, List.append_nil]

theorem description_concat_nil (entry : Entry) :
    ({ entry with lines := entry.lines ++ [[]] } : Entry).description = entry.description := by
  obtain ⟨blanks, blank, joined⟩ := exists_join_concat_nil entry.lines
  rw [Entry.description, Entry.description, joined, Text.trim_append_right blank]

theorem told_extendLast_nil (entries : List Entry) :
    (extendLast [] entries).map Entry.told = entries.map Entry.told := by
  fun_induction extendLast [] entries with
  | case1 => rfl
  | case2 last =>
    rw [List.map_singleton, List.map_singleton, Entry.told, description_concat_nil]; rfl
  | case3 entry next more inductionHypothesis =>
    rw [List.map_cons, inductionHypothesis]
    rfl

theorem summarize_concat_nil (lines : List Text) : summarize (lines ++ [[]]) = summarize lines := by
  have same : Text.trimEnd (Text.join "\n" (Text.dropBlankLines (lines ++ [[]]))) =
      Text.trimEnd (Text.join "\n" (Text.dropBlankLines lines)) := by
    rw [Text.dropBlankLines, List.dropWhile_append, ← Text.dropBlankLines]
    split
    · next nothing =>
      rw [List.isEmpty_iff.mp nothing]
      rfl
    · obtain ⟨blanks, blank, joined⟩ := exists_join_concat_nil (Text.dropBlankLines lines)
      rw [joined, Text.trimEnd_append blank]
  rw [summarize, same, summarize]

theorem Record.saysSame_describe {line : Text} (blank : Text.isBlankText line = true)
    (record : Record) :
    (record.describe line).SaysSame record := by
  refine ⟨rfl, rfl, rfl, rfl, rfl, rfl, rfl, rfl, rfl, ?_⟩
  rw [Record.describe, Text.trimEnd_of_isBlankText blank]
  exact summarize_concat_nil record.description

theorem Record.saysSame_extend (record : Record) (place : Continuing) :
    (record.extend [] place).SaysSame record := by
  cases place with
  | param => exact { SaysSame.refl record with params := told_extendLast_nil record.params }
  | returns => exact { SaysSame.refl record with returns := told_extendLast_nil record.returns }
  | error => exact { SaysSame.refl record with errors := told_extendLast_nil record.errors }

theorem continuation_of_isBlankText {line : Text} (blank : Text.isBlankText line = true) :
    continuation line = [] := by
  refine Text.trimEnd_of_isBlankText (List.all_eq_true.mpr fun c member => ?_)
  exact Text.isBlank_of_mem blank c ((List.dropWhile_sublist _).subset member)

/-- A blank line changes nothing that a record says. -/
theorem Reading.saysSame_next {line : Text} (blank : Text.isBlankText line = true)
    (reading : Reading) :
    (reading.next line).record.SaysSame reading.record := by
  have trimmed := Text.trim_of_isBlankText blank
  have untagged : isTagLine line = false := by
    rw [isTagLine, trimmed]
    rfl
  have undotted : isFieldLine line = false := by
    rw [isFieldLine, trimmed]
    rfl
  cases fenced : isFencedAfter reading.inFence line with
  | true =>
    rw [next_of_fenced fenced]
    exact Record.saysSame_describe blank reading.record
  | false =>
    cases open_ : reading.continuing with
    | none =>
      rw [next_of_closed fenced (Or.inl open_) untagged undotted]
      exact Record.saysSame_describe blank reading.record
    | some place =>
      cases shaped : isContinuation line with
      | true =>
        rw [next_of_continues fenced open_ shaped, continuation_of_isBlankText blank]
        exact Record.saysSame_extend reading.record place
      | false =>
        rw [next_of_closed fenced (Or.inr shaped) untagged undotted]
        exact Record.saysSame_describe blank reading.record

theorem Reading.saysSame_foldl {lines : List Text}
    (blank : ∀ line ∈ lines, Text.isBlankText line = true) (reading : Reading) :
    (lines.foldl Reading.next reading).record.SaysSame reading.record := by
  induction lines generalizing reading with
  | nil => exact .refl _
  | cons line rest inductionHypothesis =>
    obtain ⟨here, later⟩ := List.forall_mem_cons.mp blank
    exact (inductionHypothesis later (reading.next line)).trans (saysSame_next here reading)

/-! ### The two styles -/

theorem saysSame_read_of_blank {content : List Text}
    (blank : ∀ line ∈ content, Text.isBlankText line = true) : (read content).SaysSame {} := by
  refine Reading.saysSame_foldl (fun line member => ?_) {}
  obtain ⟨whole, inside, rfl⟩ := List.mem_map.mp member
  exact Text.isBlankText_drop (blank whole inside) _

/-- Lines that stand further to the right, with blank lines after them, say the same. -/
theorem saysSame_read_padded {pad : Text} (drawn : ∀ c ∈ pad, c = ' ' ∨ c = '\t') (body : List Text)
    {tail : List Text} (blank : ∀ line ∈ tail, Text.isBlankText line = true) :
    (read (body.map (pad ++ ·) ++ tail)).SaysSame (read body) := by
  by_cases solid : ∃ line ∈ body, Text.isBlankText line = false
  · rw [read, Comment.dedent_padded drawn blank solid, List.foldl_append]
    refine Reading.saysSame_foldl (fun line member => ?_) _
    obtain ⟨whole, inside, rfl⟩ := List.mem_map.mp member
    exact Text.isBlankText_drop (blank whole inside) _
  · have bodyBlank : ∀ line ∈ body, Text.isBlankText line = true := by simpa using solid
    refine (saysSame_read_of_blank fun line member => ?_).trans
      (saysSame_read_of_blank bodyBlank).symm
    rcases List.mem_append.mp member with padded | behind
    · obtain ⟨whole, inside, rfl⟩ := List.mem_map.mp padded
      rw [Text.isBlankText_append (Text.isBlankText_of_isIndent drawn), bodyBlank whole inside]
    · exact blank line behind

/-- Lines of text are read alike behind three hyphens and inside of a long comment, however far
either is indented. -/
theorem styles_say_same {body : List Text} (present : body ≠ [])
    (open_ : ∀ line ∈ body, ¬ Comment.closer <:+: line) {indent pad : Text}
    (indentDrawn : ∀ c ∈ indent, c = ' ' ∨ c = '\t') (padDrawn : ∀ c ∈ pad, c = ' ' ∨ c = '\t') :
    ∃ short long,
      Comment.blocks (body.map fun line => indent ++ (Comment.lineMarker ++ ' ' :: line)) =
        [short] ∧
      Comment.blocks ((indent ++ Comment.opener) ::
        (body.map (pad ++ ·) ++ [indent ++ Comment.closer])) = [long] ∧
      (read short.content).SaysSame (read long.content) := by
  have unclosed : ∀ line ∈ body.map (pad ++ ·), Text.cut? Comment.closer line = none := by
    intro line member
    obtain ⟨inner, inside, rfl⟩ := List.mem_map.mp member
    have missing := Comment.notMem_of_isIndent padDrawn (c := ']') (by decide) (by decide)
    have alone : Text.cut? Comment.closer inner = none :=
      Text.cut?_of_not_isInfix (open_ inner inside)
    exact (Text.cut?_append missing "=]" inner).trans (congrArg _ alone)
  have blank : ∀ line ∈ Comment.unlessEmpty indent, Text.isBlankText line = true := by
    intro line member
    rw [Comment.unlessEmpty] at member
    split at member
    · cases member
    · rw [List.mem_singleton.mp member]
      exact Text.isBlankText_of_isIndent indentDrawn
  exact ⟨_, _, Comment.blocks_marked indentDrawn present,
    Comment.blocks_bracketed indentDrawn unclosed,
    (saysSame_read_padded padDrawn body blank).symm⟩

/-- A parameter with a line that continues it, a line further to the right, and a fence left
open. -/
def sampleBody : List Text :=
  ["@param key string", "  what opens it", " -- a door", "", "```lua"]

theorem open_sampleBody : ∀ line ∈ sampleBody, ¬ Comment.closer <:+: line := by
  have uncut : ∀ line ∈ sampleBody, Text.cut? Comment.closer line = none := by decide
  exact fun line member => Text.not_isInfix_of_cut? (uncut line member)

theorem styles_say_same_sample : sampleBody ≠ [] ∧
    (∀ line ∈ sampleBody, ¬ Comment.closer <:+: line) ∧
    (∀ c ∈ ['\t'], c = ' ' ∨ c = '\t') ∧ (∀ c ∈ ['\t', ' ', ' '], c = ' ' ∨ c = '\t') ∧
    ∃ short long,
      Comment.blocks (sampleBody.map fun line => ['\t'] ++ (Comment.lineMarker ++ ' ' :: line)) =
        [short] ∧
      Comment.blocks ((['\t'] ++ Comment.opener) ::
        (sampleBody.map (['\t', ' ', ' '] ++ ·) ++ [['\t'] ++ Comment.closer])) = [long] ∧
      (read short.content).SaysSame (read long.content) :=
  ⟨List.cons_ne_nil _ _, open_sampleBody, by simp, by simp,
    styles_say_same (List.cons_ne_nil _ _) open_sampleBody (by simp) (by simp)⟩

end Doc

end LuauReference
