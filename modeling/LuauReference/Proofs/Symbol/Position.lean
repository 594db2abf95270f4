/-
This file proves that what is read from a file does not depend on how far down it stands. Lines in
front that begin neither a documentation block nor a table type move every block, table,
declaration, symbol and report down by their number, and change nothing else. Each reader is handed
the number or index at which its lines begin and only ever adds to it, so the law is first stated
for that argument. Two places count the other way, and there the first line must have a number: the
last line of a table that is not closed, and the line of code that belongs to a number.
-/

import LuauReference.Proofs.Symbol.Assembly
import LuauReference.Proofs.Text.Blank

namespace LuauReference

/-! ### Things further down -/

namespace Comment

/-- A block that stands a number of lines further down. -/
def Block.movedDown (count : Nat) (block : Block) : Block :=
  { block with firstLine := block.firstLine + count, lastLine := block.lastLine + count }

end Comment

namespace Declaration

/-- A field that stands a number of lines further down. -/
def TableField.movedDown (count : Nat) (field : TableField) : TableField :=
  { field with line := field.line.map (· + count) }

/-- A shape whose lines stand a number of lines further down. -/
def Shape.movedDown (count : Nat) : Shape → Shape
  | .type name fields lastLine => .type name (fields.map (.movedDown count)) (lastLine + count)
  | shape => shape

/-- A declaration that stands a number of lines further down. -/
def movedDown (count : Nat) (declaration : Declaration) : Declaration :=
  { declaration with
    shape := declaration.shape.movedDown count
    lineNumber := declaration.lineNumber + count }

end Declaration

/-- A location a number of lines further down. -/
def Location.movedDown (count : Nat) (location : Location) : Location :=
  { location with line := location.line + count }

/-- A symbol that stands a number of lines further down. -/
def Symbol.movedDown (count : Nat) (symbol : Symbol) : Symbol :=
  { symbol with location := symbol.location.movedDown count }

/-- A report on a line further down. -/
def Diagnostic.movedDown (count : Nat) (diagnostic : Diagnostic) : Diagnostic :=
  { diagnostic with line := diagnostic.line + count }

/-! ### Blocks -/

namespace Comment

/-- A block of a list of lines is moved with the number of the first of them. -/
theorem blocksFrom_add (number count : Nat) (lines : List Text) :
    blocksFrom (number + count) lines = (blocksFrom number lines).map (Block.movedDown count) := by
  fun_induction blocksFrom number lines with
  | case1 number => simp only [blocksFrom, List.map_nil]
  | case2 number line rest content further found inductionHypothesis =>
    rw [blocksFrom, found]
    dsimp only
    rw [List.map_cons, ← inductionHypothesis]
    simp only [Block.movedDown, Nat.add_right_comm]
  | case3 number line rest none inductionHypothesis =>
    rw [blocksFrom, none, ← inductionHypothesis]
    simp only [Nat.add_right_comm]

end Comment

namespace Declaration

/-! ### Table types -/

/-- The fields and the last line of a table are moved with the index of its first line. -/
theorem tableBody_add {index : Nat} (count : Nat) (depth : Int) (waiting : Option (List Text))
    (lines : List Text) (positive : 1 ≤ index) :
    tableBody (index + count) depth waiting lines =
      ((tableBody index depth waiting lines).1.map (.movedDown count),
        (tableBody index depth waiting lines).2 + count) := by
  fun_induction tableBody index depth waiting lines with
  | case1 index depth waiting =>
    rw [tableBody]
    dsimp only
    rw [List.map_nil, Nat.sub_add_comm positive]
  | case2 index depth waiting line rest content further found inductionHypothesis =>
    rw [tableBody_of_block found, ← inductionHypothesis (by omega)]
    simp only [Nat.add_right_comm]
  | case3 index depth waiting line rest noBlock comment inductionHypothesis =>
    rw [tableBody_of_comment noBlock comment, ← inductionHypothesis (by omega)]
    simp only [Nat.add_right_comm]
  | case4 index depth waiting line rest noBlock noComment code inner name type found whole final
      further typed field closes =>
    rw [tableBody_of_lastField noBlock noComment found typed closes,
      Nat.add_right_comm index count further]
    simp only [List.map_cons, List.map_nil, TableField.movedDown, Option.map_some,
      Nat.add_right_comm, field]
  | case5 index depth waiting line rest noBlock noComment code inner name type found whole final
      further typed field opened fields last tail inductionHypothesis =>
    rw [tail] at inductionHypothesis
    rw [tableBody_of_field noBlock noComment found typed opened,
      show index + count + further + 1 = index + further + 1 + count by omega,
      inductionHypothesis (by omega)]
    simp only [List.map_cons, TableField.movedDown, Option.map_some, Nat.add_right_comm, field]
  | case6 index depth waiting line rest noBlock noComment code inner noField closes =>
    rw [tableBody_of_end noBlock noComment noField closes]
    rfl
  | case7 index depth waiting line rest noBlock noComment code inner noField opened
      inductionHypothesis =>
    rw [tableBody_of_inner noBlock noComment noField opened, Nat.add_right_comm,
      inductionHypothesis (by omega)]

theorem inlineFields_add (number count : Nat) (inner : Text) :
    inlineFields (number + count) inner =
      (inlineFields number inner).map (TableField.movedDown count) := by
  rw [inlineFields, inlineFields, List.map_filterMap]
  congr 1
  funext part
  rw [Option.map_map]
  rfl

theorem table_add (index count : Nat) (line : Text) (rest : List Text) :
    table (index + count) line rest =
      ((table index line rest).1.map (.movedDown count), (table index line rest).2 + count) := by
  unfold table
  split
  · rfl
  · dsimp only
    split
    · rw [Nat.add_right_comm, inlineFields_add]
    · rw [Nat.add_right_comm, tableBody_add count _ _ _ (Nat.le_add_left 1 index)]

theorem tableRangesFrom_add (index count : Nat) (lines : List Text) :
    tableRangesFrom (index + count) lines =
      (tableRangesFrom index lines).map fun range => (range.1 + count, range.2 + count) := by
  fun_induction tableRangesFrom index lines with
  | case1 index => rw [tableRangesFrom, List.map_nil]
  | case2 index line rest opens last inductionHypothesis =>
    rw [tableRangesFrom, if_pos opens, table_add, List.map_cons, ← inductionHypothesis]
    simp only [Nat.add_sub_add_right, Nat.add_right_comm, last]
  | case3 index line rest other inductionHypothesis =>
    rw [tableRangesFrom, if_neg other, ← inductionHypothesis, Nat.add_right_comm]

/-! ### Declarations -/

theorem shapeAt?_add (index count : Nat) (line : Text) (rest : List Text) :
    shapeAt? (index + count) line rest = (shapeAt? index line rest).map (.movedDown count) := by
  fun_cases shapeAt? index line rest with
  | case1 code signature read =>
    rw [shapeAt?, read]
    rfl
  | case2 code noSignature name head fields last read =>
    rw [shapeAt?, noSignature]
    dsimp only
    rw [head]
    dsimp only
    rw [table_add, read, Nat.add_right_comm]
    rfl
  | case3 code noSignature noHead trimmed owner name read =>
    rw [shapeAt?, noSignature]
    dsimp only
    rw [noHead]
    dsimp only
    rw [read]
    rfl
  | case4 code noSignature noHead trimmed noField =>
    rw [shapeAt?, noSignature]
    dsimp only
    rw [noHead]
    dsimp only
    rw [noField, Option.map_map]
    rfl

theorem declarationAt?_add (index count : Nat) (line : Text) (rest : List Text) :
    declarationAt? (index + count) line rest =
      (declarationAt? index line rest).map (movedDown count) := by
  rw [declarationAt?, declarationAt?, shapeAt?_add, Option.map_map, Option.map_map,
    Nat.add_right_comm]
  rfl

theorem nextCode?_add (index count : Nat) (lines : List Text) :
    nextCode? (index + count) lines =
      (nextCode? index lines).map fun place => (place.1 + count, place.2) := by
  fun_induction nextCode? index lines with
  | case1 index => rw [nextCode?, Option.map_none]
  | case2 index line rest content further block inductionHypothesis =>
    rw [nextCode?, block]
    dsimp only
    rw [← inductionHypothesis]
    simp only [Nat.add_right_comm]
  | case3 index line rest noBlock skipped inductionHypothesis =>
    rw [nextCode?, noBlock]
    dsimp only
    rw [if_pos skipped, ← inductionHypothesis, Nat.add_right_comm]
  | case4 index line rest noBlock code =>
    rw [nextCode?, noBlock]
    dsimp only
    rw [if_neg code]
    rfl

/-- What a block is attached to moves with it when further lines stand in front. -/
theorem afterBlock?_append (front lines : List Text) (block : Comment.Block) :
    afterBlock? (front ++ lines) (block.movedDown front.length) =
      (afterBlock? lines block).map (movedDown front.length) := by
  have left : (front ++ lines).drop (block.lastLine + front.length) =
      lines.drop block.lastLine := by
    rw [Nat.add_comm, List.drop_length_add_append]
  rw [afterBlock?, afterBlock?, Comment.Block.movedDown]
  dsimp only
  rw [left, nextCode?_add]
  cases nextCode? block.lastLine (lines.drop block.lastLine) with
  | none => rfl
  | some place => exact declarationAt?_add place.1 front.length place.2.1 place.2.2

end Declaration

/-! ### Lines that begin nothing -/

/-- Whether a line begins neither a documentation block nor a table type. -/
structure IsQuiet (line : Text) : Prop where
  unmarked : Text.startsWith (Text.trim line) Comment.lineMarker = false
  unopened : Text.startsWith (Text.trim line) Comment.opener = false
  headless : Declaration.tableHead? line = none

namespace IsQuiet

variable {line : Text}

theorem blockAt?_eq_none (quiet : IsQuiet line) (rest : List Text) :
    Comment.blockAt? line rest = none := by
  rw [Comment.blockAt?, Comment.isMarked, ← Text.startsWith_trim (by decide),
    ← Text.startsWith_trim (by decide), quiet.unmarked, quiet.unopened]
  rfl

end IsQuiet

section

variable {front : List Text} (quiet : ∀ line ∈ front, IsQuiet line)

include quiet

theorem Comment.blocksFrom_append (number : Nat) (lines : List Text) :
    blocksFrom number (front ++ lines) = blocksFrom (number + front.length) lines := by
  induction front generalizing number with
  | nil => rfl
  | cons line front inductionHypothesis =>
    obtain ⟨first, others⟩ := List.forall_mem_cons.mp quiet
    rw [List.cons_append, blocksFrom, first.blockAt?_eq_none]
    dsimp only
    rw [inductionHypothesis others, List.length_cons, Nat.add_right_comm, Nat.add_assoc]

theorem Declaration.tableRangesFrom_append (index : Nat) (lines : List Text) :
    tableRangesFrom index (front ++ lines) = tableRangesFrom (index + front.length) lines := by
  induction front generalizing index with
  | nil => rfl
  | cons line front inductionHypothesis =>
    obtain ⟨first, others⟩ := List.forall_mem_cons.mp quiet
    rw [List.cons_append, tableRangesFrom, first.headless, Option.isSome_none,
      if_neg Bool.false_ne_true, inductionHypothesis others, List.length_cons, Nat.add_right_comm,
      Nat.add_assoc]

/-- The same blocks stand outside of table types, further down. -/
theorem Assembly.recordsOf_append (lines : List Text) :
    recordsOf (front ++ lines) =
      (recordsOf lines).map fun pair => (pair.1.movedDown front.length, pair.2) := by
  have blocks : Comment.blocks (front ++ lines) =
      (Comment.blocks lines).map (.movedDown front.length) := by
    rw [Comment.blocks, Comment.blocksFrom_append quiet, Comment.blocksFrom_add]
    rfl
  have ranges : Declaration.tableRanges (front ++ lines) =
      (Declaration.tableRanges lines).map fun range =>
        (range.1 + front.length, range.2 + front.length) := by
    rw [Declaration.tableRanges, Declaration.tableRangesFrom_append quiet,
      Declaration.tableRangesFrom_add]
    rfl
  rw [recordsOf, recordsOf, blocks, ranges, List.filter_map, List.map_map, List.map_map]
  refine congrArg
    (List.map fun (block : Comment.Block) => (block.movedDown front.length, Doc.read block.content))
    (List.filter_congr fun block _ => ?_)
  simp only [Function.comp_def, List.any_map, Comment.Block.movedDown, Nat.add_le_add_iff_right]

end

/-! ### Symbols -/

namespace Assembly

theorem lineAt_append {number : Nat} (front lines : List Text) (positive : 1 ≤ number) :
    lineAt (front ++ lines) (number + front.length) = lineAt lines number := by
  rw [lineAt, lineAt, if_neg (by omega), if_neg (by omega), List.getD_eq_getElem?_getD,
    List.getD_eq_getElem?_getD, List.getElem?_append_right (by omega), Nat.sub_right_comm,
    Nat.add_sub_cancel]

section

variable (count : Nat) (record : Doc.Record) (declaration : Option Declaration)

/-- What a block documents is told by the words of its declaration, not by its place. -/
theorem subjectOf_movedDown (classNames : List Text) :
    subjectOf record (declaration.map (.movedDown count)) classNames =
      subjectOf record declaration classNames := by
  cases declaration with
  | none => rfl
  | some found =>
    obtain ⟨shape, number, line⟩ := found
    cases shape <;> rfl

theorem signature?_movedDown :
    (declaration.map (Declaration.movedDown count)).bind Declaration.signature? =
      declaration.bind Declaration.signature? := by
  cases declaration with
  | none => rfl
  | some found =>
    obtain ⟨shape, number, line⟩ := found
    cases shape <;> rfl

theorem tableFields?_movedDown :
    (declaration.map (Declaration.movedDown count)).bind Declaration.tableFields? =
      (declaration.bind Declaration.tableFields?).map (List.map (.movedDown count)) := by
  cases declaration with
  | none => rfl
  | some found =>
    obtain ⟨shape, number, line⟩ := found
    cases shape <;> rfl

theorem typesOf_movedDown (kind : Doc.Kind) (isMethod : Bool) :
    typesOf kind record (declaration.map (.movedDown count)) isMethod =
      typesOf kind record declaration isMethod := by
  cases kind with
  | function => rw [typesOf, typesOf, signature?_movedDown]
  | constructor => rw [typesOf, typesOf, signature?_movedDown]
  | type =>
    rw [typesOf, typesOf, tableFields?_movedDown]
    cases declaration.bind Declaration.tableFields? with
    | none => rfl
    | some fields =>
      rw [Option.map_some, typeTypes, typeTypes, Option.getD_some, Option.getD_some, List.map_map]
      rfl
  | property => rfl
  | interface => rfl
  | «class» => rfl

theorem signatureDiagnostics_movedDown (file : Text) (line : Nat) :
    signatureDiagnostics file (line + count : Nat) record (declaration.map (.movedDown count)) =
      (signatureDiagnostics file line record declaration).map (.movedDown count) := by
  rw [signatureDiagnostics, signatureDiagnostics, signature?_movedDown]
  split
  · rfl
  · dsimp only
    split <;> rfl

theorem ownerDiagnostics_movedDown (file : Text) (line : Nat) (classNames : List Text)
    (kind : Option Doc.Kind) (within : Option Text) :
    ownerDiagnostics file (line + count : Nat) classNames kind within =
      (ownerDiagnostics file line classNames kind within).map (.movedDown count) := by
  rw [ownerDiagnostics, ownerDiagnostics]
  split
  · split <;> rfl
  · rfl

end

/-- The symbols of fields stand on lines that have a number, so they are moved like their owner. -/
theorem fieldSymbols_append {lines : List Text} {declaration : Option Declaration}
    (front : List Text) (kind : Doc.Kind) (name : Text) (record : Doc.Record) (file : Text)
    (location : Location) (visibility : Text) (declared : ∀ found ∈ declaration, found.IsIn lines) :
    fieldSymbols kind name record (declaration.map (.movedDown front.length)) (front ++ lines) file
        (location.movedDown front.length) visibility =
      (fieldSymbols kind name record declaration lines file location visibility).map
        (.movedDown front.length) := by
  cases kind with
  | type =>
    rw [fieldSymbols, fieldSymbols, tableFields?_movedDown]
    cases read : declaration.bind Declaration.tableFields? with
    | none => rfl
    | some fields =>
      obtain ⟨found, held, same⟩ := Option.bind_eq_some_iff.mp read
      rw [Option.map_some, Option.getD_some, Option.getD_some, List.map_map, List.map_map]
      refine List.map_congr_left fun field member => ?_
      obtain ⟨number, stands, positive, bounded⟩ :=
        ((declared found held).fields fields same field member).line
      simp only [Function.comp_apply, Declaration.TableField.movedDown, stands, Option.map_some,
        Nat.ne_of_gt positive, Nat.ne_of_gt (Nat.add_pos_left positive _), if_false,
        lineAt_append front lines positive]
      rfl
  | interface =>
    rw [fieldSymbols, fieldSymbols, List.map_map]
    rfl
  | function => rfl
  | constructor => rfl
  | property => rfl
  | «class» => rfl

/-- Where the symbol of a block stands: on the line of its declaration, or else on its own first. -/
def locationOf (block : Comment.Block) (declaration : Option Declaration) (lines : List Text)
    (file : Text) : Location :=
  match declaration with
  | some found => .ofLine file found.lineNumber found.line
  | none => .ofLine file block.firstLine (lineAt lines block.firstLine)

theorem locationOf_append {lines : List Text} {block : Comment.Block} (front : List Text)
    (declaration : Option Declaration) (file : Text) (inside : block.IsIn lines) :
    locationOf (block.movedDown front.length) (declaration.map (.movedDown front.length))
        (front ++ lines) file =
      (locationOf block declaration lines file).movedDown front.length := by
  cases declaration with
  | none =>
    rw [Option.map_none, locationOf, locationOf, Comment.Block.movedDown]
    dsimp only
    rw [lineAt_append front lines inside.first]
    rfl
  | some found => rfl

/-- The level of visibility that a record asks for. -/
def visibilityOf (record : Doc.Record) : Text :=
  match record.marks.visibility with
  | some level => level.word
  | none => "public"

/-- The report on a mark for properties at something else. -/
def misuseDiagnostics (file : Text) (line : Nat) (record : Doc.Record) (kind : Doc.Kind) :
    List Diagnostic :=
  if record.marks.readonly && kind != .property then
    [.warning file line Diagnostic.readonlyMisuse]
  else
    []

theorem misuseDiagnostics_add (file : Text) (line count : Nat) (record : Doc.Record)
    (kind : Doc.Kind) :
    misuseDiagnostics file (line + count) record kind =
      (misuseDiagnostics file line record kind).map (.movedDown count) := by
  rw [misuseDiagnostics, misuseDiagnostics]
  split <;> rfl

/-- What a block gives, put together from its parts. -/
theorem blockSymbols_eq (record : Doc.Record) (block : Comment.Block)
    (declaration : Option Declaration) (lines : List Text) (file : Text) (classNames : List Text) :
    blockSymbols record block declaration lines file classNames =
      let subject := subjectOf record declaration classNames
      let unowned := ownerDiagnostics file block.firstLine classNames subject.kind subject.within
      match subject.kind, subject.name with
      | some kind, some name =>
        let location := locationOf block declaration lines file
        (⟨kind.word, name, qualifiedName subject.within name subject.isMethod, location,
            docsOf record, typesOf kind record declaration subject.isMethod, visibilityOf record⟩ ::
          fieldSymbols kind name record declaration lines file location (visibilityOf record),
          unowned ++ misuseDiagnostics file block.firstLine record kind)
      | _, _ => ([], unowned) := rfl

/-- The symbols and reports of a block are moved with it. -/
theorem blockSymbols_append {lines : List Text} {block : Comment.Block}
    {declaration : Option Declaration} (front : List Text) (record : Doc.Record) (file : Text)
    (classNames : List Text) (inside : block.IsIn lines)
    (declared : ∀ found ∈ declaration, found.IsIn lines) :
    blockSymbols record (block.movedDown front.length)
        (declaration.map (.movedDown front.length)) (front ++ lines) file classNames =
      ((blockSymbols record block declaration lines file classNames).1.map
          (.movedDown front.length),
        (blockSymbols record block declaration lines file classNames).2.map
          (.movedDown front.length)) := by
  have unowned := ownerDiagnostics_movedDown front.length file block.firstLine classNames
  have misuse := misuseDiagnostics_add file block.firstLine front.length record
  rw [blockSymbols_eq, blockSymbols_eq]
  dsimp only
  rw [subjectOf_movedDown, locationOf_append front declaration file inside]
  dsimp only [Comment.Block.movedDown]
  rw [unowned]
  split
  · next kind name kindFound nameFound =>
    dsimp only
    rw [typesOf_movedDown, fieldSymbols_append front kind name record file _ _ declared, misuse,
      List.map_append, List.map_cons]
    rfl
  · rfl

/-- The declaration that belongs to a record is moved with its block. -/
theorem declarationFor?_append (front lines : List Text) (block : Comment.Block)
    (record : Doc.Record) :
    declarationFor? (front ++ lines) (block.movedDown front.length) record =
      (declarationFor? lines block record).map (.movedDown front.length) := by
  unfold declarationFor?
  split
  · exact Declaration.afterBlock?_append front lines block
  · split
    · exact Declaration.afterBlock?_append front lines block
    · rfl

/-- The symbols and reports of all blocks are moved with them. -/
theorem assembleRecords_append {lines : List Text} (front : List Text) (file : Text)
    (classNames : List Text) {records : List (Comment.Block × Doc.Record)} (before : Option Text)
    (each : ∀ pair ∈ records, pair.1.IsIn lines) :
    assembleRecords (front ++ lines) file classNames before
        (records.map fun pair => (pair.1.movedDown front.length, pair.2)) =
      ((assembleRecords lines file classNames before records).1.map (.movedDown front.length),
        (assembleRecords lines file classNames before records).2.map
          (.movedDown front.length)) := by
  induction records generalizing before with
  | nil => rfl
  | cons pair rest inductionHypothesis =>
    obtain ⟨block, record⟩ := pair
    obtain ⟨inside, others⟩ := List.forall_mem_cons.mp each
    rw [List.map_cons, assembleRecords, assembleRecords]
    dsimp only
    rw [declarationFor?_append,
      blockSymbols_append front _ file classNames inside isIn_of_declarationFor?,
      inductionHypothesis _ others]
    dsimp only [Comment.Block.movedDown]
    rw [signatureDiagnostics_movedDown]
    simp only [List.map_append]

end Assembly

/-- The symbols and reports of a file do not depend on how far down it begins: after lines that
begin neither a documentation block nor a table type they stand as many lines further down, and
nothing else about them is changed. -/
theorem assemble_append {front : List Text} (quiet : ∀ line ∈ front, IsQuiet line)
    (lines : List Text) (file : Text) :
    assemble (front ++ lines) file =
      ((assemble lines file).1.map (.movedDown front.length),
        (assemble lines file).2.map (.movedDown front.length)) := by
  unfold assemble
  dsimp only
  rw [Assembly.recordsOf_append quiet, List.flatMap_map]
  exact Assembly.assembleRecords_append front file _ none fun pair member =>
    (Assembly.isIn_of_mem_recordsOf pair member).1

/-- A mode line and an empty line in front of a documented function. -/
theorem assemble_append_modeLine :
    (∀ line ∈ (["--!strict", ""] : List Text), IsQuiet line) ∧
      assemble (["--!strict", ""] ++ ["--- Adds.", "function add(a)"]) "add.luau" =
        ((assemble ["--- Adds.", "function add(a)"] "add.luau").1.map (.movedDown 2),
          (assemble ["--- Adds.", "function add(a)"] "add.luau").2.map (.movedDown 2)) := by
  have quiet : ∀ line ∈ (["--!strict", ""] : List Text), IsQuiet line :=
    List.forall_mem_cons.mpr ⟨⟨by decide, by decide, by decide⟩,
      List.forall_mem_singleton.mpr ⟨by decide, by decide, by decide⟩⟩
  exact ⟨quiet, assemble_append quiet _ _⟩

end LuauReference
