/-
This file proves that it makes no difference whether the pages of source files are made from the
reference at hand or from its text. Reading a reference back fills in what does not count as set, so
this rests on what symbols of source files have: nothing that reading fills in is missing from one,
and JSON gives back all that it holds.
-/

import LuauReference.Page.Render
import LuauReference.Proofs.Symbol.Assembly
import LuauReference.Proofs.Text.Line
import LuauReference.Source.Extraction

namespace LuauReference

/-! ### Symbols that are read back -/

theorem Assembly.Described.isPlain_toFields (item : Described) :
    (Json.obj item.toFields).IsPlain := by
  obtain ⟨name, type, description⟩ := item
  cases name with
  | none =>
    refine Json.isPlain_obj (by simp [toFields]) ?_
    simp [toFields, Json.isPlain_ofText?]
  | some name =>
    refine Json.isPlain_obj (by simp [toFields]) ?_
    simp [toFields, Json.isPlain_ofText?, Json.isPlain_str]

theorem Assembly.Fits.isPlain {name : Text} {value : Json} (fits : Fits name value) :
    value.IsPlain := by
  cases fits with
  | text content => exact Json.isPlain_ofText? content
  | mark isSet => exact isPlain_bool isSet
  | entries items named => exact Json.isPlain_arr_map fun item _ => item.isPlain_toFields

theorem SymbolTypes.IsShaped.isPlain {types : SymbolTypes} (shaped : types.IsShaped) :
    ∀ fields ∈ types.structured, (Json.obj fields).IsPlain := by
  intro fields held
  have same : types.fields = fields := by rw [SymbolTypes.fields, held, Option.getD_some]
  have distinct := shaped.distinct
  have values := shaped.values
  rw [same] at distinct values
  exact Json.isPlain_obj distinct fun field member => (values field member).isPlain

/-- Whether all numbers of lines and columns are short enough to be read back. -/
structure Text.AreShort (lines : List Text) : Prop where
  number : lines.length < 10 ^ Text.longestNumeral
  column : ∀ line ∈ lines, line.length + 1 < 10 ^ Text.longestNumeral

theorem Location.IsIn.isPlain {location : Location} {lines : List Text}
    (inside : location.IsIn lines)
    (short : Text.AreShort lines) :
    (Json.int location.line).IsPlain ∧ (Json.int location.column).IsPlain := by
  obtain ⟨line, member, width⟩ := inside.width
  have first := inside.first
  have last := inside.last
  have column := inside.column
  have number := short.number
  have wide := short.column line member
  rw [Json.IsPlain, Json.IsPlain]
  exact ⟨Json.number?_ofInt (by omega), Json.number?_ofInt (by omega)⟩

theorem Symbol.IsAssembled.isComplete {symbol : Symbol} {lines : List Text}
    (assembled : symbol.IsAssembled lines) : symbol.IsComplete where
  kind := assembled.kind
  visibility := assembled.visibility
  qualified := Or.inl assembled.qualified
  column := by
    have column := assembled.location.column
    omega

theorem Symbol.IsAssembled.isPlain {symbol : Symbol} {lines : List Text}
    (assembled : symbol.IsAssembled lines) (short : Text.AreShort lines) : symbol.IsPlain where
  line := (assembled.location.isPlain short).1
  column := (assembled.location.isPlain short).2
  tags := assembled.tags
  structured := assembled.types.isPlain

/-! ### References of source files -/

/-- Whether a reference is one of source files, given by their names and texts. -/
structure Reference.IsOf (reference : Reference) (files : List (Text × Text)) : Prop where
  schemaVersion : reference.schemaVersion = LuauReference.schemaVersion
  generatorVersion : reference.generatorVersion ≠ []
  modules : reference.IsMadeOf (files.map fun file => (file.1, Text.sourceLines file.2))

/-- The modules of source files that are read one by one are those of a reference of these files. -/
theorem Source.isOf_moduleOf {version : Text} (present : version ≠ []) (moduleNames : Named Text)
    (root : Path) (files : List (SourceFile × Text)) (luauVersion : Option Text) :
    Reference.IsOf
      ⟨version, files.map fun file => (moduleOf moduleNames root file.1 file.2).1, luauVersion,
        LuauReference.schemaVersion⟩
      (files.map fun file => ((file.1.path.seenFrom root).text, file.2)) where
  schemaVersion := rfl
  generatorVersion := present
  modules := by
    rw [Reference.IsMadeOf, List.map_map, List.map_map, List.map_map]
    rfl

theorem Reference.IsOf.isAssembled {reference : Reference} {files : List (Text × Text)}
    (extracted : reference.IsOf files) {module_ : Module} (member : module_ ∈ reference.modules) :
    ∃ file ∈ files, ∀ symbol ∈ module_.symbols, symbol.IsAssembled (Text.sourceLines file.2) := by
  obtain ⟨cut, inside, assembled⟩ := extracted.modules.isAssembled member
  obtain ⟨file, listed, rfl⟩ := List.mem_map.mp inside
  exact ⟨file, listed, assembled⟩

theorem Text.areShort_sourceLines {text : Text} (short : text.length + 1 < 10 ^ longestNumeral) :
    AreShort (sourceLines text) where
  number := Nat.lt_of_le_of_lt (length_sourceLines_le text) short
  column := fun _ member =>
    Nat.lt_of_le_of_lt (Nat.succ_le_succ (length_le_of_mem_sourceLines member)) short

theorem Reference.IsOf.isComplete {reference : Reference} {files : List (Text × Text)}
    (extracted : reference.IsOf files) : reference.IsComplete where
  schemaVersion := by
    rw [extracted.schemaVersion]
    decide
  generatorVersion := extracted.generatorVersion
  symbols := by
    intro module_ member symbol held
    obtain ⟨file, inside, assembled⟩ := extracted.isAssembled member
    exact (assembled symbol held).isComplete

theorem Reference.IsOf.isPlain {reference : Reference} {files : List (Text × Text)}
    (extracted : reference.IsOf files)
    (short : ∀ file ∈ files, file.2.length + 1 < 10 ^ Text.longestNumeral) :
    reference.IsPlain where
  schemaVersion := by
    rw [extracted.schemaVersion]
    rfl
  symbols := by
    intro module_ member symbol held
    obtain ⟨file, inside, assembled⟩ := extracted.isAssembled member
    exact (assembled symbol held).isPlain (Text.areShort_sourceLines (short file inside))

/-- A reference of source files is read back from its text, and so the pages that are made from the
text are those that are made from the reference at hand. -/
theorem Reference.render_written {reference : Reference} {files : List (Text × Text)}
    (extracted : reference.IsOf files)
    (short : ∀ file ∈ files, file.2.length + 1 < 10 ^ Text.longestNumeral) :
    Reference.read reference.write = .ok reference ∧
      ∀ (settings : PageSettings) (writer : PageWriter),
        (do Page.render settings writer (← Reference.read reference.write)) =
          Page.render settings writer reference := by
  have plain := Reference.isPlain_toFields (extracted.isPlain short)
  have same : Reference.read reference.write = .ok reference :=
    Reference.read_of_json extracted.isComplete (Json.read_document plain)
  refine ⟨same, ?_⟩
  intro settings writer
  rw [same]
  rfl

/-- A source text: a class with a method that takes documentation over, before a table type that is
never closed. -/
def Source.doorText : Text :=
  "--- @class Door\n\n--[=[\n\tOpens it.\n\t@param speed number\n\t@inheritDoc Door\n]=]\n".toList
    ++ "function Door:Open(speed)\nexport type Key = \x7b".toList

/-- A source file with this text, and an empty one. -/
def Source.doorFiles : List (SourceFile × Text) :=
  [(⟨.read "/project/src/Door.luau", .read "/project/src"⟩, doorText),
    (⟨.read "/project/types/Empty.luau", .read "/project/types"⟩, [])]

/-- The reference of these files. -/
def Source.doorReference : Reference where
  generatorVersion := Program.version
  modules := doorFiles.map fun file => (moduleOf [] (.read "/project") file.1 file.2).1

theorem Reference.render_written_door :
    Source.doorReference.symbols.map Symbol.qualified = ["Door".toList, "Door:Open".toList] ∧
      Source.doorReference.IsOf [("src/Door.luau", Source.doorText), ("types/Empty.luau", [])] ∧
      Source.doorText.length + 1 < 10 ^ Text.longestNumeral ∧
      Reference.read Source.doorReference.write = .ok Source.doorReference ∧
      ∀ (settings : PageSettings) (writer : PageWriter),
        (do Page.render settings writer (← Reference.read Source.doorReference.write)) =
          Page.render settings writer Source.doorReference := by
  have named : Source.doorFiles.map (fun file =>
      ((file.1.path.seenFrom (.read "/project")).text, file.2)) =
        [("src/Door.luau".toList, Source.doorText), ("types/Empty.luau".toList, [])] := by
    decide +kernel
  have extracted : Source.doorReference.IsOf
      [("src/Door.luau", Source.doorText), ("types/Empty.luau", [])] :=
    named ▸ Source.isOf_moduleOf (by decide) [] (.read "/project") Source.doorFiles none
  have large : 10 ^ 3 ≤ 10 ^ Text.longestNumeral := Nat.pow_le_pow_right (by decide) (by decide)
  have short : Source.doorText.length + 1 < 10 ^ Text.longestNumeral :=
    Nat.lt_of_lt_of_le (by decide +kernel) large
  have empty : ([] : Text).length + 1 < 10 ^ Text.longestNumeral :=
    Nat.lt_of_lt_of_le (by decide) large
  have all : ∀ file ∈ [("src/Door.luau".toList, Source.doorText), ("types/Empty.luau".toList, [])],
      file.2.length + 1 < 10 ^ Text.longestNumeral :=
    List.forall_mem_cons.mpr ⟨short, List.forall_mem_singleton.mpr empty⟩
  exact ⟨by decide +kernel, extracted, short, Reference.render_written extracted all⟩

end LuauReference
