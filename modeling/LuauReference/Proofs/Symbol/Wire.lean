/-
This file proves that a reference is read back from its text. Writing names every field, and reading
fills in a default for every field that does not count as set; so a value that does not count as set
and is not the default would come back as another one. The conditions say that there is no such
value: the kind, the visibility and the version of the generator are not empty, a symbol with a name
has a qualified name, and no column is zero. What tags and types hold is arbitrary, as far as JSON
itself gives it back.
-/

import LuauReference.Proofs.Failure
import LuauReference.Proofs.Json.RoundTrip
import LuauReference.Symbol.Wire

namespace LuauReference

/-! ### Single values -/

namespace Json

theorem textOr_str (s : Text) : (str s).textOr [] = s := by
  cases s <;> rfl

theorem textOr_str_of_ne_nil {s : Text} (default : Text) (present : s ≠ []) :
    (str s).textOr default = s := by
  cases s with
  | nil => exact absurd rfl present
  | cons c rest => rfl

theorem asIntOr_int (value : Int) : (int value).asIntOr 0 = .ok value := by
  by_cases zero : value = 0
  · rw [zero]
    rfl
  · simp [asIntOr, isTruthy, asInt, zero]

theorem asIntOr_int_of_ne_zero {value : Int} (default : Int) (nonzero : value ≠ 0) :
    (int value).asIntOr default = .ok value := by
  simp [asIntOr, isTruthy, asInt, nonzero]

/-- The fields of a list of objects. -/
theorem filterMap_fields?_map {α : Type} (fieldsOf : α → Fields) (items : List α) :
    (items.map fun item => obj (fieldsOf item)).filterMap fields? = items.map fieldsOf := by
  rw [List.filterMap_map]
  exact congrFun List.filterMap_eq_map items

/-- A list of objects is gone through object by object. -/
theorem objectsOrNone_map {α : Type} (fieldsOf : α → Fields) (items : List α) :
    (arr (items.map fun item => obj (fieldsOf item))).objectsOrNone = .ok (items.map fieldsOf) := by
  cases items with
  | nil => rfl
  | cons item rest => exact congrArg Except.ok (filterMap_fields?_map fieldsOf (item :: rest))

end Json

/-- Reading each of a list of written things gives back the list. -/
theorem mapM_ofFields {α : Type} {read : Fields → Except Failure α} {fieldsOf : α → Fields}
    {items : List α} (each : ∀ item ∈ items, read (fieldsOf item) = .ok item) :
    (items.map fieldsOf).mapM read = .ok items := by
  have together : items.mapM (read ∘ fieldsOf) = .ok (items.map id) := Failure.mapM_eq_ok each
  rw [List.mapM_map, together, List.map_id]

/-! ### Symbols -/

/-- The fields of a written location. -/
def Location.toFields (location : Location) : Fields :=
  [("file", .str location.file), ("line", .int location.line), ("column", .int location.column)]

theorem Location.ofFields_toFields {location : Location} (column : location.column ≠ 0) :
    Location.ofFields location.toFields = .ok location := by
  show ((Json.int location.line).asIntOr 0 >>= fun line =>
    (Json.int location.column).asIntOr 1 >>= fun column =>
      pure (⟨(Json.str location.file).textOr [], line, column⟩ : Location)) = .ok location
  rw [Json.asIntOr_int, Json.asIntOr_int_of_ne_zero 1 column, Json.textOr_str]
  rfl

/-- The fields of a written tag. -/
def SymbolTag.toFields (tag : SymbolTag) : Fields :=
  [("name".toList, .str tag.name), ("value".toList, tag.value)] ++
    match tag.description with
    | .null => []
    | description => [("description".toList, description)]

theorem SymbolTag.ofFields_toFields (tag : SymbolTag) :
    SymbolTag.ofFields tag.toFields = tag := by
  obtain ⟨name, value, description⟩ := tag
  have named : (Json.str name).textOr [] = name := Json.textOr_str name
  cases description <;> exact congrArg (SymbolTag.mk · value _) named

/-- The fields of written documentation. -/
def SymbolDocs.toFields (docs : SymbolDocs) : Fields :=
  [("summary", .str docs.summary), ("descriptionMarkdown", .str docs.description),
    ("tags", .arr (docs.tags.map fun tag => .obj tag.toFields))]

theorem SymbolDocs.ofFields_toFields (docs : SymbolDocs) :
    SymbolDocs.ofFields docs.toFields = .ok docs := by
  have tags : docs.tags.map (SymbolTag.ofFields ∘ SymbolTag.toFields) = docs.tags := by
    rw [show SymbolTag.ofFields ∘ SymbolTag.toFields = id from
      funext SymbolTag.ofFields_toFields, List.map_id]
  show ((Json.arr (docs.tags.map fun tag => .obj tag.toFields)).objectsOrNone >>= fun tags =>
    pure (⟨(Json.str docs.summary).textOr [], (Json.str docs.description).textOr [],
      tags.map SymbolTag.ofFields⟩ : SymbolDocs)) = .ok docs
  rw [Json.objectsOrNone_map, Json.textOr_str, Json.textOr_str]
  show Except.ok (⟨docs.summary, docs.description,
    (docs.tags.map SymbolTag.toFields).map SymbolTag.ofFields⟩ : SymbolDocs) = .ok docs
  rw [List.map_map, tags]

/-- The fields of a written type. -/
def SymbolTypes.toFields (types : SymbolTypes) : Fields :=
  [("display", .str types.display), ("structured", match types.structured with
    | some fields => Json.obj fields
    | none => .null)]

theorem SymbolTypes.ofFields_toFields (types : SymbolTypes) :
    SymbolTypes.ofFields types.toFields = types := by
  obtain ⟨display, structured⟩ := types
  have shown : (Json.str display).textOr [] = display := Json.textOr_str display
  cases structured <;> exact congrArg (SymbolTypes.mk · _) shown

/-- Whether a symbol has all that reading would fill in: a kind, a visibility, a qualified name
beside its name, and a column. -/
structure Symbol.IsComplete (symbol : Symbol) : Prop where
  kind : symbol.kind ≠ []
  visibility : symbol.visibility ≠ []
  qualified : symbol.qualified ≠ [] ∨ symbol.name = []
  column : symbol.location.column ≠ 0

/-- The fields of a written symbol. -/
def Symbol.toFields (symbol : Symbol) : Fields :=
  [("kind", .str symbol.kind), ("name", .str symbol.name),
    ("qualifiedName", .str symbol.qualified), ("location", .obj symbol.location.toFields),
    ("docs", .obj symbol.docs.toFields), ("types", .obj symbol.types.toFields),
    ("visibility", .str symbol.visibility)]

/-- A qualified name that is empty is read as the name, which is then empty too. -/
theorem Symbol.textOr_qualified {symbol : Symbol}
    (qualified : symbol.qualified ≠ [] ∨ symbol.name = []) :
    (Json.str symbol.qualified).textOr symbol.name = symbol.qualified := by
  rcases qualified with present | unnamed
  · exact Json.textOr_str_of_ne_nil _ present
  · rw [unnamed, Json.textOr_str]

theorem Symbol.ofFields_toFields {symbol : Symbol} (complete : symbol.IsComplete) :
    Symbol.ofFields symbol.toFields = .ok symbol := by
  show (Location.ofFields symbol.location.toFields >>= fun location =>
    SymbolDocs.ofFields symbol.docs.toFields >>= fun docs =>
      pure ({
        kind := (Json.str symbol.kind).textOr "module"
        name := (Json.str symbol.name).textOr []
        qualified := (Json.str symbol.qualified).textOr ((Json.str symbol.name).textOr [])
        location := location
        docs := docs
        types := SymbolTypes.ofFields symbol.types.toFields
        visibility := (Json.str symbol.visibility).textOr "public" } : Symbol)) = .ok symbol
  rw [Location.ofFields_toFields complete.column, SymbolDocs.ofFields_toFields,
    SymbolTypes.ofFields_toFields, Json.textOr_str_of_ne_nil _ complete.kind,
    Json.textOr_str_of_ne_nil _ complete.visibility, Json.textOr_str symbol.name,
    Symbol.textOr_qualified complete.qualified]
  rfl

/-! ### References -/

/-- The fields of a written module. -/
def Module.toFields (module_ : Module) : Fields :=
  [("id", .str module_.id), ("path", .str module_.path), ("sourceHash", .str module_.sourceHash),
    ("symbols", .arr (module_.symbols.map fun symbol => .obj symbol.toFields))]

theorem Module.ofFields_toFields {module_ : Module}
    (complete : ∀ symbol ∈ module_.symbols, symbol.IsComplete) :
    Module.ofFields module_.toFields = .ok module_ := by
  show ((Json.arr (module_.symbols.map fun symbol => .obj symbol.toFields)).objectsOrNone >>=
    fun items => items.mapM Symbol.ofFields >>= fun symbols =>
      pure (⟨(Json.str module_.id).textOr [], (Json.str module_.path).textOr [],
        (Json.str module_.sourceHash).textOr [], symbols⟩ : Module)) = .ok module_
  rw [Json.objectsOrNone_map, Json.textOr_str, Json.textOr_str, Json.textOr_str]
  show ((module_.symbols.map Symbol.toFields).mapM Symbol.ofFields >>= fun symbols =>
    pure (⟨module_.id, module_.path, module_.sourceHash, symbols⟩ : Module)) = .ok module_
  rw [mapM_ofFields fun symbol member => Symbol.ofFields_toFields (complete symbol member)]
  rfl

/-- Whether a reference has all that reading would fill in: a current version, the version of the
generator, and all that its symbols must have. -/
structure Reference.IsComplete (reference : Reference) : Prop where
  schemaVersion : 1 ≤ reference.schemaVersion
  generatorVersion : reference.generatorVersion ≠ []
  symbols : ∀ module_ ∈ reference.modules, ∀ symbol ∈ module_.symbols, symbol.IsComplete

/-- The fields of a written reference. -/
def Reference.toFields (reference : Reference) : Fields :=
  [("schemaVersion", .int reference.schemaVersion),
    ("generatorVersion", .str reference.generatorVersion),
    ("luauVersion", .ofText? reference.luauVersion),
    ("modules", .arr (reference.modules.map fun module_ => .obj module_.toFields))]

theorem Reference.toJson_eq (reference : Reference) : reference.toJson = .obj reference.toFields :=
  rfl

/-- A reference of the current version is not upgraded. -/
theorem upgrade_toFields {reference : Reference} (current : 1 ≤ reference.schemaVersion) :
    upgrade reference.toFields = .ok reference.toFields := by
  have kept : isCurrent reference.toFields = true := decide_eq_true current
  rw [upgrade, if_pos kept]

theorem Reference.ofFields_toFields {reference : Reference} (complete : reference.IsComplete) :
    Reference.ofFields reference.toFields = .ok reference := by
  have nonzero : reference.schemaVersion ≠ 0 := by
    have current := complete.schemaVersion
    omega
  have luauVersion : (match Json.ofText? reference.luauVersion with
      | .null => none
      | value => some value.text) = reference.luauVersion := by
    cases reference.luauVersion <;> rfl
  show ((Json.int reference.schemaVersion).asIntOr LuauReference.schemaVersion >>= fun version =>
    (Json.arr (reference.modules.map fun module_ => .obj module_.toFields)).objectsOrNone >>=
      fun items => items.mapM Module.ofFields >>= fun modules =>
        pure (⟨(Json.str reference.generatorVersion).textOr "0.0.0", modules,
          match Json.ofText? reference.luauVersion with
          | .null => none
          | value => some value.text, version⟩ : Reference)) = .ok reference
  rw [Json.asIntOr_int_of_ne_zero _ nonzero, Json.objectsOrNone_map,
    Json.textOr_str_of_ne_nil _ complete.generatorVersion, luauVersion]
  show ((reference.modules.map Module.toFields).mapM Module.ofFields >>= fun modules =>
    pure (⟨reference.generatorVersion, modules, reference.luauVersion,
      reference.schemaVersion⟩ : Reference)) = .ok reference
  rw [mapM_ofFields fun module_ member =>
    Module.ofFields_toFields (complete.symbols module_ member)]
  rfl

/-! ### Plain references -/

/-- Whether JSON gives back all that a symbol holds: its numbers, the values and descriptions of its
tags, and the structure of its type. -/
structure Symbol.IsPlain (symbol : Symbol) : Prop where
  line : (Json.int symbol.location.line).IsPlain
  column : (Json.int symbol.location.column).IsPlain
  tags : ∀ tag ∈ symbol.docs.tags, tag.value.IsPlain ∧ tag.description.IsPlain
  structured : ∀ fields ∈ symbol.types.structured, (Json.obj fields).IsPlain

/-- Whether JSON gives back all that a reference holds. -/
structure Reference.IsPlain (reference : Reference) : Prop where
  schemaVersion : (Json.int reference.schemaVersion).IsPlain
  symbols : ∀ module_ ∈ reference.modules, ∀ symbol ∈ module_.symbols, symbol.IsPlain

namespace Json

theorem isPlain_str (s : Text) : (str s).IsPlain := by
  rw [IsPlain]
  trivial

theorem isPlain_ofText? (s : Option Text) : (ofText? s).IsPlain := by
  cases s <;> simp [ofText?, IsPlain]

/-- A list of objects is plain when each of them is. -/
theorem isPlain_arr_map {α : Type} {fieldsOf : α → Fields} {items : List α}
    (each : ∀ item ∈ items, (obj (fieldsOf item)).IsPlain) :
    (arr (items.map fun item => obj (fieldsOf item))).IsPlain := by
  rw [IsPlain, arePlainItems_iff]
  intro value member
  obtain ⟨item, inside, rfl⟩ := List.mem_map.mp member
  exact each item inside

/-- An object is plain when its names are distinct and its values are plain. -/
theorem isPlain_obj {fields : Fields} (distinct : (Named.names fields).Nodup)
    (each : ∀ field ∈ fields, field.2.IsPlain) : (obj fields).IsPlain := by
  rw [IsPlain, arePlainFields_iff]
  exact ⟨distinct, each⟩

end Json

theorem SymbolTag.isPlain_toFields {tag : SymbolTag} (value : tag.value.IsPlain)
    (description : tag.description.IsPlain) : (Json.obj tag.toFields).IsPlain := by
  obtain ⟨name, content, text⟩ := tag
  have distinct : (["name", "value", "description"] : List String).map String.toList |>.Nodup := by
    decide
  cases text with
  | null =>
    refine Json.isPlain_obj (List.Nodup.sublist (List.sublist_append_left _ _) distinct) ?_
    exact List.forall_mem_cons.mpr ⟨Json.isPlain_str name,
      List.forall_mem_cons.mpr ⟨value, List.forall_mem_nil _⟩⟩
  | _ =>
    refine Json.isPlain_obj distinct ?_
    exact List.forall_mem_cons.mpr ⟨Json.isPlain_str name,
      List.forall_mem_cons.mpr ⟨value, List.forall_mem_cons.mpr ⟨description,
        List.forall_mem_nil _⟩⟩⟩

theorem SymbolDocs.isPlain_toFields {docs : SymbolDocs}
    (tags : ∀ tag ∈ docs.tags, tag.value.IsPlain ∧ tag.description.IsPlain) :
    (Json.obj docs.toFields).IsPlain := by
  have each : (Json.arr (docs.tags.map fun tag => .obj tag.toFields)).IsPlain :=
    Json.isPlain_arr_map fun tag member =>
      SymbolTag.isPlain_toFields (tags tag member).1 (tags tag member).2
  refine Json.isPlain_obj (by simp [SymbolDocs.toFields]) ?_
  simp [SymbolDocs.toFields, Json.isPlain_str, each]

theorem Symbol.isPlain_toFields {symbol : Symbol} (plain : symbol.IsPlain) :
    (Json.obj symbol.toFields).IsPlain := by
  have location : (Json.obj symbol.location.toFields).IsPlain := by
    refine Json.isPlain_obj (by simp [Location.toFields]) ?_
    simp [Location.toFields, Json.isPlain_str, plain.line, plain.column]
  have structured : (match symbol.types.structured with
      | some fields => Json.obj fields
      | none => .null).IsPlain := by
    cases found : symbol.types.structured with
    | none => simp [Json.IsPlain]
    | some fields => exact plain.structured fields found
  have types : (Json.obj symbol.types.toFields).IsPlain := by
    refine Json.isPlain_obj (by simp [SymbolTypes.toFields]) ?_
    simp only [SymbolTypes.toFields, List.forall_mem_cons]
    exact ⟨Json.isPlain_str _, structured, List.forall_mem_nil _⟩
  refine Json.isPlain_obj (by simp [Symbol.toFields]) ?_
  simp [Symbol.toFields, Json.isPlain_str, location, types,
    SymbolDocs.isPlain_toFields plain.tags]

theorem Module.isPlain_toFields {module_ : Module}
    (plain : ∀ symbol ∈ module_.symbols, symbol.IsPlain) :
    (Json.obj module_.toFields).IsPlain := by
  have each : (Json.arr (module_.symbols.map fun symbol => .obj symbol.toFields)).IsPlain :=
    Json.isPlain_arr_map fun symbol member => Symbol.isPlain_toFields (plain symbol member)
  refine Json.isPlain_obj (by simp [Module.toFields]) ?_
  simp [Module.toFields, Json.isPlain_str, each]

theorem Reference.isPlain_toFields {reference : Reference} (plain : reference.IsPlain) :
    (Json.obj reference.toFields).IsPlain := by
  have each : (Json.arr (reference.modules.map fun module_ => .obj module_.toFields)).IsPlain :=
    Json.isPlain_arr_map fun module_ member =>
      Module.isPlain_toFields (plain.symbols module_ member)
  refine Json.isPlain_obj (by simp [Reference.toFields]) ?_
  simp [Reference.toFields, Json.isPlain_str, Json.isPlain_ofText?, plain.schemaVersion, each]

/-! ### Reading undoes writing -/

/-- A text that JSON reads as the value of a complete reference is read as that reference. -/
theorem Reference.read_of_json {reference : Reference} {raw : Text}
    (complete : reference.IsComplete)
    (value : Json.read raw = .ok reference.toJson) : Reference.read raw = .ok reference := by
  rw [Reference.read, value, Reference.toJson_eq]
  show (upgrade reference.toFields >>= Reference.ofFields) = .ok reference
  rw [upgrade_toFields complete.schemaVersion]
  exact Reference.ofFields_toFields complete

/-- A complete reference is read back from its text. -/
theorem Reference.read_write {reference : Reference} (complete : reference.IsComplete)
    (plain : reference.IsPlain) : Reference.read reference.write = .ok reference :=
  Reference.read_of_json complete (Json.read_document (Reference.isPlain_toFields plain))

/-- A reference in which everything that may fail to count as set does so: names are empty, a tag
has the value false and a description that is an empty object, a line is zero and a version is
empty. -/
def Reference.unset : Reference where
  generatorVersion := "0"
  luauVersion := some []
  modules := [⟨[], [], [], [{
    kind := "field"
    name := []
    qualified := []
    location := ⟨[], 0, -3⟩
    docs := ⟨[], [], [⟨[], .bool false, .obj []⟩, ⟨"since", .null, .null⟩,
      ⟨"value", .obj [("a", .arr [.int 0, .float (.infinite true), .str "\u2028"])], .bool true⟩]⟩
    types := ⟨[], some [("type", .null), ("", .obj [])]⟩
    visibility := "ignored" }]⟩]

theorem Reference.read_write_unset : Reference.unset.IsComplete ∧ Reference.unset.IsPlain ∧
    Reference.read Reference.unset.write = .ok Reference.unset := by
  have complete : Reference.unset.IsComplete := by
    refine ⟨by decide, by decide, ?_⟩
    simp only [Reference.unset, List.forall_mem_singleton]
    exact ⟨by decide, by decide, Or.inr rfl, by decide⟩
  have plain : Reference.unset.IsPlain := by
    refine ⟨rfl, ?_⟩
    simp only [Reference.unset, List.forall_mem_singleton]
    refine ⟨rfl, rfl, ?_, ?_⟩
    · simp [Json.IsPlain, Json.ArePlainItems, Json.ArePlainFields]
      rfl
    · simp [Json.IsPlain, Json.ArePlainFields]
  exact ⟨complete, plain, Reference.read_write complete plain⟩

end LuauReference
