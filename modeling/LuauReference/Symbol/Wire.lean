/-
This file turns symbols and references into JSON values and back. Writing names every field. Reading
is generous: a field that is missing or does not count as set takes its default, texts are made from
values of any kind, and items that are no objects are passed over. It fails only where a value
cannot be looked at as an object, a list or a whole number.
-/

import LuauReference.Json.Reader
import LuauReference.Json.Writer
import LuauReference.Symbol.Basic

namespace LuauReference

/-! ### Symbols -/

/-- A location as a value. -/
def Location.toJson (location : Location) : Json :=
  .obj [("file", .str location.file), ("line", .int location.line),
    ("column", .int location.column)]

/-- A location from the fields of an object. -/
def Location.ofFields (fields : Fields) : Except Failure Location := do
  let line ← (fields.getD "line").asIntOr 0
  let column ← (fields.getD "column").asIntOr 1
  pure ⟨(fields.getD "file").textOr [], line, column⟩

/-- A tag as a value; a missing description is left out. -/
def SymbolTag.toJson (tag : SymbolTag) : Json :=
  let description := match tag.description with
    | .null => []
    | description => [("description".toList, description)]
  .obj ([("name".toList, .str tag.name), ("value".toList, tag.value)] ++ description)

/-- A tag from the fields of an object. A missing value is true. -/
def SymbolTag.ofFields (fields : Fields) : SymbolTag :=
  ⟨(fields.getD "name").textOr [], (fields.get? "value").getD (.bool true),
    fields.getD "description"⟩

/-- Documentation as a value. -/
def SymbolDocs.toJson (docs : SymbolDocs) : Json :=
  .obj [("summary", .str docs.summary), ("descriptionMarkdown", .str docs.description),
    ("tags", .arr (docs.tags.map SymbolTag.toJson))]

/-- Documentation from the fields of an object. -/
def SymbolDocs.ofFields (fields : Fields) : Except Failure SymbolDocs := do
  let tags ← (fields.getD "tags").objectsOrNone
  pure ⟨(fields.getD "summary").textOr [], (fields.getD "descriptionMarkdown").textOr [],
    tags.map SymbolTag.ofFields⟩

/-- A type as a value. -/
def SymbolTypes.toJson (types : SymbolTypes) : Json :=
  let structured := match types.structured with
    | some fields => Json.obj fields
    | none => .null
  .obj [("display", .str types.display), ("structured", structured)]

/-- A type from the fields of an object. A structure that is no object is dropped. -/
def SymbolTypes.ofFields (fields : Fields) : SymbolTypes :=
  ⟨(fields.getD "display").textOr [], (fields.getD "structured").fields?⟩

/-- A symbol as a value. -/
def Symbol.toJson (symbol : Symbol) : Json :=
  .obj [("kind", .str symbol.kind), ("name", .str symbol.name),
    ("qualifiedName", .str symbol.qualified), ("location", symbol.location.toJson),
    ("docs", symbol.docs.toJson), ("types", symbol.types.toJson),
    ("visibility", .str symbol.visibility)]

/-- A symbol from the fields of an object. -/
def Symbol.ofFields (fields : Fields) : Except Failure Symbol := do
  let name := (fields.getD "name").textOr []
  let location ← (fields.getD "location").asObjectOrNone >>= Location.ofFields
  let docs ← (fields.getD "docs").asObjectOrNone >>= SymbolDocs.ofFields
  let types ← SymbolTypes.ofFields <$> (fields.getD "types").asObjectOrNone
  pure {
    kind := (fields.getD "kind").textOr "module"
    name := name
    qualified := (fields.getD "qualifiedName").textOr name
    location := location
    docs := docs
    types := types
    visibility := (fields.getD "visibility").textOr "public" }

/-! ### References -/

/-- A module as a value. -/
def Module.toJson (module_ : Module) : Json :=
  .obj [("id", .str module_.id), ("path", .str module_.path),
    ("sourceHash", .str module_.sourceHash), ("symbols", .arr (module_.symbols.map Symbol.toJson))]

/-- A module from the fields of an object. -/
def Module.ofFields (fields : Fields) : Except Failure Module := do
  let items ← (fields.getD "symbols").objectsOrNone
  let symbols ← items.mapM Symbol.ofFields
  pure ⟨(fields.getD "id").textOr [], (fields.getD "path").textOr [],
    (fields.getD "sourceHash").textOr [], symbols⟩

/-- A reference as a value. -/
def Reference.toJson (reference : Reference) : Json :=
  .obj [("schemaVersion", .int reference.schemaVersion),
    ("generatorVersion", .str reference.generatorVersion),
    ("luauVersion", .ofText? reference.luauVersion),
    ("modules", .arr (reference.modules.map Module.toJson))]

/-- A reference from the fields of an object. -/
def Reference.ofFields (fields : Fields) : Except Failure Reference := do
  let version ← (fields.getD "schemaVersion").asIntOr LuauReference.schemaVersion
  let items ← (fields.getD "modules").objectsOrNone
  let modules ← items.mapM Module.ofFields
  let luauVersion := match fields.getD "luauVersion" with
    | .null => none
    | value => some value.text
  pure ⟨(fields.getD "generatorVersion").textOr "0.0.0", modules, luauVersion, version⟩

/-! ### Older documents -/

/-- A symbol of an older document, with the fields that it could leave out. -/
def upgradeSymbol (fields : Fields) : Fields :=
  let name := fields.getD "name"
  let fields := fields.setDefault "qualifiedName" (if name.isTruthy then name else .str [])
  fields.setDefault "visibility" (.str "public")

/-- A module of an older document with its symbols brought up to date. -/
def upgradeModule (fields : Fields) : Except Failure Fields := do
  let symbols ← (fields.getD "symbols").objectsOrNone
  pure (fields.set "symbols" (.arr (symbols.map fun symbol => .obj (upgradeSymbol symbol))))

/-- Whether a document says that its format is current. -/
def isCurrent (fields : Fields) : Bool :=
  match fields.getD "schemaVersion" with
  | .int version => schemaVersion ≤ version
  | .bool version => version
  | _ => false

/-- A document with a missing or older version, brought up to date. A current one is kept as it
is. -/
def upgrade (fields : Fields) : Except Failure Fields :=
  if isCurrent fields then
    .ok fields
  else do
    let items ← (fields.getD "modules").objectsOrNone
    let modules ← items.mapM upgradeModule
    let fields := fields.set "schemaVersion" (.int schemaVersion)
    let fields := fields.setDefault "luauVersion" .null
    pure (fields.set "modules" (.arr (modules.map .obj)))

/-! ### Text -/

/-- The reference that a text holds. -/
def Reference.read (raw : Text) : Except Failure Reference :=
  match Json.read raw with
  | .error .malformed => .error (.document (.malformed "no JSON value"))
  | .error .numeralTooLong => .error .badValue
  | .ok (.obj fields) => upgrade fields >>= Reference.ofFields
  | .ok _ => .error (.document .rootNotObject)

/-- The text of a reference. -/
def Reference.write (reference : Reference) : Text :=
  reference.toJson.document

end LuauReference
