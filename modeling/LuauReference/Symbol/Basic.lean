/-
This file holds symbols, the documented entities of a reference, and their qualified names. A symbol
carries texts that may come from any document, so its kind and its visibility are texts, and the
values of its tags and the structure of its type are JSON values.
-/

import LuauReference.Json.Basic

namespace LuauReference

/-! ### Qualified names -/

/-- The name of a member with its owner in front: a colon stands between them for a method and a dot
for all else. -/
def qualifiedName (within : Option Text) (name : Text) (isMethod : Bool) : Text :=
  match within with
  | none => name
  | some owner =>
    if owner.isEmpty then name else owner ++ (if isMethod then ':' else '.') :: name

/-- The owner, the name and the kind of a qualified name: cut at the first colon, or at the last dot
when there is no colon. -/
def splitQualifiedName (qualified : Text) : Option Text × Text × Bool :=
  match Text.cut? ":" qualified with
  | some (owner, name) => (some owner, name, true)
  | none =>
    match Text.cutLast? '.' qualified with
    | some (owner, name) => (some owner, name, false)
    | none => (none, qualified, false)

/-! ### Symbols -/

/-- Where a symbol is declared. -/
structure Location where
  file : Text
  line : Int
  column : Int := 1
  deriving DecidableEq, Repr

/-- The location of a line of code: its column is that of the first character that is not blank. -/
def Location.ofLine (file : Text) (number : Int) (line : Text) : Location :=
  let body := Text.trimStart line
  let column := if body.isEmpty then 1 else line.length - body.length + 1
  ⟨file, number, column⟩

/-- A tag of a symbol. Null is the description of a tag that has none. -/
structure SymbolTag where
  name : Text
  value : Json := .bool true
  description : Json := .null

/-- The documentation of a symbol. -/
structure SymbolDocs where
  summary : Text := []
  description : Text := []
  tags : List SymbolTag := []

/-- The values of the tags with a name, as far as they count as set. -/
def SymbolDocs.tagValues (docs : SymbolDocs) (name : Text) : List Json :=
  docs.tags.filterMap fun tag => if tag.name = name then tag.value.truthy? else none

/-- The type of a symbol: a text and, when it is known, its structure. -/
structure SymbolTypes where
  display : Text := []
  structured : Option Fields := none

/-- The structure of a type, empty when it is not known. -/
def SymbolTypes.fields (types : SymbolTypes) : Fields :=
  types.structured.getD []

/-- A documented entity of a reference. -/
structure Symbol where
  kind : Text
  name : Text
  qualified : Text
  location : Location
  docs : SymbolDocs := {}
  types : SymbolTypes := {}
  visibility : Text := "public"

/-- The text that stands for a symbol when its qualified name may be empty. -/
def Symbol.fullName (symbol : Symbol) : Text :=
  if symbol.qualified.isEmpty then symbol.name else symbol.qualified

/-- The text under which a symbol is shown. -/
def Symbol.shownName (symbol : Symbol) : Text :=
  if symbol.name.isEmpty then symbol.qualified else symbol.name

/-! ### Documents -/

/-- The symbols of one source file. -/
structure Module where
  id : Text
  path : Text
  sourceHash : Text
  symbols : List Symbol := []

/-- The version of the document format. -/
def schemaVersion : Int := 1

/-- All symbols of a project, module by module. -/
structure Reference where
  generatorVersion : Text
  modules : List Module := []
  luauVersion : Option Text := none
  schemaVersion : Int := schemaVersion

/-- All symbols of a reference, in order. -/
def Reference.symbols (reference : Reference) : List Symbol :=
  reference.modules.flatMap Module.symbols

end LuauReference
