/-
This file makes the symbols of a source file. Every documentation block outside of table types is
read, the declaration after it is looked up when the block does not say what it documents, and the
two together decide the kind, the name and the owner of the symbol. Owners come from, in this order,
the block, the declaration and the file when it has exactly one class. What cannot be owned is
reported and still makes a symbol.
-/

import LuauReference.Declaration.Reader
import LuauReference.Doc.Reader
import LuauReference.Symbol.Basic
import LuauReference.Symbol.Diagnostic

namespace LuauReference

namespace Assembly

/-! ### Types -/

/-- A parameter, result, error or field with everything that is known about it. -/
structure Described where
  name : Option Text
  type : Option Text
  description : Option Text

/-- The fields under which a described thing is kept. -/
def Described.toJson (item : Described) : Json :=
  let name := item.name.toList.map fun name => ("name".toList, Json.str name)
  .obj (name ++ [("type".toList, .ofText? item.type),
    ("description".toList, .ofText? item.description)])

/-- A documented entry, with a type to fall back on. -/
def Described.ofEntry (fallback : Option Text) (entry : Doc.Entry) : Described :=
  ⟨entry.name, entry.type <|> fallback, entry.description⟩

/-- A parameter with its type. -/
def paramText (name : Text) (type : Option Text) : Text :=
  match type with
  | some type => name ++ ": ".toList ++ type
  | none => name

/-- The type of a function on one line. -/
def functionText (params : List (Text × Option Text)) (returns : List (Option Text)) : Text :=
  let inner := Text.join ", " (params.map fun (name, type) => paramText name type)
  let result := Text.join ", " (returns.map (·.getD "any".toList))
  '(' :: inner ++ ')' :: (if result.isEmpty then [] else " -> ".toList ++ result)

/-- The type of a function on one line, from parameters and results that are objects. -/
def functionTextOf (params returns : List Fields) : Except Failure Text := do
  let params ← params.mapM fun fields =>
    match fields.get? "name" with
    | some name => pure (name.text, (fields.getD "type").truthy?.map Json.text)
    | none => .error (.missingField "name")
  let returns ← returns.mapM fun fields =>
    match (fields.getD "type").truthy? with
    | none => pure none
    | some (.str type) => pure (some type)
    | some _ => .error .wrongKind
  pure (functionText params returns)

/-- The declared type of a parameter: of two with one name the last counts. -/
def declaredType (params : List Declaration.Param) (name : Text) : Option Text :=
  (params.reverse.find? fun param => param.name = name).bind Declaration.Param.type

/-- The parameters of a function without the receiver of a method. -/
def ownParams (signature : Option Declaration.Signature) (isMethod : Bool) :
    List Declaration.Param :=
  let params := (signature.map Declaration.Signature.params).getD []
  match params with
  | first :: rest => if isMethod && first.name == "self".toList then rest else params
  | [] => []

/-- The type of a function: the documented parameters and results count before the declared ones,
which lend them their types. -/
def functionTypes (record : Doc.Record) (signature : Option Declaration.Signature)
    (isMethod : Bool) : SymbolTypes :=
  let declared := ownParams signature isMethod
  let params : List Described :=
    if record.params.isEmpty then
      declared.map fun param => ⟨some param.name, param.type, none⟩
    else
      record.params.map fun entry =>
        .ofEntry (declaredType declared (entry.name.getD [])) entry
  let returns : List Described :=
    if record.returns.isEmpty then
      (signature.bind Declaration.Signature.returnType).toList.map fun type =>
        ⟨none, some type, none⟩
    else
      record.returns.map (.ofEntry none)
  let errors := record.errors.map (Described.ofEntry none)
  ⟨functionText (params.map fun item => (item.name.getD [], item.type))
      (returns.map Described.type),
    some [("params", .arr (params.map Described.toJson)),
      ("returns", .arr (returns.map Described.toJson)),
      ("errors", .arr (errors.map Described.toJson)),
      ("yields", .bool record.marks.yields)]⟩

/-- The type that the first declaration of a kind in a block gives. -/
def declaredTypeOf (record : Doc.Record) (kind : Doc.Kind) : Option Text :=
  (record.declared.find? fun declared => declared.kind = kind).bind Doc.Declared.type

/-- The type of a property. -/
def propertyTypes (record : Doc.Record) : SymbolTypes :=
  let type := declaredTypeOf record .property
  ⟨type.getD [], some [("type", .ofText? type), ("readonly", .bool record.marks.readonly)]⟩

/-- The type of an interface: its documented fields. -/
def interfaceTypes (record : Doc.Record) : SymbolTypes :=
  let fields := record.fields.map fun field =>
    Described.toJson ⟨some field.name, field.type, field.description⟩
  ⟨[], some [("fields", .arr fields)]⟩

/-- The type of a type: the documented one, and the fields of the declared table. -/
def typeTypes (record : Doc.Record) (fields : Option (List Declaration.TableField)) :
    SymbolTypes :=
  let type := declaredTypeOf record .type
  let items := (fields.getD []).map fun field =>
    Described.toJson ⟨some field.name, field.type, field.description⟩
  ⟨type.getD [], some (("type".toList, Json.ofText? type) ::
    (if items.isEmpty then [] else [("fields".toList, .arr items)]))⟩

/-- The type of a class. -/
def classTypes (record : Doc.Record) : SymbolTypes :=
  ⟨[], some [("indexName", .ofText? record.marks.indexName)]⟩

/-! ### Documentation -/

/-- A tag with a text as its value. -/
def textTag (name value : Text) : SymbolTag :=
  { name := name, value := .str value }

/-- A tag that is there or not. -/
def flagTag (name : Text) (present : Bool) : List SymbolTag :=
  if present then [{ name := name }] else []

/-- The tags of a symbol, grouped by what they say. -/
def tagsOf (record : Doc.Record) : List SymbolTag :=
  let marks := record.marks
  record.labels.map (textTag "tag")
    ++ marks.categories.map (textTag "category")
    ++ marks.since.toList.map (textTag "since")
    ++ marks.deprecated.toList.map (fun deprecation =>
      ⟨"deprecated", .ofText? deprecation.version, .ofText? deprecation.description⟩)
    ++ flagTag "unreleased" marks.unreleased
    ++ flagTag "event" marks.event
    ++ flagTag "callback" marks.callback
    ++ marks.extends_.map (textTag "extends")
    ++ record.realms.map (fun realm => { name := realm.word })
    ++ record.externals.map
      (fun external => textTag "external" (external.name ++ ' ' :: external.url))
    ++ marks.aliases.map (textTag "alias")
    ++ marks.includes.map (textTag "include")
    ++ marks.snippets.map (textTag "snippet")
    ++ marks.inheritDoc.toList.map (textTag "inheritDoc")

/-- The documentation of a symbol. -/
def docsOf (record : Doc.Record) : SymbolDocs :=
  let (summary, description) := Doc.summarize record.description
  ⟨summary, description, tagsOf record⟩

/-! ### What a block documents -/

/-- What a block documents, as far as it is known. -/
structure Subject where
  kind : Option Doc.Kind
  name : Option Text
  within : Option Text
  isMethod : Bool

/-- The kind of a declaration. -/
def kindOf (declaration : Declaration) : Doc.Kind :=
  match declaration.shape with
  | .function _ => .function
  | .property .. => .property
  | .type .. => .type
  | .class_ _ => .class

/-- Whether a declaration is a method. -/
def isMethodOf (declaration : Declaration) : Bool :=
  match declaration.signature? with
  | some signature => signature.isMethod
  | none => false

/-- Whether things of a kind belong to a class. -/
def isOwned : Option Doc.Kind → Bool
  | some .function => true
  | some .property => true
  | some .constructor => true
  | _ => false

/-- The kind, the name and whether it is a method, before the owner is known. -/
def identify (record : Doc.Record) (declaration : Option Declaration) :
    Option Doc.Kind × Option Text × Bool :=
  match record.primary with
  | some declared =>
    let name := Doc.nonEmpty? declared.name
    let isFunction := declared.kind == .function
    let same := match declaration.bind Declaration.signature? with
      | some signature =>
        isFunction && (name.isNone || name == some signature.name) && signature.isMethod
      | none => false
    (some declared.kind, name <|> (declaration.bind fun d => Doc.nonEmpty? d.name),
      isFunction && (declared.isMethod || same))
  | none =>
    match declaration with
    | some declaration =>
      (some (kindOf declaration), Doc.nonEmpty? declaration.name, isMethodOf declaration)
    | none => (none, none, false)

/-- The owner: the documented one, the declared one, or the only class of the file for what needs an
owner. -/
def ownerOf (record : Doc.Record) (declaration : Option Declaration) (classNames : List Text)
    (kind : Option Doc.Kind) : Option Text :=
  record.marks.within <|> ((declaration.bind Declaration.within?).bind Doc.nonEmpty?) <|>
    match classNames with
    | [only] => if isOwned kind then some only else none
    | _ => none

/-- What a block documents. A function with the name of a constructor is one when it has an owner
and is no method. -/
def subjectOf (record : Doc.Record) (declaration : Option Declaration) (classNames : List Text) :
    Subject :=
  let (kind, name, isMethod) := identify record declaration
  let within := ownerOf record declaration classNames kind
  let builds := kind == some .function && name == some "new".toList && within.isSome && !isMethod
  ⟨if builds then some .constructor else kind, name, within, isMethod⟩

/-- The report on an owner that is missing. -/
def ownerDiagnostics (file : Text) (line : Nat) (classNames : List Text) (kind : Option Doc.Kind)
    (within : Option Text) : List Diagnostic :=
  if within.isNone && isOwned kind then
    if classNames.isEmpty then
      [.error file line Diagnostic.missingClass]
    else
      [.warning file line Diagnostic.ambiguousOwner]
  else
    []

/-- Whether two lists have the same members. -/
def sameMembers (xs ys : List Text) : Bool :=
  xs.all (List.elem · ys) && ys.all (List.elem · xs)

/-- The report on documented parameters that are not the declared ones. Parameters without a type
are not compared. -/
def signatureDiagnostics (file : Text) (line : Nat) (record : Doc.Record)
    (declaration : Option Declaration) : List Diagnostic :=
  match declaration.bind Declaration.signature? with
  | none => []
  | some signature =>
    let typed := record.params.any fun entry =>
      match entry.type with
      | some type => !(Text.trim type).isEmpty && Text.trim type != "any".toList
      | none => false
    let documented := record.params.map fun entry => entry.name.getD []
    let declared := (signature.params.map Declaration.Param.name).filter (· != "self".toList)
    if typed && !sameMembers documented declared then
      [.warning file line Diagnostic.paramMismatch]
    else
      []

/-! ### Symbols of a block -/

/-- The line with a number, empty when there is none. -/
def lineAt (lines : List Text) (number : Nat) : Text :=
  if number = 0 then [] else lines.getD (number - 1) []

/-- The symbol of a field of a table type or interface. -/
def fieldSymbol (owner : Text) (field : Declaration.TableField) (location : Location)
    (visibility : Text) : Symbol :=
  let description := field.description.getD []
  { kind := "field"
    name := field.name
    qualified := owner ++ '.' :: field.name
    location := location
    docs := ⟨Text.firstLine description, description, []⟩
    types := ⟨field.type.getD [], some [("type", .ofText? field.type)]⟩
    visibility := visibility }

/-- The type of a symbol of a kind. -/
def typesOf (kind : Doc.Kind) (record : Doc.Record) (declaration : Option Declaration)
    (isMethod : Bool) : SymbolTypes :=
  match kind with
  | .function | .constructor =>
    functionTypes record (declaration.bind Declaration.signature?) isMethod
  | .property => propertyTypes record
  | .interface => interfaceTypes record
  | .type => typeTypes record (declaration.bind Declaration.tableFields?)
  | .class => classTypes record

/-- The symbols of the fields of a symbol. -/
def fieldSymbols (kind : Doc.Kind) (name : Text) (record : Doc.Record)
    (declaration : Option Declaration) (lines : List Text) (file : Text) (location : Location)
    (visibility : Text) : List Symbol :=
  match kind with
  | .type =>
    ((declaration.bind Declaration.tableFields?).getD []).map fun field =>
      let place := match field.line with
        | some number => if number = 0 then location else .ofLine file number (lineAt lines number)
        | none => location
      fieldSymbol name field place visibility
  | .interface =>
    (record.fields.filter fun field => !field.name.isEmpty).map fun field =>
      fieldSymbol name ⟨field.name, field.type, field.description, none⟩ location visibility
  | _ => []

/-- The symbols of a block and what is to be reported about it. -/
def blockSymbols (record : Doc.Record) (block : Comment.Block) (declaration : Option Declaration)
    (lines : List Text) (file : Text) (classNames : List Text) : List Symbol × List Diagnostic :=
  let subject := subjectOf record declaration classNames
  let unowned := ownerDiagnostics file block.firstLine classNames subject.kind subject.within
  match subject.kind, subject.name with
  | some kind, some name =>
    let misuse :=
      if record.marks.readonly && kind != .property then
        [Diagnostic.warning file block.firstLine Diagnostic.readonlyMisuse]
      else
        []
    let location := match declaration with
      | some found => Location.ofLine file found.lineNumber found.line
      | none => Location.ofLine file block.firstLine (lineAt lines block.firstLine)
    let visibility := match record.marks.visibility with
      | some level => level.word
      | none => "public"
    let symbol : Symbol :=
      { kind := kind.word
        name := name
        qualified := qualifiedName subject.within name subject.isMethod
        location := location
        docs := docsOf record
        types := typesOf kind record declaration subject.isMethod
        visibility := visibility }
    (symbol :: fieldSymbols kind name record declaration lines file location visibility,
      unowned ++ misuse)
  | _, _ => ([], unowned)

/-! ### Symbols of a file -/

/-- The blocks outside of table types, with their records. -/
def recordsOf (lines : List Text) : List (Comment.Block × Doc.Record) :=
  let ranges := Declaration.tableRanges lines
  let outside := (Comment.blocks lines).filter fun block =>
    !ranges.any fun (first, last) => first ≤ block.firstLine && block.firstLine ≤ last
  outside.map fun block => (block, Doc.read block.content)

/-- The names of the classes that a record declares. -/
def classesOf (record : Doc.Record) : List Text :=
  record.declared.filterMap fun declared =>
    if declared.kind = .class then Doc.nonEmpty? declared.name else none

/-- The class that the placeholder owner stands for after a record. -/
def currentClass (before : Option Text) (record : Doc.Record) : Option Text :=
  (classesOf record).getLast? <|> before

/-- A record with the placeholder owner replaced. -/
def resolvePlaceholder (current : Option Text) (record : Doc.Record) : Doc.Record :=
  if record.marks.within = some Doc.ownerPlaceholder then
    { record with marks := { record.marks with within := current } }
  else
    record

/-- The declaration that belongs to a record. It is looked up only for a block that declares nothing
or a function. -/
def declarationFor? (lines : List Text) (block : Comment.Block) (record : Doc.Record) :
    Option Declaration :=
  match record.primary with
  | none => Declaration.afterBlock? lines block
  | some declared =>
    if declared.kind = .function then Declaration.afterBlock? lines block else none

/-- The symbols and reports of the given records, with the class declared last before them. -/
def assembleRecords (lines : List Text) (file : Text) (classNames : List Text) :
    Option Text → List (Comment.Block × Doc.Record) → List Symbol × List Diagnostic
  | _, [] => ([], [])
  | before, (block, record) :: rest =>
    let current := currentClass before record
    let record := resolvePlaceholder current record
    let declaration := declarationFor? lines block record
    let (symbols, diagnostics) := blockSymbols record block declaration lines file classNames
    let mismatch := signatureDiagnostics file block.firstLine record declaration
    let (moreSymbols, moreDiagnostics) := assembleRecords lines file classNames current rest
    (symbols ++ moreSymbols, diagnostics ++ mismatch ++ moreDiagnostics)

end Assembly

/-- The symbols of the lines of a file, in order, and what is to be reported about them. -/
def assemble (lines : List Text) (file : Text) : List Symbol × List Diagnostic :=
  let records := Assembly.recordsOf lines
  let classNames := (records.flatMap fun (_, record) => Assembly.classesOf record).eraseDups
  Assembly.assembleRecords lines file classNames none records

end LuauReference
