/-
This file lays out the page of a class: a summary with a table for each section, then the sections
with one part per member. The summary and the sections go through the same members in the same
order, so each row of the summary links to its part.
-/

import LuauReference.Doc.Basic
import LuauReference.Page.Fence
import LuauReference.Page.Signature

namespace LuauReference

namespace Page

/-! ### Parts that all symbols have -/

/-- The objects in a list of a structure; empty when the field is no list. -/
def entriesOf (fields : Fields) (name : Text) : List Fields :=
  match fields.getD name with
  | .arr items => items.filterMap Json.fields?
  | _ => []

/-- The notice that a symbol should no longer be used. -/
def deprecation (settings : PageSettings) (tag : SymbolTag) : Block :=
  let version := match tag.value with
    | .bool true => []
    | value => value.truthy?.toList.map fun value =>
      Inline.text (" (".toList ++ value.text ++ [')'])
  let description := tag.description.truthy?.toList.map fun value =>
    Inline.text (": ".toList ++ value.text)
  .paragraph (.strong (settings.label "deprecatedBadge") :: version ++ description)

/-- A badge that is shown or not. -/
def badgeIf (shown : Bool) (label : Text) : List Inline :=
  if shown then [.strong label] else []

/-- The line of badges of a symbol and the notices under it. -/
def badges (settings : PageSettings) (symbol : Symbol) (primary : Text) : List Block :=
  let structured := symbol.types.fields
  let realms := Doc.Realm.all.flatMap fun realm =>
    badgeIf (!(symbol.docs.tagValues realm.word).isEmpty) realm.title
  let since := ((symbol.docs.tagValues "since").head?).toList.map fun value =>
    Inline.text (settings.label "since" ++ ' ' :: value.text)
  let line := .strong primary :: realms
    ++ badgeIf (structured.getD "readonly").isTruthy (settings.label "readonlyBadge")
    ++ badgeIf (structured.getD "yields").isTruthy (settings.label "yieldsBadge")
    ++ badgeIf (symbol.visibility == "private".toList) (settings.label "privateBadge")
    ++ badgeIf (!(symbol.docs.tagValues "unreleased").isEmpty) (settings.label "unreleasedBadge")
    ++ since
  let notices := symbol.docs.tags.filter fun tag => tag.name == "deprecated".toList
  .paragraph (Inline.join " · " line) :: notices.map (deprecation settings)

/-- The link to the source of a symbol. -/
def sourceLink (settings : PageSettings) (symbol : Symbol) : List Block :=
  (sourceUrl? symbol.location settings.source).toList.map fun url =>
    .paragraph [.link (settings.label "source") url]

/-- The description of a symbol, or its summary when it has none. -/
def description (settings : PageSettings) (links : Links) (symbol : Symbol) : List Block :=
  let whole := Text.trim symbol.docs.description
  let text := if whole.isEmpty then Text.trim symbol.docs.summary else whole
  if text.isEmpty then [] else [.markdown (links.linkText (labelFences settings.lang text))]

/-- The labels of a symbol. -/
def labelList (settings : PageSettings) (symbol : Symbol) : List Block :=
  match (symbol.docs.tagValues "tag").map Json.text with
  | [] => []
  | labels =>
    [.paragraph (.text (settings.label "tags" ++ ": ".toList)
      :: Inline.join ", " (labels.map .code))]

/-! ### Members -/

/-- A type in a table: a link when it is the name of a class. A list or an object is no name. -/
def typeCell (links : Links) (value : Json) : Except Failure (List Inline) :=
  match value.truthy? with
  | none => .ok []
  | some (.str name) => .ok [if links.knows name then links.linkClass name else .code name]
  | some (.arr _) => .error .wrongKind
  | some (.obj _) => .error .wrongKind
  | some other => .ok [Inline.codeOf other]

/-- The row of a parameter or field: name, type and description. -/
def namedRow (links : Links) (item : Fields) : Except Failure (List (List Inline)) := do
  let type ← typeCell links (item.getD "type")
  pure [Inline.codeOfValue (item.getD "name"), type, Inline.ofValue (item.getD "description")]

/-- The row of a result or error: type and description. -/
def typedRow (links : Links) (item : Fields) : Except Failure (List (List Inline)) := do
  let type ← typeCell links (item.getD "type")
  pure [type, Inline.ofValue (item.getD "description")]

/-- A table of parameters or fields under its heading. -/
def namedTable (settings : PageSettings) (links : Links) (label : Text) (items : List Fields) :
    Except Failure (List Block) :=
  if items.isEmpty then
    .ok []
  else do
    let rows ← items.mapM (namedRow links)
    let headers := [settings.label "name", settings.label "type", settings.label "description"]
    pure [.heading 4 (settings.label label) none, .table headers rows]

/-- A table of results or errors under its heading. -/
def typedTable (settings : PageSettings) (links : Links) (label : Text) (items : List Fields) :
    Except Failure (List Block) :=
  if items.isEmpty then
    .ok []
  else do
    let rows ← items.mapM (typedRow links)
    let headers := [settings.label "type", settings.label "description"]
    pure [.heading 4 (settings.label label) none, .table headers rows]

/-- The tables of a member: parameters, results, errors and, for types and interfaces, fields. -/
def detailTables (settings : PageSettings) (links : Links) (member : Member) :
    Except Failure (List Block) := do
  let structured := member.symbol.types.fields
  let params ← namedTable settings links "parameters" (entriesOf structured "params")
  let returns ← typedTable settings links "returns" (entriesOf structured "returns")
  let errors ← typedTable settings links "errors" (entriesOf structured "errors")
  let showsFields := (member.bucket == .type || member.bucket == .interface)
    && member.symbol.kind != "field".toList
  let fields ← namedTable settings links "fields"
    (if showsFields then entriesOf structured "fields" else [])
  pure (params ++ returns ++ errors ++ fields)

/-- Whether a kind is that of a function. -/
def isCallable (kind : Text) : Bool :=
  kind = "function" || kind = "method" || kind = "constructor"

/-- The type of a symbol: the one in its structure, or else the one that is displayed. -/
def typeText (symbol : Symbol) : Text :=
  (symbol.types.fields.getD "type").textOr symbol.types.display

/-- The signature of a member, if it has one. -/
def signature (settings : PageSettings) (page : ClassPage) (member : Member) :
    Except Failure (Option Text) :=
  let symbol := member.symbol
  let structured := symbol.types.fields
  let (within, name, isMethod) := splitQualifiedName symbol.fullName
  let owner := match within with
    | some (c :: rest) => c :: rest
    | _ => page.name
  if isCallable symbol.kind && structured.has "params" then
    let qualified := owner ++ (if isMethod then ':' else '.') :: name
    .ok (some (functionSignature qualified (entriesOf structured "params")
      (entriesOf structured "returns") settings.signatureStyle))
  else if symbol.kind = "type" then
    some <$> typeDefinition "type" symbol.name (structured.getD "type")
      (entriesOf structured "fields")
  else if symbol.kind = "interface" then
    some <$> typeDefinition "interface" symbol.name .null (entriesOf structured "fields")
  else if symbol.kind = "property" || symbol.kind = "event" || symbol.kind = "field" then
    let type := typeText symbol
    let qualified := owner ++ '.' :: name
    .ok (some (if type.isEmpty then qualified else qualified ++ ": ".toList ++ type))
  else if symbol.types.display.isEmpty then
    .ok none
  else
    .ok (some symbol.types.display)

/-- The part of a page about a member. -/
def memberPart (settings : PageSettings) (links : Links) (page : ClassPage) (member : Member) :
    Except Failure (List Block) := do
  let symbol := member.symbol
  let badge := settings.label (member.bucket.word ++ "Badge".toList)
  let shown ← signature settings page member
  let code := shown.toList.map fun text => Block.codeBlock text (fenceLanguage settings.lang)
  let tables ← detailTables settings links member
  pure (.heading 3 symbol.shownName member.anchor :: badges settings symbol badge
    ++ sourceLink settings symbol ++ code ++ tables ++ description settings links symbol
    ++ labelList settings symbol)

/-! ### The summary -/

/-- The type of a member in the summary. -/
def summaryType (page : ClassPage) (member : Member) : Text :=
  let symbol := member.symbol
  let structured := symbol.types.fields
  if member.bucket = .constructor then page.name
  else if isCallable symbol.kind && structured.has "returns" then
    returnText (entriesOf structured "returns")
  else if symbol.kind = "type" then (structured.getD "type").textOr "type"
  else if symbol.kind = "interface" then "interface"
  else typeText symbol

/-- The row of a member in the summary. -/
def summaryRow (page : ClassPage) (member : Member) : List (List Inline) :=
  let symbol := member.symbol
  let name := match member.anchor with
    | some anchor => Inline.link symbol.shownName ('#' :: anchor)
    | none => .text symbol.shownName
  let type := summaryType page member
  [[name], if type.isEmpty then [] else [.code type], Inline.ofText symbol.docs.summary]

/-- The table of a section in the summary. -/
def summaryTable (settings : PageSettings) (page : ClassPage) (bucket : Bucket)
    (members : List Member) : List Block :=
  [.heading 3 (settings.label bucket.anchor) none,
    .table [settings.label "name", settings.label "type", settings.label "description"]
      (members.map (summaryRow page))]

/-- The summary of a class page. -/
def summary (settings : PageSettings) (links : Links) (page : ClassPage) : List Block :=
  let parents := (page.symbol.docs.tagValues "extends").map Json.text
  let extended : List Block :=
    if parents.isEmpty then
      []
    else
      [.heading 3 (settings.label "extends") none,
        .bullets (parents.map fun name => [links.linkClass name])]
  .heading 2 (settings.label "summary") (some summaryAnchor) :: extended
    ++ page.sections.flatMap fun (bucket, members) => summaryTable settings page bucket members

/-! ### The page -/

/-- A section of a class page. -/
def sectionBlocks (settings : PageSettings) (links : Links) (page : ClassPage) (bucket : Bucket)
    (members : List Member) : Except Failure (List Block) := do
  let parts ← members.mapM (memberPart settings links page)
  pure (.heading 2 (settings.label bucket.anchor) (some bucket.anchor) :: parts.flatten)

/-- The page of a class. -/
def classDocument (settings : PageSettings) (links : Links) (page : ClassPage) :
    Except Failure PageDocument := do
  let sections ← page.sections.mapM fun (bucket, members) =>
    sectionBlocks settings links page bucket members
  let symbol := page.symbol
  pure {
    path := page.path
    title := page.name
    frontMatter := [("title", .str page.name), ("sidebar_label", .str page.name)]
    blocks := .heading 1 page.name none :: badges settings symbol (settings.label "classBadge")
      ++ sourceLink settings symbol ++ description settings links symbol
      ++ labelList settings symbol ++ summary settings links page ++ sections.flatten }

end Page

end LuauReference
