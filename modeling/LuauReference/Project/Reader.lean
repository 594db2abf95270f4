/-
This file reads the settings of a project from its settings file and the names of modules from a
file beside it. Both files may be missing. A setting of the wrong kind counts as not made, except
that a number or a truth value can stand for its text; only a file that cannot be parsed and a
settings file that is no mapping are refused.
-/

import LuauReference.Json.Reader
import LuauReference.Project.Settings
import LuauReference.Run
import LuauReference.Yaml.Document

namespace LuauReference

namespace Project

/-- The name of the settings file. -/
def settingsFile : Text := ".luaudoc.yml"

/-- The name of the file with the names of modules. -/
def namesFile : Text := "docs.config.json"

/-! ### Names of modules -/

/-- The names of modules in the text of a file. -/
def moduleNamesOf (raw : Text) : Except Failure (Named Text) :=
  match Json.read raw with
  | .error _ => .error (.settings (.malformed namesFile "no JSON value"))
  | .ok value =>
    let chosen := ((value.fields?.getD []).getD "moduleIdOverrides").fields?.getD []
    .ok (Named.ofPairs
      (chosen.filterMap fun (path, name) => name.text?.map fun name => (path, name)))

/-- The names of modules that the file in a folder chooses. -/
def moduleNames (disk : Disk) (root : Path) : Except Failure (Named Text) :=
  match disk.readText (root.child namesFile) with
  | .ok raw => moduleNamesOf raw
  | .error (.disk ⟨.notFound, _⟩) => .ok []
  | .error (.disk fault) => .error (.settings (.malformed namesFile fault.message))
  | .error _ => .error (.settings (.malformed namesFile "no text"))

/-! ### Values -/

open Yaml (Value Document)

/-- The text of a setting, if it is a text, a number or a truth value. -/
def textOf? (value : Value) : Except Failure (Option Text) :=
  match value with
  | .str _ => some <$> value.text
  | .int _ => some <$> value.text
  | .float _ => some <$> value.text
  | .bool _ => some <$> value.text
  | _ => .ok none

/-- The text of a setting that must not be empty to count. -/
def fullTextOf? (value : Value) : Except Failure (Option Text) := do
  return (← textOf? value).filter fun text => !text.isEmpty

/-- The whole number of a setting, if it is one or a text that writes one. -/
def integerOf? : Value → Option Int
  | .int value => some value
  | .str value => Text.integer? value
  | _ => none

/-- The truth value of a setting, if it is one or a word for one. -/
def boolOf? : Value → Option Bool
  | .bool value => some value
  | .str value =>
    let word := Text.lower (Text.trim value)
    if List.elem word (["true", "yes", "1"].map String.toList) then some true
    else if List.elem word (["false", "no", "0"].map String.toList) then some false
    else none
  | _ => none

/-- The texts of a setting, which is a list or a single text. -/
def textsOf (document : Document) (value : Value) : Except Failure (List Text) :=
  match value with
  | .str text => .ok [text]
  | value => do
    let texts ← ((document.items? value).getD []).mapM textOf?
    pure (texts.filterMap id)

/-- The entries of a setting that is a mapping; another one has none. -/
def entriesOf (document : Document) (value : Value) : List (Value × Value) :=
  (document.entries? value).getD []

/-- The texts under the keys of a setting, for the values that have one that counts. -/
def namedTexts (document : Document) (value : Value)
    (textOf : Value → Except Failure (Option Text)) : Except Failure (Named Text) := do
  let pairs ← (entriesOf document value).mapM fun (key, value) => do
    match ← textOf value with
    | some text => return some (← key.text, text)
    | none => return none
  pure (Named.ofPairs (pairs.filterMap id))

/-- Where source links lead, if a repository is given. -/
def sourceLinksOf? (document : Document) (value : Value) : Except Failure (Option SourceLinks) := do
  let fields := entriesOf document value
  match ← fullTextOf? (Document.field fields "repo_url") with
  | none => pure none
  | some repository =>
    let branch ← fullTextOf? (Document.field fields "branch")
    let folder ← textOf? (Document.field fields "base_path")
    let dropped ← textOf? (Document.field fields "strip_prefix")
    pure (some ⟨repository, branch.getD "main", folder.getD [], dropped.getD []⟩)

/-- The path that a setting gives, from the root of the project on unless it is absolute. -/
def pathOf? (root : Path) (value : Value) : Run (Option Path) := do
  match ← Run.ofExcept (fullTextOf? value) with
  | none => pure none
  | some text =>
    let path ← Run.expandHome (Path.read text)
    pure (some (root.join path))

/-! ### The settings file -/

/-- The settings for extraction that a mapping makes, over others. -/
def readExtract (document : Document) (root : Path) (fields : List (Value × Value))
    (settings : ExtractSettings) : Run ExtractSettings := do
  let field (name : String) : Value := Document.field fields name
  let sources ← pathOf? root (field "src")
  let types ← pathOf? root (field "types")
  let output ← pathOf? root (field "output")
  let names ← Run.ofExcept (namedTexts document (field "module_id_overrides") fullTextOf?)
  let excluded ← Run.ofExcept (textsOf document (field "exclude_paths"))
  pure {
    sources := sources.getD settings.sources
    types := types
    output := output <|> settings.output
    moduleNames := settings.moduleNames.update names
    excluded := excluded }

/-- The settings for rendering that a mapping makes, given where the reference is written to. -/
def readRender (document : Document) (root : Path) (fields : List (Value × Value))
    (output : Option Path) : Run RenderSettings := do
  let field (name : String) : Value := Document.field fields name
  let fullText (name : String) : Run (Option Text) := Run.ofExcept (fullTextOf? (field name))
  let lang := (← fullText "lang").getD "luau"
  let default := RenderSettings.default root lang
  let route ← Run.ofExcept (textOf? (field "route_base_path"))
  let input ← pathOf? root (field "input")
  let folder ← pathOf? root (field "out_dir")
  let manifest ← pathOf? root (field "manifest_path")
  let title ← fullText "overview_title"
  let category ← fullText "default_category"
  let order ← Run.ofExcept (textsOf document (field "category_order"))
  let labels ← Run.ofExcept (namedTexts document (field "labels") textOf?)
  let source ← Run.ofExcept (sourceLinksOf? document (field "source"))
  let stylesheet ← pathOf? root (field "stylesheet")
  let style ← Run.ofExcept (textOf? (field "signature_style"))
  let templates ← pathOf? root (field "templates_dir")
  pure {
    page := {
      lang := lang
      route := (route.map (Text.trimWhere (· == '/'))).getD default.page.route
      includePrivate := (boolOf? (field "include_private")).getD false
      overviewTitle := title.getD default.page.overviewTitle
      defaultCategory := category.getD default.page.defaultCategory
      categoryOrder := order
      labels := labels
      source := source
      signalsAreEvents := (boolOf? (field "classify_signals_as_events")).getD true
      signatureStyle := if style = some "inline".toList then .inline else .block }
    input := input <|> output <|> default.input
    folder := folder <|> default.folder
    manifest := manifest <|> default.manifest
    clean := (boolOf? (field "clean")).getD true
    tabSize := integerOf? (field "code_tab_size")
    stylesheet := stylesheet
    templates := templates }

/-- The settings in a document, over others. A group of settings that is empty is not made at
all. -/
def readDocument (document : Document) (settings : Settings) : Run Settings := do
  let fields ← match document.entries? document.root with
    | some fields => pure fields
    | none =>
      if document.isTruthy document.root then throw (.settings (.rootNotMapping settingsFile))
      else pure []
  let extractFields := entriesOf document (Document.field fields "extract")
  let extract ←
    if extractFields.isEmpty then pure settings.extract
    else readExtract document settings.root extractFields settings.extract
  let renderFields := entriesOf document (Document.field fields "render")
  let render ←
    if renderFields.isEmpty then pure { settings.render with input := extract.output }
    else readRender document settings.root renderFields extract.output
  pure ⟨settings.root, extract, render⟩

/-- The document in the text of a settings file with the given name. A blank text has none. -/
def documentOf (file raw : Text) : Except Failure Document :=
  if Text.isBlankText raw then
    .ok ⟨.null, []⟩
  else
    match Document.read raw with
    | .ok document => .ok document
    | .error (.malformed detail) => .error (.settings (.malformed file detail))
    | .error (.value failure) => .error failure

/-- The settings file that a path stands for: the path itself, or the file in the folder that it
leads to. -/
def settingsPath (path : Path) : Run Path := do
  let path ← Run.expandHome path
  if ← Run.look (·.isFolder path) then
    Run.look (·.resolve (path.child settingsFile))
  else
    Run.look (·.resolve path)

/-- The settings of the project at a path. The root of the project is the folder of its settings
file. -/
def load (path : Path) : Run Settings := do
  let file ← settingsPath path
  let root ← Run.look (·.resolve file.parent)
  let names ← Run.look (moduleNames · root)
  let default := Settings.default root
  let default := { default with extract := { default.extract with moduleNames := names } }
  if ← Run.look (·.hasEntry file) then
    let raw ← Run.look (·.readText file)
    let document ← Run.ofExcept (documentOf file.name raw)
    readDocument document default
  else
    pure default

end Project

end LuauReference
