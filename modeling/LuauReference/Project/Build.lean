/-
This file joins the parts to the three things the program can do with a project: extract a reference
from its sources, render the pages of a reference, and both in one pass. In one pass the pages are
made from the reference at hand, not from the file that was written.
-/

import LuauReference.Manifest.Reconcile
import LuauReference.Page.Render
import LuauReference.Page.Stylesheet
import LuauReference.Page.Template
import LuauReference.Project.Reader
import LuauReference.Source.Extraction
import LuauReference.Symbol.Wire

namespace LuauReference

/-! ### Files of a reference -/

/-- A reference with the text it was read from and the file of it. -/
structure LoadedReference where
  reference : Reference
  raw : Text
  path : Option Path

/-- Reads the reference in a file. -/
def LoadedReference.load (path : Path) : Run LoadedReference := do
  let raw ← match (← get).disk.readText path with
    | .ok raw => pure raw
    | .error (.disk ⟨.notFound, _⟩) => throw (.document (.absent path.text))
    | .error (.disk fault) => throw (.document (.unreadable path.text fault))
    | .error failure => throw failure
  let reference ← Run.ofExcept (Reference.read raw)
  pure ⟨reference, raw, some path⟩

/-- Writes a reference to a file and gives the text that was written. -/
def Reference.save (reference : Reference) (path : Path) : Run Text := do
  let raw := reference.write
  Run.writeText path raw
  pure raw

/-! ### Other files -/

/-- The template of pages: the one in a folder if there is one, and else the standard one. -/
def Template.find (folder : Option Path) : Run Text := do
  match folder with
  | none => pure Template.standard
  | some folder =>
    let path := folder.child Template.fileName
    match (← get).disk.isFile path with
    | .ok true => Run.look (·.readText path)
    | _ => pure Template.standard

/-- Gives a stylesheet the rule for the size of tabs. The result says whether the file was
changed. -/
def Stylesheet.update (path : Path) (size : Int) : Run Bool := do
  let current ←
    if ← Run.look (·.hasEntry path) then Run.look (·.readText path) else pure []
  let updated := Stylesheet.withRule current size
  if updated = current then
    pure false
  else
    Run.writeText path updated
    pure true

namespace Project

/-! ### Runs -/

/-- The result of extracting: the file that was written, if one was, and the reference. -/
structure Extracted where
  output : Option Path
  reference : Reference
  diagnostics : List Diagnostic

/-- The result of rendering. -/
structure Rendered where
  folder : Path
  manifest : Option Path
  changes : Manifest.Changes
  stylesheetUpdated : Bool

/-- The result of both. -/
structure Built where
  extracted : Extracted
  rendered : Rendered

/-- What is reported about both. -/
def Built.diagnostics (built : Built) : List Diagnostic :=
  built.extracted.diagnostics ++ built.rendered.changes.diagnostics

/-- The part of the program that runs belong to. -/
def part : String := "orchestrator"

/-- The settings of the project at a path, with a message. -/
def settingsAt (path : Path) : Run Settings := do
  let settings ← load path
  Run.log .debug part ("Loaded configuration for ".toList ++ settings.root.text)
  pure settings

/-- Extracts the reference of a project and writes it if that is wanted. -/
def extract (settings : Settings) (write : Bool) : Run Extracted := do
  let chosen := settings.extract
  Run.log .info part ("Extracting reference from ".toList ++ chosen.sources.text)
  let found ← Source.extract {
    folder := chosen.sources
    root := some settings.root
    types := chosen.types
    moduleNames := chosen.moduleNames
    excluded := chosen.excluded
    generatorVersion := Program.version }
  let output := if write then chosen.output else none
  match output with
  | some path =>
    let _ ← found.reference.save path
    Run.log .info part ("Wrote reference document to ".toList ++ path.text)
  | none => pure ()
  pure ⟨output, found.reference, found.diagnostics⟩

/-- The texts of the pages of a reference under their paths. -/
def renderPages (settings : RenderSettings) (reference : Reference) : Run (Named Text) := do
  let pages ← Run.ofExcept (Page.documents settings.page reference)
  let template ← Template.find settings.templates
  Run.ofExcept (Page.writeAll template pages)

/-- Updates the stylesheet of a project if it has one and a size of tabs is chosen. -/
def updateStylesheet (settings : RenderSettings) : Run Bool := do
  match settings.tabSize, settings.stylesheet with
  | some size, some path => if size = 0 then pure false else Stylesheet.update path size
  | _, _ => pure false

/-- Renders the pages of a reference that is at hand. -/
def renderLoaded (settings : Settings) (loaded : LoadedReference) : Run Rendered := do
  let chosen := settings.render
  let lang := chosen.page.lang
  let folder := chosen.folder.getD (pagesFolder settings.root lang)
  Run.log .info part ("Rendering ".toList ++ lang ++ " reference pages into ".toList ++ folder.text)
  let texts ← renderPages chosen loaded.reference
  let store ← Manifest.Store.load chosen.manifest
  let (changes, _) ← store.reconcile {
    folder := folder
    lang := lang
    texts := texts
    input := ⟨loaded.path.map Path.text, loaded.raw, some loaded.reference.generatorVersion⟩
    clean := chosen.clean }
  let updated ← updateStylesheet chosen
  Run.log .info part ("Rendered ".toList ++ Text.ofNat texts.length ++ " pages (".toList
    ++ Text.ofNat changes.written.length ++ " written, ".toList
    ++ Text.ofNat changes.deleted.length ++ " deleted)".toList)
  pure ⟨folder, chosen.manifest, changes, updated⟩

/-- Renders the pages of the reference that the settings name. -/
def render (settings : Settings) : Run Rendered := do
  match settings.render.input with
  | none => throw (.document .notConfigured)
  | some path =>
    let loaded ← LoadedReference.load path
    renderLoaded settings loaded

/-- Extracts and renders in one pass. -/
def build (settings : Settings) : Run Built := do
  let extracted ← extract settings true
  let rendered ← renderLoaded settings
    ⟨extracted.reference, extracted.reference.write, extracted.output⟩
  pure ⟨extracted, rendered⟩

end Project

end LuauReference
