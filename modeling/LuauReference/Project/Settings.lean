/-
This file holds the settings of a project: where its sources are, where the reference and its pages
go, and what the pages look like. A project that says nothing has its sources in one folder, the
reference in a hidden one and the pages among its documentation.
-/

import LuauReference.Disk.Path
import LuauReference.Page.Settings

namespace LuauReference

namespace Project

/-- Where a reference is extracted from and where it is written to. -/
structure ExtractSettings where
  sources : Path
  types : Option Path := none
  output : Option Path := none
  moduleNames : Named Text := []
  excluded : List Text := []
  deriving DecidableEq, Repr

/-- Which reference is rendered, where its pages and the manifest of them go, and what they look
like. -/
structure RenderSettings where
  page : PageSettings := {}
  input : Option Path := none
  folder : Option Path := none
  manifest : Option Path := none
  clean : Bool := true
  tabSize : Option Int := none
  stylesheet : Option Path := none
  templates : Option Path := none
  deriving DecidableEq, Repr

/-- The settings of a project. -/
structure Settings where
  root : Path
  extract : ExtractSettings
  render : RenderSettings
  deriving DecidableEq, Repr

/-- The folder that references and manifests are kept in. -/
def generatedFolder (root : Path) : Path :=
  root.child ".generated/reference"

/-- The folder that pages in a language are kept in. -/
def pagesFolder (root : Path) (lang : Text) : Path :=
  (root.child "docs/reference").child lang

/-- The settings for pages in a language unless others are chosen. -/
def RenderSettings.default (root : Path) (lang : Text) : RenderSettings :=
  { page := { lang := lang, route := "reference/".toList ++ lang }
    input := some ((generatedFolder root).child (lang ++ ".json".toList))
    folder := some (pagesFolder root lang)
    manifest := some ((generatedFolder root).child "manifest.json") }

/-- The settings of a project that chooses nothing. -/
def Settings.default (root : Path) : Settings :=
  { root := root
    extract := {
      sources := root.child "src"
      output := some ((generatedFolder root).child "luau.json") }
    render := .default root "luau" }

end Project

end LuauReference
