/-
This file renders a reference: it plans the class pages, lays them out with the overview after them,
and has a writer write each one. Of two pages with one path the later one counts and stands in the
place of the earlier one.
-/

import LuauReference.Page.ClassPage
import LuauReference.Page.Markdown
import LuauReference.Page.Overview

namespace LuauReference

namespace Page

/-- Which symbols are taken for events by their type. -/
def eventTest (settings : PageSettings) : Symbol → Bool :=
  if settings.signalsAreEvents then isSignal else fun _ => false

/-- The planned class pages of a reference. -/
def planned (settings : PageSettings) (reference : Reference) : List ClassPage :=
  plan (eventTest settings) settings.includePrivate reference

/-- The pages of a reference as trees: the class pages, then the overview. -/
def documents (settings : PageSettings) (reference : Reference) :
    Except Failure (List PageDocument) := do
  let pages := planned settings reference
  let links := Links.ofPages pages settings.route
  let classes ← pages.mapM (classDocument settings links)
  pure (classes ++ [overviewDocument settings links pages])

/-- The texts of pages under their paths. -/
def writeAll (writer : PageWriter) (pages : List PageDocument) : Except Failure (Named Text) := do
  let texts ← pages.mapM fun page => do
    let text ← page.write writer
    pure (page.path, text)
  pure (Named.ofPairs texts)

/-- The texts of all pages of a reference under their paths. -/
def render (settings : PageSettings) (writer : PageWriter) (reference : Reference) :
    Except Failure (Named Text) := do
  let pages ← documents settings reference
  writeAll writer pages

end Page

end LuauReference
