/-
This file brings a folder of pages in line with the pages that a run has rendered: files of the last
run that are not among them are deleted, the pages are written unless they are there already, and
folders that have become empty are removed. A file that cannot be deleted or written is reported and
does not stop the rest.
-/

import LuauReference.Manifest.Basic
import LuauReference.Symbol.Diagnostic

namespace LuauReference

namespace Manifest

/-- The pages of a run: the folder they go to, their language, their texts under paths, what they
were made from and whether files of the last run are deleted. -/
structure Pages where
  folder : Path
  lang : Text
  texts : Named Text
  input : Input := {}
  clean : Bool := true

/-- What a run did to the files of a folder. -/
structure Changes where
  written : List Text := []
  unchanged : List Text := []
  deleted : List Text := []
  diagnostics : List Diagnostic := []

/-- The files of a run, in order. -/
def Changes.outputs (changes : Changes) : List Text :=
  Text.sort (changes.written ++ changes.unchanged)

/-- The changes that two parts of a run make together. -/
def Changes.append (first second : Changes) : Changes :=
  ⟨first.written ++ second.written, first.unchanged ++ second.unchanged,
    first.deleted ++ second.deleted, first.diagnostics ++ second.diagnostics⟩

instance : Append Changes := ⟨Changes.append⟩

/-- The paths of the pages of a run, in order. -/
def Pages.paths (pages : Pages) : List Text :=
  Text.sort (pages.texts.map fun (path, _) => normalize path)

/-- The files of the last run that are not among the pages of this one. -/
def stale (manifest : Manifest) (pages : Pages) : List Text :=
  if pages.clean then
    let kept := pages.paths
    (manifest.outputsFor pages.lang).filter fun path => !kept.contains path
  else
    []

/-- Deletes a file of the last run. A file that is not there any more is passed over. -/
def deleteStale (folder : Path) (path : Text) : Run Changes := do
  let target := folder.child path
  match ← Run.orRefused (Run.change (·.removeFile target)) with
  | .ok () => pure { deleted := [path] }
  | .error ⟨.notFound, _⟩ => pure {}
  | .error fault =>
    Run.log .warning "stores.manifest" ("Failed to delete stale file ".toList ++ target.text
      ++ ": ".toList ++ fault.message)
    pure { diagnostics := [.warning target.text 0
      ("Failed to delete stale file: ".toList ++ fault.message)] }

/-- Whether a file holds a text. -/
def holdsText (target : Path) (text : Text) : Run Bool := do
  if ← Run.look (·.isFile target) then
    return (← Run.look (·.readText target)) == text
  else
    pure false

/-- Writes a page unless it is there already; the result says whether it was written. -/
def putPage (target : Path) (text : Text) : Run Bool := do
  if ← holdsText target text then
    pure false
  else
    Run.writeText target text
    pure true

/-- Writes a page under its path in the folder. -/
def writePage (folder : Path) (path text : Text) : Run Changes := do
  let path := normalize path
  let target := folder.child path
  match ← Run.orRefused (putPage target text) with
  | .ok true => pure { written := [path] }
  | .ok false => pure { unchanged := [path] }
  | .error fault =>
    Run.log .error "stores.manifest" ("Failed to write ".toList ++ target.text ++ ": ".toList
      ++ fault.message)
    pure { diagnostics := [.error target.text 0
      ("Failed to write output: ".toList ++ fault.message)] }

/-- Makes changes one after the other. -/
def inTurn {α : Type} (step : α → Run Changes) : List α → Run Changes
  | [] => pure {}
  | item :: rest => do
    let first ← step item
    let more ← inTurn step rest
    pure (first ++ more)

/-- Removes the folders that have become empty. -/
def pruneFolder (folder : Path) : Run Unit := do
  let (_, disk) ← Run.look (·.prune folder)
  modify fun world => { world with disk := disk }

/-- Brings the folder in line with the pages and takes this down in the manifest, which is not yet
saved. -/
def Store.apply (store : Store) (pages : Pages) : Run (Changes × Store) := do
  let deleted ← inTurn (deleteStale pages.folder) (stale store.manifest pages)
  let written ← inTurn (fun (path, text) => writePage pages.folder path text)
    (Text.sortOn (·.1) pages.texts)
  pruneFolder pages.folder
  let store ← store.record pages.lang pages.paths pages.input
  pure (deleted ++ written, store)

/-- Brings the folder in line with the pages and saves the manifest. -/
def Store.reconcile (store : Store) (pages : Pages) : Run (Changes × Store) := do
  let (changes, store) ← store.apply pages
  let store ← store.save
  Run.log .debug "stores.manifest" ("Reconciled ".toList ++ pages.lang ++ ": ".toList
    ++ Text.ofNat changes.written.length ++ " written, ".toList
    ++ Text.ofNat changes.unchanged.length ++ " unchanged, ".toList
    ++ Text.ofNat changes.deleted.length ++ " deleted".toList)
  pure (changes, store)

end Manifest

end LuauReference
