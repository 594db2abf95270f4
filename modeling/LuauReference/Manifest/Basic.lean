/-
This file holds the manifest of rendered pages: for each language, which files the last run has
written and what they were made from. A later run deletes the files that are no longer among its
own, so the manifest says which files belong to the program. A manifest that cannot be read counts
as empty.
-/

import LuauReference.Digest.Sha256
import LuauReference.Json.Reader
import LuauReference.Json.Writer
import LuauReference.Run

namespace LuauReference

/-- The files of each language and the record of what they were made from. -/
structure Manifest where
  outputs : Named (List Text) := []
  inputs : Named Fields := []

namespace Manifest

/-- A path inside the folder of pages, with slashes only and none in front. -/
def normalize (path : Text) : Text :=
  (path.map fun c => if c = '\\' then '/' else c).dropWhile (· == '/')

/-- The files of a language. -/
def outputsFor (manifest : Manifest) (lang : Text) : List Text :=
  (manifest.outputs.get? lang).getD []

/-- The record of a language, unless it is empty. -/
def inputFor (manifest : Manifest) (lang : Text) : Option Fields :=
  (manifest.inputs.get? lang).filter fun fields => !fields.isEmpty

/-! ### Text -/

/-- The files in a value that lists them. -/
def pathsOf? : Json → Option (List Text)
  | .arr items => some ((items.filterMap Json.text?).map normalize)
  | _ => none

/-- The manifest in a value. What is of the wrong kind is left out. -/
def ofJson (value : Json) : Manifest :=
  let fields := value.fields?.getD []
  let outputs := ((fields.getD "outputs").fields?.getD []).filterMap fun (lang, paths) =>
    (pathsOf? paths).map fun paths => (lang, paths)
  let inputs := ((fields.getD "inputs").fields?.getD []).filterMap fun (lang, input) =>
    input.fields?.map fun input => (lang, input)
  ⟨Named.ofPairs outputs, Named.ofPairs inputs⟩

/-- A manifest as a value. -/
def toJson (manifest : Manifest) : Json :=
  .obj [("outputs", .obj (manifest.outputs.map fun (lang, paths) => (lang, .arr (paths.map .str)))),
    ("inputs", .obj (manifest.inputs.map fun (lang, input) => (lang, .obj input)))]

/-- The text of a manifest, with all names in order. -/
def write (manifest : Manifest) : Text :=
  manifest.toJson.sorted.document

/-! ### Records -/

/-- What the pages of a run were made from: the path of the reference, its text and the version that
extracted it. -/
structure Input where
  path : Option Text := none
  raw : Text := []
  generatorVersion : Option Text := none

/-- The fields of a record that say what pages were made from. -/
def Input.fields (input : Input) : Fields :=
  [("path", .ofText? input.path), ("hash", .str (Sha256.digest (Text.utf8 input.raw))),
    ("generatorVersion", .ofText? input.generatorVersion)]

/-- Whether a value is a given text or, for no text, null. -/
def isText (value : Json) (text : Option Text) : Bool :=
  match value, text with
  | .null, none => true
  | .str found, some wanted => found == wanted
  | _, _ => false

/-- Whether a record is of the same input and says when it was made. -/
def isRecordOf (record : Fields) (input : Input) : Bool :=
  isText (record.getD "path") input.path
    && isText (record.getD "hash") (some (Sha256.digest (Text.utf8 input.raw)))
    && isText (record.getD "generatorVersion") input.generatorVersion
    && (record.getD "generatedAt").isTruthy

/-- Whether the manifest says already that a language has the given files from the given input. -/
def isCurrent (manifest : Manifest) (lang : Text) (paths : List Text) (input : Input) : Bool :=
  isRecordOf ((manifest.inputs.get? lang).getD []) input && manifest.outputs.get? lang == some paths

/-- The manifest after a run at a time. -/
def recordAt (manifest : Manifest) (lang : Text) (paths : List Text) (input : Input) (time : Text) :
    Manifest :=
  ⟨manifest.outputs.set lang paths,
    manifest.inputs.set lang (input.fields ++ [("generatedAt".toList, .str time)])⟩

/-! ### The manifest file -/

/-- A manifest with the file that keeps it, if it is kept, and whether the file is out of date. -/
structure Store where
  path : Option Path
  manifest : Manifest := {}
  isUnsaved : Bool := false

/-- Opens the manifest in a file. A missing file is an empty manifest, and so is one that cannot be
read or parsed; only a file that is no text at all, or that holds a number of too many digits, is
refused. -/
def Store.load (path : Option Path) : Run Store := do
  match path with
  | none => pure { path := none }
  | some file =>
    let ignored : Run Store := do
      Run.log .warning "stores.manifest" ("Ignoring unreadable manifest at ".toList ++ file.text)
      pure { path := path }
    match (← get).disk.readText file with
    | .ok raw =>
      match Json.read raw with
      | .ok value => pure { path := path, manifest := ofJson value }
      | .error .malformed => ignored
      | .error .numeralTooLong => throw .badValue
    | .error (.disk ⟨.notFound, _⟩) => pure { path := path }
    | .error (.disk _) => ignored
    | .error failure => throw failure

/-- Takes down which files a language has now and what they were made from. -/
def Store.record (store : Store) (lang : Text) (paths : List Text) (input : Input) : Run Store := do
  if store.manifest.isCurrent lang paths input then
    pure store
  else
    let time ← Run.time
    pure { store with manifest := store.manifest.recordAt lang paths input time, isUnsaved := true }

/-- Writes the manifest to its file if that is out of date. -/
def Store.save (store : Store) : Run Store := do
  match store.path with
  | none => pure store
  | some path =>
    if store.isUnsaved then
      Run.writeText path store.manifest.write
      pure { store with isUnsaved := false }
    else
      pure store

end Manifest

end LuauReference
