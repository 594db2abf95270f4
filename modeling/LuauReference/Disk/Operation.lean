/-
This file holds the operations on a disk: asking what is at a path, reading and writing files,
making and removing folders. Each of them first finds the place that the path leads to, and refuses
for the reasons a disk has.
-/

import LuauReference.Disk.Walk
import LuauReference.Text.Blank

namespace LuauReference

namespace Disk

/-! ### Questions -/

/-- What is at a path when links are followed. A path that leads nowhere has nothing; only a name
that is too long is refused. -/
def entryAt (disk : Disk) (path : Path) : Except Failure (Option Entry) :=
  match disk.locate true path with
  | .ok location => .ok location.found
  | .error (.disk ⟨.nameTooLong, text⟩) => .error (.disk ⟨.nameTooLong, text⟩)
  | .error _ => .ok none

/-- Whether a path leads to a folder. -/
def isFolder (disk : Disk) (path : Path) : Except Failure Bool := do
  return (← disk.entryAt path).any Entry.isFolder

/-- Whether a path leads to a file. -/
def isFile (disk : Disk) (path : Path) : Except Failure Bool := do
  return (← disk.entryAt path).any Entry.isFile

/-- Whether a path leads to anything. -/
def hasEntry (disk : Disk) (path : Path) : Except Failure Bool := do
  return (← disk.entryAt path).isSome

/-! ### Files -/

/-- The bytes of the file at a path. -/
def readBytes (disk : Disk) (path : Path) : Except Failure (List UInt8) := do
  match (← disk.locate true path).found with
  | some (.file bytes) => pure bytes
  | some (.folder _) => .error (refused path .isDirectory)
  | some (.link _) => .error (refused path .tooManyLinks)
  | none => .error (refused path .notFound)

/-- The text of the file at a path, with line feeds for all ends of lines. -/
def readText (disk : Disk) (path : Path) : Except Failure Text := do
  match Text.ofUtf8? (← disk.readBytes path) with
  | some text => pure (Text.plainNewlines text)
  | none => .error .invalidUtf8

/-- The text of the file at a path, with the replacement character for bytes that are no text. -/
def readLossyText (disk : Disk) (path : Path) : Except Failure Text := do
  return Text.plainNewlines (Text.ofUtf8Lossy (← disk.readBytes path))

/-- Writes a file. -/
def writeBytes (disk : Disk) (path : Path) (bytes : List UInt8) : Except Failure Disk := do
  let location ← disk.locate true path
  match location.found with
  | some (.folder _) => .error (refused path .isDirectory)
  | _ => pure { disk with root := disk.root.put location.place (.file bytes) }

/-- Writes a text to a file. -/
def writeText (disk : Disk) (path : Path) (text : Text) : Except Failure Disk :=
  disk.writeBytes path (Text.utf8 text)

/-- Removes a file or a link. -/
def removeFile (disk : Disk) (path : Path) : Except Failure Disk := do
  let location ← disk.locate false path
  match location.found with
  | none => .error (refused path .notFound)
  | some (.folder _) => .error (refused path .isDirectory)
  | some _ => pure { disk with root := disk.root.remove location.place }

/-- Makes a link where nothing is yet. -/
def makeLink (disk : Disk) (path : Path) (target : Text) : Except Failure Disk := do
  let location ← disk.locate false path
  match location.found with
  | none => pure { disk with root := disk.root.put location.place (.link target) }
  | some _ => .error (refused path .alreadyExists)

/-- Removes whatever is at a path, with all that is in it. -/
def removeAll (disk : Disk) (path : Path) : Except Failure Disk := do
  let location ← disk.locate false path
  match location.found with
  | none => .error (refused path .notFound)
  | some _ => pure { disk with root := disk.root.remove location.place }

/-! ### Folders -/

/-- Makes a folder inside of one that exists. -/
def makeFolder (disk : Disk) (path : Path) : Except Failure Disk := do
  let location ← disk.locate false path
  match location.found with
  | none => pure { disk with root := disk.root.put location.place (.folder []) }
  | some _ => .error (refused path .alreadyExists)

/-- Removes an empty folder, which has to be called by its name. -/
def removeFolder (disk : Disk) (path : Path) : Except Failure Disk := do
  let location ← disk.locate false path
  match location.found with
  | none => .error (refused path .notFound)
  | some (.folder []) =>
    if path.isNamed then pure { disk with root := disk.root.remove location.place }
    else .error (refused path .notEmpty)
  | some (.folder _) => .error (refused path .notEmpty)
  | some _ => .error (refused path .notDirectory)

/-- Makes a folder unless it exists, given that the folder above exists. -/
def ensureFolder (disk : Disk) (path : Path) : Except Failure Disk :=
  match disk.makeFolder path with
  | .ok disk => .ok disk
  | .error (.disk ⟨.notFound, text⟩) => .error (.disk ⟨.notFound, text⟩)
  | .error (.disk fault) => do
    if ← disk.isFolder path then .ok disk else .error (.disk fault)
  | .error failure => .error failure

/-- Makes a folder and those above it unless they exist. What was made stays when the rest is
refused, so the disk is a result of its own. The first argument is the number of names of the
path. -/
def ensureFolders (disk : Disk) : Nat → Path → Except Failure Unit × Disk
  | above, path =>
    match disk.ensureFolder path with
    | .ok made => (.ok (), made)
    | .error (.disk ⟨.notFound, text⟩) =>
      match above with
      | 0 => (.error (.disk ⟨.notFound, text⟩), disk)
      | above + 1 =>
        match ensureFolders disk above path.parent with
        | (.ok (), made) =>
          match made.ensureFolder path with
          | .ok last => (.ok (), last)
          | .error failure => (.error failure, made)
        | (.error failure, made) => (.error failure, made)
    | .error failure => (.error failure, disk)

/-! ### Empty folders -/

/-- Removes the folder at a place inside of the one at a path if it is empty. It stays when the path
does not lead there any more. -/
def removeIfEmpty (path : Path) (disk : Disk) (inner : Place) : Disk :=
  match disk.locate true path with
  | .ok location =>
    match disk.root.at? (location.place ++ inner) with
    | some (.folder []) => { disk with root := disk.root.remove (location.place ++ inner) }
    | _ => disk
  | .error _ => disk

/-- Removes those folders that are empty when it is their turn. -/
def sweep (disk : Disk) (path : Path) (places : List Place) : Disk :=
  places.foldl (removeIfEmpty path) disk

/-- Removes the empty folders below a path from the bottom up and then the one at the path itself.
The result says whether that one went away, which it cannot when the path is that of a link. -/
def prune (disk : Disk) (path : Path) : Except Failure (Bool × Disk) := do
  if !(← disk.isFolder path) then
    pure (false, disk)
  else
    let location ← disk.locate true path
    let swept := disk.sweep path (location.found.getD (.folder [])).foldersUp
    match swept.removeFolder path with
    | .ok disk => pure (true, disk)
    | .error _ => pure (false, swept)

end Disk

end LuauReference
