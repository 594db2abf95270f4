/-
This file is the program itself. It takes a picture of the folders that a project uses, lets the run
work on that picture, and makes the changes of the run on the real disk. Nothing is decided here.
-/

import LuauReference.Calendar
import LuauReference.Command.Outcome
import LuauReference.Disk.Change
import Std.Time.DateTime.Timestamp

namespace LuauReference

namespace Program

/-- Folders that no run looks into and that can be large. -/
def skippedFolders : List String :=
  [".git", "node_modules"]

/-- What is at a path of the real disk, with all that is below it. -/
partial def picture (path : String) : IO (Option Entry) := do
  try
    let real := System.mkFilePath [path]
    match (← real.symlinkMetadata).type with
    | .symlink => return some (.link (← IO.FS.realPath real).toString.toList)
    | .file =>
      let bytes ← IO.FS.readBinFile real
      return some (.file bytes.toList)
    | .dir =>
      let mut entries : List (Text × Entry) := []
      for entry in ← real.readDir do
        if !skippedFolders.contains entry.fileName then
          if let some inner ← picture entry.path.toString then
            entries := (entry.fileName.toList, inner) :: entries
      return some (.folder entries)
    | .other => return none
  catch _ => return none

/-- The text of a place on the real disk. -/
def realText (place : Place) : String :=
  String.ofList (Path.text ⟨1, place⟩)

/-- A disk with the picture of what is really at a path, unless it is there already. -/
def withPicture (disk : Disk) (path : Path) : IO Disk := do
  match disk.resolve path with
  | .error _ => return disk
  | .ok path =>
    if (disk.root.at? path.names).isSome then return disk
    match ← picture (realText path.names) with
    | some entry => return { disk with root := disk.root.put path.names entry }
    | none => return disk

/-- The paths that the settings of a project name. -/
def namedPaths (settings : Project.Settings) : List Path :=
  [some settings.extract.sources, settings.extract.types, settings.extract.output,
    settings.render.input, settings.render.folder, settings.render.manifest,
    settings.render.stylesheet, settings.render.templates].filterMap id

/-- The time of the clock on the wall. -/
def wallTime : IO Text := do
  let now ← Std.Time.Timestamp.now
  let microseconds := (now.toNanosecondsSinceUnixEpoch.val / 1000).toNat
  return (Moment.after ⟨1970, 1, 1⟩ microseconds).stamp

/-- A world with pictures of the folder at a path and of all that its settings name. -/
def worldFor (path : Text) : IO World := do
  let start := Path.read (← IO.currentDir).toString.toList
  let home := (← IO.getEnv "HOME").getD "/"
  let time ← wallTime
  let empty : World :=
    { disk := ⟨(Entry.folder []).put start.names (.folder []), start.names⟩
      homes := [([], home.toList)]
      clock := fun _ => time
      readings := 0
      messages := [] }
  let given := match (Run.expandHome (Path.read path)).run empty with
    | (.ok expanded, _) => start.join expanded
    | (.error _, _) => start
  let folder :=
    if ← (System.mkFilePath [String.ofList given.text]).isDir then given else given.parent
  let bare : World := { empty with disk := { empty.disk with root := .folder [] } }
  let world := { bare with disk := ← withPicture bare.disk folder }
  match (Project.load (Path.read path)).run world with
  | (.error _, _) => return world
  | (.ok settings, _) =>
    let disk ← (namedPaths settings).foldlM withPicture world.disk
    return { world with disk := disk }

/-- Makes a change on the real disk. -/
def perform : Change → IO Unit
  | .removeFile place => IO.FS.removeFile (realText place)
  | .removeFolder place => IO.FS.removeDir (realText place)
  | .makeFolder place => IO.FS.createDirAll (realText place)
  | .writeFile place bytes => IO.FS.writeBinFile (realText place) ⟨bytes.toArray⟩

/-- Runs the program with the words of a command line and gives the code it ends with. -/
def run (words : List Text) : IO UInt32 := do
  let path : Text := match Command.read words with
    | some (.run _ path _ _) => path
    | _ => "."
  let world ← worldFor path
  let (outcome, after) := (Command.run words).run world
  for change in Change.between world.disk.root after.disk.root do
    perform change
  match outcome with
  | .ok outcome =>
    IO.print (String.ofList outcome.output)
    IO.eprint (String.ofList outcome.errors)
    return UInt32.ofNat outcome.code
  | .error failure =>
    IO.eprint (String.ofList (Log.console false after.messages))
    IO.eprintln (String.ofList failure.message)
    return 1

end Program

end LuauReference

/-- The program. -/
def main (arguments : List String) : IO UInt32 :=
  LuauReference.Program.run (arguments.map String.toList)
