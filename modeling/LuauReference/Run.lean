/-
This file holds what a run of the program works on: a disk, the home folders of users, a clock and
the messages logged so far. A step of a run can fail and still leaves behind what it has done, so
the state is kept apart from the outcome.
-/

import LuauReference.Disk.Operation
import LuauReference.Log

namespace LuauReference

/-- What a run works on. The clock gives a time for every reading of it, the readings are counted,
and the home folder of the user is under the empty name. -/
structure World where
  disk : Disk
  homes : Named Text
  clock : Nat → Text
  readings : Nat
  messages : List Log.Message

/-- A step of a run. -/
abbrev Run := ExceptT Failure (StateM World)

namespace Run

/-- A result that may be a failure. -/
def ofExcept {α : Type} : Except Failure α → Run α
  | .ok value => pure value
  | .error failure => throw failure

/-- Looks at the disk. -/
def look {α : Type} (question : Disk → Except Failure α) : Run α := do
  ofExcept (question (← get).disk)

/-- Changes the disk, unless the change is refused. -/
def change (operation : Disk → Except Failure Disk) : Run Unit := do
  let disk ← look operation
  modify fun world => { world with disk := disk }

/-- Logs a message of a part of the program. -/
def log (level : Log.Level) (part : String) (text : Text) : Run Unit :=
  modify fun world =>
    { world with messages := world.messages ++ [⟨level, Log.originOf part, text⟩] }

/-- Reads the clock. -/
def time : Run Text := do
  let world ← get
  set { world with readings := world.readings + 1 }
  pure (world.clock (world.readings + 1))

/-- Makes a folder and those above it unless they exist. -/
def ensureFolders (path : Path) : Run Unit := do
  let world ← get
  let (outcome, disk) := world.disk.ensureFolders path.names.length path
  set { world with disk := disk }
  ofExcept outcome

/-- Writes a text to a file in a folder that is made if it does not exist. -/
def writeText (path : Path) (text : Text) : Run Unit := do
  ensureFolders path.parent
  change (·.writeText path text)

/-- A step that may be refused by the disk; other failures stay failures. -/
def orRefused {α : Type} (step : Run α) : Run (Except DiskFault α) :=
  tryCatch (do return .ok (← step)) fun failure =>
    match failure with
    | .disk fault => pure (.error fault)
    | other => throw other

/-! ### Home folders -/

/-- A path whose first name is a tilde, with or without the name of a user, from the home folder
on. -/
def expandHome (path : Path) : Run Path := do
  match path.isAbsolute, path.names with
  | false, ('~' :: user) :: rest =>
    match (← get).homes.get? user with
    | some home => pure ((Path.read home).join ⟨0, rest⟩)
    | none => throw .noHome
  | _, _ => pure path

end Run

end LuauReference
