/-
This file finds the source files below a folder. Entries whose name begins with a dot are passed
over, and so are folders of dependencies and what the settings exclude. The files of a folder come
before those of the folders in it, each sorted by name, so the order in which a disk lists its
entries does not matter. A link to a folder is not gone into.
-/

import LuauReference.Disk.Operation
import LuauReference.Text.Glob

namespace LuauReference

namespace Source

/-- The ends of the names of source files. -/
def suffixes : List Text :=
  [".lua", ".luau"].map String.toList

/-- Whether a name is that of a source file. -/
def isSourceName (name : Text) : Bool :=
  suffixes.any fun suffix => Text.endsWith name suffix

/-- A path without the end that marks it as a source file. -/
def withoutSuffix (path : Text) : Text :=
  (suffixes.findSome? fun suffix => Text.before? suffix path).getD path

/-- The folders that hold the code of others. -/
def dependencyFolders : List Text :=
  ["node_modules".toList]

/-- Whether a pattern excludes a path: it fits the path, or the path lies below a folder of that
name. -/
def excludes (pattern path : Text) : Bool :=
  let cleaned := Text.dropEndWhile (· == '/') pattern
  Glob.admits cleaned path || Text.startsWith path (cleaned ++ ['/'])

/-- Whether any of several patterns excludes a path. -/
def isExcluded (patterns : List Text) (path : Text) : Bool :=
  patterns.any fun pattern => excludes pattern path

/-- Whether a name is that of a hidden entry. -/
def isHidden (name : Text) : Bool :=
  name.head? == some '.'

/-- The path of an entry seen from the folder where the search began. -/
def pathOf (place : Place) : Text :=
  Text.join ['/'] place

/-- Whether a folder is gone into. -/
def isEntered (patterns : List Text) (place : Place) (name : Text) : Bool :=
  !isHidden name && !dependencyFolders.contains name
    && !isExcluded patterns (pathOf (place ++ [name]))

/-- Whether a file is a source file that counts. -/
def isTaken (patterns : List Text) (place : Place) (name : Text) : Bool :=
  !isHidden name && isSourceName name && !isExcluded patterns (pathOf (place ++ [name]))

/-- The names of the entries that are no folders. What a link is depends on what it leads to. -/
def fileNames (leadsToFolder : Place → Bool) (place : Place) (entries : List (Text × Entry)) :
    List Text :=
  (entries.filter fun (name, entry) =>
    match entry with
    | .file _ => true
    | .link _ => !leadsToFolder (place ++ [name])
    | .folder _ => false).map (·.1)

mutual

/-- The places of the source files below an entry, which is itself at the given place. -/
def below (leadsToFolder : Place → Bool) (patterns : List Text) (place : Place) :
    Entry → List Place
  | .file _ => []
  | .link _ => []
  | .folder entries =>
    let files := (Text.sort (fileNames leadsToFolder place entries)).filter (isTaken patterns place)
    let folders := Text.sortOn (·.1) (belowFolders leadsToFolder patterns place entries)
    files.map (fun name => place ++ [name]) ++ folders.flatMap (·.2)

/-- The places of the source files below each folder that is gone into, with the name of the
folder. -/
def belowFolders (leadsToFolder : Place → Bool) (patterns : List Text) (place : Place) :
    List (Text × Entry) → List (Text × List Place)
  | [] => []
  | (name, entry) :: rest =>
    let more := belowFolders leadsToFolder patterns place rest
    if entry.isFolder && isEntered patterns place name then
      (name, below leadsToFolder patterns (place ++ [name]) entry) :: more
    else
      more

end

/-- The source files below the folder at a path, seen from there. There are none when the path leads
to no folder. -/
def find (disk : Disk) (path : Path) (patterns : List Text) : Except Failure (List Path) := do
  if !(← disk.isFolder path) then
    pure []
  else
    let location ← disk.locate true path
    let leadsToFolder (place : Place) : Bool :=
      match disk.isFolder ⟨1, location.place ++ place⟩ with
      | .ok answer => answer
      | .error _ => false
    let places := below leadsToFolder patterns [] (location.found.getD (.folder []))
    pure (places.map fun place => ⟨0, place⟩)

end Source

end LuauReference
