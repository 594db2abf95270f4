/-
This file holds what can stand on a disk: files with their bytes, symbolic links with the path they
lead to, and folders with entries under names. A place is the list of names from the root to an
entry. Reading and changing the tree at a place is recursion on the place and knows nothing of
links; these are followed before.
-/

import LuauReference.Text.Named

namespace LuauReference

/-- Something on a disk. -/
inductive Entry
  | file (bytes : List UInt8)
  | link (target : Text)
  | folder (entries : List (Text × Entry))

/-- The names from the root of a disk to an entry. -/
abbrev Place := List Text

namespace Entry

/-- Whether an entry is a folder. -/
def isFolder : Entry → Bool
  | folder _ => true
  | _ => false

/-- Whether an entry is a file. -/
def isFile : Entry → Bool
  | file _ => true
  | _ => false

/-- The entries of a folder; nothing else has any. -/
def entries : Entry → Named Entry
  | folder entries => entries
  | _ => []

/-- The entry at a place below another one. -/
def at? : Entry → Place → Option Entry
  | entry, [] => some entry
  | entry, name :: rest =>
    match entry.entries.get? name with
    | some inner => inner.at? rest
    | none => none

/-- Puts an entry at a place whose folders exist; folders that do not are made. Nothing can be put
below something that is no folder. -/
def put : Entry → Place → Entry → Entry
  | _, [], new => new
  | folder entries, name :: rest, new =>
    let inner := (Named.get? entries name).getD (folder [])
    folder (Named.set entries name (put inner rest new))
  | other, _ :: _, _ => other

/-- Takes away the entry at a place. The root stays. -/
def remove : Entry → Place → Entry
  | entry, [] => entry
  | folder entries, [name] => folder (entries.filter fun (other, _) => other != name)
  | folder entries, name :: next :: rest =>
    match Named.get? entries name with
    | some inner => folder (Named.set entries name (remove inner (next :: rest)))
    | none => folder entries
  | other, _ :: _ => other

mutual

/-- How many links there are in a tree. -/
def linkCount : Entry → Nat
  | file _ => 0
  | link _ => 1
  | folder entries => linkCountOf entries

/-- How many links there are among entries and below them. -/
def linkCountOf : List (Text × Entry) → Nat
  | [] => 0
  | (_, entry) :: rest => linkCount entry + linkCountOf rest

end

mutual

/-- The places of all entries below one, folders before what is in them, with the entries. -/
def contents : Entry → List (Place × Entry)
  | file _ => []
  | link _ => []
  | folder entries => contentsOf entries

/-- The places of entries and of all that is below them. -/
def contentsOf : List (Text × Entry) → List (Place × Entry)
  | [] => []
  | (name, entry) :: rest =>
    ([name], entry) :: (contents entry).map (fun (place, inner) => (name :: place, inner))
      ++ contentsOf rest

end

/-! ### Folders from the bottom up -/

mutual

/-- The places of all folders below an entry from the bottom up: first what is below the folders in
it, one folder after the other, and then these folders. -/
def foldersUp : Entry → List Place
  | file _ => []
  | link _ => []
  | folder entries =>
    foldersBelow entries ++
      (entries.filter fun (_, entry) => entry.isFolder).map fun (name, _) => [name]

/-- The places of the folders below entries, without the entries themselves. -/
def foldersBelow : List (Text × Entry) → List Place
  | [] => []
  | (name, entry) :: rest => (foldersUp entry).map (name :: ·) ++ foldersBelow rest

end

end Entry

end LuauReference
