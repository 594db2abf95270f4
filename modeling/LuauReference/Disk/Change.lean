/-
This file compares two states of a disk. The result is the list of changes that lead from the one to
the other, in an order in which they can be made: what is gone is removed from the bottom up, and
then folders are made before what is in them.
-/

import LuauReference.Disk.Entry

namespace LuauReference

/-- A single change of a disk. -/
inductive Change
  | removeFile (place : Place)
  | removeFolder (place : Place)
  | makeFolder (place : Place)
  | writeFile (place : Place) (bytes : List UInt8)

namespace Change

/-- Whether two entries are of one kind. -/
def isSameKind : Entry → Entry → Bool
  | .file _, .file _ => true
  | .link _, .link _ => true
  | .folder _, .folder _ => true
  | _, _ => false

/-- The change that takes away an entry, unless it is still there with its kind. -/
def removal? (new : Entry) (place : Place) (entry : Entry) : Option Change :=
  if (new.at? place).any (isSameKind entry) then none
  else if entry.isFolder then some (.removeFolder place)
  else some (.removeFile place)

/-- The change that brings in an entry, unless it was there as it is. Links are never made by a
run. -/
def addition? (old : Entry) (place : Place) (entry : Entry) : Option Change :=
  match entry, old.at? place with
  | .folder _, some (.folder _) => none
  | .folder _, _ => some (.makeFolder place)
  | .file bytes, some (.file before) =>
    if before = bytes then none else some (.writeFile place bytes)
  | .file bytes, _ => some (.writeFile place bytes)
  | .link _, _ => none

/-- The changes that lead from one tree to another. -/
def between (old new : Entry) : List Change :=
  (old.contents.reverse.filterMap fun (place, entry) => removal? new place entry)
    ++ new.contents.filterMap fun (place, entry) => addition? old place entry

end Change

end LuauReference
