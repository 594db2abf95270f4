/-
This file finds the place that a path leads to. Names are looked up one after the other, two dots
lead to the folder above, and a link on the way is replaced by its target. A path is refused when a
folder on the way is missing or is no folder, when a name is too long, and when there are too many
links.

There are two ways to follow a path. `locate` is how the disk itself does it when a file is opened.
`resolve` gives the path without links and dots, also where nothing exists yet.
-/

import LuauReference.Disk.Entry
import LuauReference.Disk.Path
import LuauReference.Failure
import LuauReference.Text.Utf8

namespace LuauReference

/-- A disk: the tree of its entries and the place where paths that are not absolute begin. It denies
nobody what is on it. -/
structure Disk where
  root : Entry
  start : Place

namespace Disk

/-- A name has at most this number of bytes. -/
def longestName : Nat := 255

/-- A path has at most this number of bytes. -/
def longestPath : Nat := 4095

/-- At most this number of links is followed. -/
def mostLinks : Nat := 40

/-- Where a path leads: the place and what is there, or nothing when only the last name is
missing. -/
structure Location where
  place : Place
  found : Option Entry

/-- Where the names of a path lead up to the first link that has to be followed. -/
inductive Descent
  | arrived (location : Location)
  | refused (cause : DiskCause)
  | link (folder : Place) (target : Text) (rest : List Text)

/-- Looks up names from a folder on. The last name is looked up without following it when a link is
to be taken for itself. -/
def descend (root : Entry) (followLast : Bool) : Place → List Text → Descent
  | place, [] => .arrived ⟨place, root.at? place⟩
  | place, name :: rest =>
    if name = "..".toList then
      descend root followLast place.dropLast rest
    else if longestName < (Text.utf8 name).length then
      .refused .nameTooLong
    else
      let next := place ++ [name]
      match root.at? next with
      | none => if rest.isEmpty then .arrived ⟨next, none⟩ else .refused .notFound
      | some (.folder _) => descend root followLast next rest
      | some (.file bytes) =>
        if rest.isEmpty then .arrived ⟨next, some (.file bytes)⟩ else .refused .notDirectory
      | some (.link target) =>
        if rest.isEmpty && !followLast then .arrived ⟨next, some (.link target)⟩
        else .link place target rest

/-- The place where the names of a path begin. -/
def startOf (disk : Disk) (path : Path) : Place :=
  if path.isAbsolute then [] else disk.start

/-- Looks up names from a folder on and follows at most the given number of links. -/
def follow (root : Entry) (followLast : Bool) : Nat → Place → List Text → Except DiskCause Location
  | links, place, names =>
    match descend root followLast place names with
    | .arrived location => .ok location
    | .refused cause => .error cause
    | .link folder target rest =>
      match links with
      | 0 => .error .tooManyLinks
      | links + 1 =>
        let path := Path.read target
        follow root followLast links (if path.isAbsolute then [] else folder) (path.names ++ rest)

/-- The fault for a refused path. -/
def refused (path : Path) (cause : DiskCause) : Failure :=
  .disk ⟨cause, path.text⟩

/-- Where a path leads. A path that holds a null character is no path. -/
def locate (disk : Disk) (followLast : Bool) (path : Path) : Except Failure Location :=
  if path.text.contains '\x00' then
    .error .badValue
  else if longestPath < (Text.utf8 path.text).length then
    .error (refused path .nameTooLong)
  else
    match follow disk.root followLast mostLinks (disk.startOf path) path.names with
    | .ok location => .ok location
    | .error cause => .error (refused path cause)

/-- The place that names lead to, whether or not something is there, given what the target of a link
leads to from its folder. -/
def resolveNames (root : Entry) (expand : Place → List Text → Option Place) :
    Place → List Text → Option Place
  | place, [] => some place
  | place, name :: rest =>
    if name = "..".toList then
      resolveNames root expand place.dropLast rest
    else
      match root.at? (place ++ [name]) with
      | some (.link target) =>
        let path := Path.read target
        match expand (if path.isAbsolute then [] else place) path.names with
        | some place => resolveNames root expand place rest
        | none => none
      | _ => resolveNames root expand (place ++ [name]) rest

/-- The place that names lead to when links are replaced by what they stand for. The number bounds
how many links can stand inside of each other; there is no place when a link leads back to
itself. -/
def resolveFrom (root : Entry) : Nat → Place → List Text → Option Place
  | 0 => resolveNames root fun _ _ => none
  | depth + 1 => resolveNames root (resolveFrom root depth)

/-- The absolute path without links and dots that a path stands for. -/
def resolve (disk : Disk) (path : Path) : Except Failure Path :=
  if path.text.contains '\x00' then
    .error .badValue
  else
    match resolveFrom disk.root disk.root.linkCount (disk.startOf path) path.names with
    | some place => .ok ⟨1, place⟩
    | none => .error .linkLoop

end Disk

end LuauReference
