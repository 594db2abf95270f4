/-
This file holds paths: the names from a starting folder to a file, separated by slashes. An absolute
path starts at the root of the disk. Empty names and single dots say nothing and are dropped when a
path is read; two dots are kept, since the folder before them can be a link.
-/

import LuauReference.Text.Basic

namespace LuauReference

/-- A path: the slashes in front of it, one or two for an absolute path, and its names. -/
structure Path where
  slashes : Nat
  names : List Text
  deriving DecidableEq, Repr

namespace Path

/-- The path that a text writes. Two slashes in front are kept and more than two count as one. -/
def read (s : Text) : Path :=
  let slashes := (s.takeWhile (· == '/')).length
  ⟨if slashes ≤ 2 then slashes else 1,
    (Text.pieces '/' s).filter fun name => !name.isEmpty && name != ['.']⟩

/-- Whether a path starts at the root of the disk. -/
def isAbsolute (path : Path) : Bool :=
  path.slashes != 0

/-- The text of a path. -/
def text (path : Path) : Text :=
  if path.slashes = 0 && path.names.isEmpty then ['.']
  else List.replicate path.slashes '/' ++ Text.join ['/'] path.names

/-- A path inside the folder at another path; an absolute one stays as it is. -/
def join (path inner : Path) : Path :=
  if inner.isAbsolute then inner else ⟨path.slashes, path.names ++ inner.names⟩

/-- The path that a text writes, inside the folder at another path. -/
def child (path : Path) (inner : Text) : Path :=
  path.join (read inner)

/-- The path of the folder above, as far as the names say. -/
def parent (path : Path) : Path :=
  ⟨path.slashes, path.names.dropLast⟩

/-- The last name of a path. -/
def name (path : Path) : Text :=
  path.names.getLast?.getD []

/-- Whether a path ends in a name, so that this is the name of what it leads to. -/
def isNamed (path : Path) : Bool :=
  path.names.getLast?.any fun name => name != "..".toList

/-- The names of a path from another one on, if it begins with that one. -/
def relativeTo? (path base : Path) : Option Path :=
  if path.slashes = base.slashes && base.names.isPrefixOf path.names then
    some ⟨0, path.names.drop base.names.length⟩
  else
    none

/-- Drops the names that two lists have in common at their beginning. -/
def dropCommon : List Text → List Text → List Text × List Text
  | a :: as, b :: bs => if a = b then dropCommon as bs else (a :: as, b :: bs)
  | as, bs => (as, bs)

/-- The way from one absolute path to another, up to the folder they share and down again. -/
def wayFrom (path base : Path) : Path :=
  let (down, up) := dropCommon path.names base.names
  ⟨0, up.map (fun _ => "..".toList) ++ down⟩

/-- A path seen from another one: below it if it can be, and else the way from there. -/
def seenFrom (path base : Path) : Path :=
  (path.relativeTo? base).getD (path.wayFrom base)

end Path

end LuauReference
