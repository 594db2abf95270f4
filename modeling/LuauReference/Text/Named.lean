/-
This file holds values under names: lists of pairs in which a name occurs once and which keep the
order in which names were first set. They are the fields of objects, the labels of a page and the
records of a manifest.
-/

import LuauReference.Text.Basic

namespace LuauReference

/-- Values under names, in order. -/
abbrev Named (α : Type) := List (Text × α)

namespace Named

variable {α : Type}

/-- The value under a name. -/
def get? (entries : Named α) (name : Text) : Option α :=
  List.lookup name entries

/-- Whether a name has a value. -/
def has (entries : Named α) (name : Text) : Bool :=
  (get? entries name).isSome

/-- Puts a value under a name, in its place when the name is there and at the end when it is not. -/
def set : Named α → Text → α → Named α
  | [], name, value => [(name, value)]
  | (other, old) :: rest, name, value =>
    if other = name then (name, value) :: rest else (other, old) :: set rest name value

/-- Puts a value under a name unless it has one. -/
def setDefault (entries : Named α) (name : Text) (value : α) : Named α :=
  if has entries name then entries else set entries name value

/-- Sets each of a list of pairs in turn. -/
def update (entries : Named α) (pairs : List (Text × α)) : Named α :=
  pairs.foldl (fun entries (name, value) => set entries name value) entries

/-- The values of a list of pairs when each is set in turn: of one name the last value counts and
the first place is kept. -/
def ofPairs (pairs : List (Text × α)) : Named α :=
  update [] pairs

end Named

end LuauReference
