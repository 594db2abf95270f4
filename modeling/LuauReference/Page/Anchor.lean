/-
This file makes anchors, the names of places inside a page, and hands them out so that no two places
of a page share one. Anchors and the fragments of links go through the same function, so they agree
character for character.
-/

import LuauReference.Symbol.Basic

namespace LuauReference

namespace Anchor

/-! ### The form of an anchor -/

/-- The characters that an anchor may have. -/
def isAllowed (c : Char) : Bool :=
  Text.isWordChar c || c == '-'

/-- Writes a hyphen for every stretch of blanks and keeps the allowed characters, given whether the
character before was a blank. -/
def keep (afterBlank : Bool) : Text → Text
  | [] => []
  | c :: rest =>
    if Text.isBlank c then
      if afterBlank then keep true rest else '-' :: keep true rest
    else if isAllowed c then
      c :: keep false rest
    else
      keep false rest

/-- The anchor of a text, unless nothing of it can be kept. -/
def ofText? (s : Text) : Option Text :=
  let kept := keep false (Text.trim s)
  if kept.isEmpty then none else some kept

/-- Drops the arguments of a call at the end of the name of a member. -/
def dropCall (s : Text) : Text :=
  match Text.cut? "(" s with
  | some (name, _) => if Text.endsWith s ")" then name else s
  | none => s

/-! ### Handing out anchors -/

/-- The anchors that a page has used. -/
structure Used where
  anchors : List Text := []
  deriving DecidableEq, Repr

/-- Whether an anchor has been used. -/
def Used.has (used : Used) (anchor : Text) : Bool :=
  List.elem anchor used.anchors

/-- Marks an anchor as used. -/
def Used.reserve (used : Used) (anchor : Text) : Used :=
  if used.has anchor then used else ⟨anchor :: used.anchors⟩

/-- An anchor with a number behind it. -/
def numbered (base : Text) (number : Nat) : Text :=
  base ++ '-' :: Text.ofNat number

/-- The first anchor with a number from two on that has not been used. Among one more numbers than
there are used anchors one is free. -/
def Used.firstNumbered (used : Used) (base : Text) : Text :=
  let numbers := (List.range (used.anchors.length + 1)).map (· + 2)
  match numbers.find? fun number => !used.has (numbered base number) with
  | some number => numbered base number
  | none => numbered base (used.anchors.length + 3)

/-- The anchors that a place asks for, in order of preference: from its name, from its qualified
name and from its heading. -/
def candidates (texts : List (Option Text)) : List Text :=
  (texts.filterMap fun text => text.bind ofText?).eraseDups

/-- Hands out an anchor: the first candidate that is free, or else the first candidate with a
number. -/
def Used.allocate (used : Used) (texts : List (Option Text)) : Option Text × Used :=
  match candidates texts with
  | [] => (none, used)
  | first :: more =>
    match (first :: more).find? fun anchor => !used.has anchor with
    | some anchor => (some anchor, used.reserve anchor)
    | none =>
      let anchor := used.firstNumbered first
      (some anchor, used.reserve anchor)

/-- Hands out an anchor for a symbol under the heading that it is shown with. -/
def Used.allocateSymbol (used : Used) (symbol : Symbol) : Option Text × Used :=
  used.allocate [some symbol.name, some symbol.qualified, some symbol.shownName]

/-- Hands out anchors for symbols, one after the other. -/
def Used.allocateAll (used : Used) : List Symbol → List (Option Text) × Used
  | [] => ([], used)
  | symbol :: rest =>
    let (anchor, used) := used.allocateSymbol symbol
    let (anchors, used) := used.allocateAll rest
    (anchor :: anchors, used)

end Anchor

end LuauReference
