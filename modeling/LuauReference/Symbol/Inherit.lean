/-
This file fills in documentation that a symbol takes over from another one of its file. A symbol
names the other by its qualified name, and takes over only what it lacks. Everything is looked up in
the symbols as they were, so that a chain of such symbols is followed for one step only.
-/

import LuauReference.Symbol.Basic

namespace LuauReference

namespace Inherit

/-- The name of the tag that asks for documentation to be taken over. -/
def tagName : Text := "inheritDoc"

/-- The qualified name from which a symbol takes documentation over. -/
def target? (symbol : Symbol) : Option Text :=
  symbol.docs.tags.findSome? fun tag =>
    match tag.value with
    | .str value => if tag.name = tagName && !value.isEmpty then some value else none
    | _ => none

/-- Whether a symbol has tags beside the one that asks to take over. -/
def hasOwnTags (docs : SymbolDocs) : Bool :=
  docs.tags.any fun tag => tag.name != tagName

mutual

/-- Whether a value says nothing: null, false and the empty text, and lists and objects of such. -/
def isEmptyShape : Json → Bool
  | .null => true
  | .bool value => !value
  | .int _ => false
  | .float _ => false
  | .str value => value.isEmpty
  | .arr items => areEmptyItems items
  | .obj fields => areEmptyFields fields

/-- Whether all items say nothing. -/
def areEmptyItems : List Json → Bool
  | [] => true
  | item :: items => isEmptyShape item && areEmptyItems items

/-- Whether all fields say nothing. -/
def areEmptyFields : List (Text × Json) → Bool
  | [] => true
  | (_, value) :: fields => isEmptyShape value && areEmptyFields fields

end

/-- Whether the structure of a type says something. -/
def hasShape (types : SymbolTypes) : Bool :=
  match types.structured with
  | some fields => !areEmptyFields fields
  | none => false

/-- The symbol with what it lacks taken from another one. -/
def merge (symbol target : Symbol) : Symbol :=
  let docs := symbol.docs
  let docs :=
    if docs.description.isEmpty && !target.docs.description.isEmpty then
      { docs with summary := target.docs.summary, description := target.docs.description }
    else
      docs
  let docs :=
    if !hasOwnTags docs && !target.docs.tags.isEmpty then
      { docs with tags := target.docs.tags }
    else
      docs
  let types :=
    if !hasShape symbol.types && hasShape target.types then target.types else symbol.types
  { symbol with docs := docs, types := types }

/-- The last symbol with a qualified name. -/
def find? (symbols : List Symbol) (name : Text) : Option Symbol :=
  symbols.reverse.find? fun symbol => symbol.qualified = name

end Inherit

/-- The symbols with documentation taken over where they ask for it. -/
def inheritDocs (symbols : List Symbol) : List Symbol :=
  symbols.map fun symbol =>
    match (Inherit.target? symbol).bind (Inherit.find? symbols) with
    | some target => Inherit.merge symbol target
    | none => symbol

end LuauReference
