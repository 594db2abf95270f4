/-
This file proves what taking documentation over does to the symbols of a file. A symbol and the one
that it takes from are merged part by part, and each part is taken only where the symbol has nothing
of its own there; what was taken is something, so merging once more takes nothing. What a symbol
takes depends on the symbols as they were, which is why neither the order of the symbols nor chains
and cycles of them matter. It is also why a second pass can do more than the first one: only where
the symbols that are taken from ask for nothing themselves is everything settled at once.
-/

import LuauReference.Symbol.Inherit
import Mathlib.Data.Fin.Rev
import Mathlib.Data.List.FinRange

namespace LuauReference

/-! ### Types with content -/

/-- Whether a value has content: it is true, a number or a text with a character, or a value in it
has content. -/
inductive Json.HasContent : Json → Prop
  | true : HasContent (.bool true)
  | int (value : Int) : HasContent (.int value)
  | float (value : Binary64) : HasContent (.float value)
  | str {value : Text} (present : value ≠ []) : HasContent (.str value)
  | item {items : List Json} {item : Json} (member : item ∈ items) (full : HasContent item) :
      HasContent (.arr items)
  | field {fields : List (Text × Json)} {field : Text × Json} (member : field ∈ fields)
      (full : HasContent field.2) : HasContent (.obj fields)

/-- Whether the structure of a type is known and has content. -/
def SymbolTypes.HasContent (types : SymbolTypes) : Prop :=
  ∃ fields ∈ types.structured, (Json.obj fields).HasContent

namespace Inherit

theorem areEmptyItems_eq (items : List Json) : areEmptyItems items = items.all isEmptyShape := by
  induction items with
  | nil => rfl
  | cons item items inductionHypothesis => rw [areEmptyItems, inductionHypothesis, List.all_cons]

theorem areEmptyFields_eq (fields : List (Text × Json)) :
    areEmptyFields fields = fields.all fun field => isEmptyShape field.2 := by
  induction fields with
  | nil => rfl
  | cons field fields inductionHypothesis => rw [areEmptyFields, inductionHypothesis, List.all_cons]

theorem isEmptyShape_of_hasContent {value : Json} (full : value.HasContent) :
    isEmptyShape value = false := by
  induction full with
  | true => rfl
  | int value => rfl
  | float value => rfl
  | str present => exact List.isEmpty_eq_false_iff.mpr present
  | item member _ inductionHypothesis =>
    rw [isEmptyShape, areEmptyItems_eq, List.all_eq_false]
    exact ⟨_, member, Bool.eq_false_iff.mp inductionHypothesis⟩
  | field member _ inductionHypothesis =>
    rw [isEmptyShape, areEmptyFields_eq, List.all_eq_false]
    exact ⟨_, member, Bool.eq_false_iff.mp inductionHypothesis⟩

theorem hasContent_of_isEmptyShape : (value : Json) → isEmptyShape value = false → value.HasContent
  | .null, shaped => by cases shaped
  | .bool true, _ => .true
  | .bool false, shaped => by cases shaped
  | .int value, _ => .int value
  | .float value, _ => .float value
  | .str _, shaped => .str (List.isEmpty_eq_false_iff.mp shaped)
  | .arr items, shaped => by
    rw [isEmptyShape, areEmptyItems_eq, List.all_eq_false] at shaped
    obtain ⟨item, member, full⟩ := shaped
    exact .item member (hasContent_of_isEmptyShape item (Bool.eq_false_iff.mpr full))
  | .obj fields, shaped => by
    rw [isEmptyShape, areEmptyFields_eq, List.all_eq_false] at shaped
    obtain ⟨⟨name, value⟩, member, full⟩ := shaped
    exact .field member (hasContent_of_isEmptyShape value (Bool.eq_false_iff.mpr full))
termination_by value => sizeOf value
decreasing_by
  all_goals
    have smaller := List.sizeOf_lt_of_mem member
    simp only [Json.arr.sizeOf_spec, Json.obj.sizeOf_spec, Prod.mk.sizeOf_spec] at smaller ⊢
    omega

theorem hasShape_iff {types : SymbolTypes} : hasShape types = true ↔ types.HasContent := by
  obtain ⟨display, structured⟩ := types
  cases structured with
  | none => exact iff_of_false Bool.false_ne_true nofun
  | some fields =>
    have shaped : hasShape ⟨display, some fields⟩ = !isEmptyShape (.obj fields) := rfl
    rw [shaped, Bool.not_eq_true']
    constructor
    · exact fun full => ⟨fields, rfl, hasContent_of_isEmptyShape _ full⟩
    · rintro ⟨_, ⟨⟩, full⟩
      exact isEmptyShape_of_hasContent full

/-! ### Merging -/

/-- Whether a symbol takes the text of another one: it has none and the other one has. -/
def takesText (symbol target : Symbol) : Bool :=
  symbol.docs.description.isEmpty && !target.docs.description.isEmpty

/-- Whether a symbol takes the tags of another one: it has none of its own and the other one has
some. -/
def takesTags (symbol target : Symbol) : Bool :=
  !hasOwnTags symbol.docs && !target.docs.tags.isEmpty

/-- Whether a symbol takes the types of another one: it has none with content and the other one
has. -/
def takesTypes (symbol target : Symbol) : Bool :=
  !hasShape symbol.types && hasShape target.types

/-- A merged symbol, part by part. -/
theorem merge_eq (symbol target : Symbol) :
    merge symbol target =
      { symbol with
        docs := ⟨if takesText symbol target then target.docs.summary else symbol.docs.summary,
          if takesText symbol target then target.docs.description else symbol.docs.description,
          if takesTags symbol target then target.docs.tags else symbol.docs.tags⟩
        types := if takesTypes symbol target then target.types else symbol.types } := by
  have text : (if symbol.docs.description.isEmpty && !target.docs.description.isEmpty then
        { symbol.docs with summary := target.docs.summary, description := target.docs.description }
      else symbol.docs) =
        ⟨if takesText symbol target then target.docs.summary else symbol.docs.summary,
          if takesText symbol target then target.docs.description else symbol.docs.description,
          symbol.docs.tags⟩ := by
    rw [takesText]
    split <;> rfl
  rw [merge, text]
  have tags : hasOwnTags
      ⟨if takesText symbol target then target.docs.summary else symbol.docs.summary,
      if takesText symbol target then target.docs.description else symbol.docs.description,
      symbol.docs.tags⟩ = hasOwnTags symbol.docs := rfl
  rw [tags, takesTags, takesTypes]
  split <;> rfl

theorem merge_self (symbol : Symbol) : merge symbol symbol = symbol := by
  rw [merge_eq]
  simp only [ite_self]

theorem takesText_merge (symbol target : Symbol) :
    takesText (merge symbol target) target = false := by
  rw [takesText, merge_eq]
  dsimp only
  cases taken : takesText symbol target with
  | true =>
    have present := (Bool.and_eq_true_iff.mp taken).2
    rw [if_pos rfl, Bool.and_comm, present, Bool.true_and, ← Bool.not_eq_true', present]
  | false => exact taken

theorem takesTypes_merge (symbol target : Symbol) :
    takesTypes (merge symbol target) target = false := by
  rw [takesTypes, merge_eq]
  dsimp only
  cases taken : takesTypes symbol target with
  | true =>
    have shaped := (Bool.and_eq_true_iff.mp taken).2
    rw [if_pos rfl, shaped]
    rfl
  | false => exact taken

theorem tags_merge (symbol target : Symbol) : (merge symbol target).docs.tags =
    if takesTags symbol target then target.docs.tags else symbol.docs.tags := by
  rw [merge_eq]

/-- Tags that were taken are the same when they are taken again. -/
theorem tags_merge_merge (symbol target : Symbol) :
    (merge (merge symbol target) target).docs.tags = (merge symbol target).docs.tags := by
  rw [tags_merge, ite_eq_right_iff]
  intro again
  rw [tags_merge]
  cases taken : takesTags symbol target with
  | true => rfl
  | false =>
    have same : hasOwnTags (merge symbol target).docs = hasOwnTags symbol.docs := by
      rw [hasOwnTags, hasOwnTags, tags_merge, taken]
      rfl
    rw [takesTags, same, ← takesTags, taken] at again
    cases again

/-- Merging once more with the same symbol changes nothing. -/
theorem merge_merge (symbol target : Symbol) :
    merge (merge symbol target) target = merge symbol target := by
  have tags := tags_merge_merge symbol target
  rw [tags_merge] at tags
  rw [merge_eq (merge symbol target), tags, takesText_merge, takesTypes_merge]
  rfl

/-- What a merged symbol asks for: what its tags ask for, which may be taken ones. -/
theorem target?_merge (symbol target : Symbol) : target? (merge symbol target) =
    if takesTags symbol target then target? target else target? symbol := by
  rw [target?, tags_merge]
  split <;> rfl

end Inherit

/-! ### What is kept -/

/-- Whether a symbol is still the one it was: in its place and under its names, with its text, its
tags and its types wherever it had any of its own. -/
structure Symbol.IsKept (before after : Symbol) : Prop where
  kind : after.kind = before.kind
  name : after.name = before.name
  qualified : after.qualified = before.qualified
  location : after.location = before.location
  visibility : after.visibility = before.visibility
  text : before.docs.description ≠ [] →
    after.docs.description = before.docs.description ∧ after.docs.summary = before.docs.summary
  tags : (∃ tag ∈ before.docs.tags, tag.name ≠ "inheritDoc".toList) →
    after.docs.tags = before.docs.tags
  types : before.types.HasContent → after.types = before.types

theorem Symbol.IsKept.refl (symbol : Symbol) : symbol.IsKept symbol :=
  ⟨rfl, rfl, rfl, rfl, rfl, fun _ => ⟨rfl, rfl⟩, fun _ => rfl, fun _ => rfl⟩

namespace Inherit

theorem isKept_merge (symbol target : Symbol) : symbol.IsKept (merge symbol target) where
  kind := rfl
  name := rfl
  qualified := rfl
  location := rfl
  visibility := rfl
  text := by
    intro present
    have own : takesText symbol target = false := by
      rw [takesText, List.isEmpty_eq_false_iff.mpr present, Bool.false_and]
    rw [merge_eq, own]
    exact ⟨rfl, rfl⟩
  tags := by
    rintro ⟨tag, member, other⟩
    have own : hasOwnTags symbol.docs = true :=
      List.any_eq_true.mpr ⟨tag, member, bne_iff_ne.mpr other⟩
    rw [tags_merge, takesTags, own]
    rfl
  types := by
    intro full
    rw [merge_eq, takesTypes, hasShape_iff.mpr full]
    rfl

/-! ### Looking up -/

/-- A symbol with what it asks for taken from the symbols of its file. -/
def filled (symbols : List Symbol) (symbol : Symbol) : Symbol :=
  match (target? symbol).bind (find? symbols) with
  | some target => merge symbol target
  | none => symbol

theorem inheritDocs_eq (symbols : List Symbol) :
    inheritDocs symbols = symbols.map (filled symbols) :=
  rfl

theorem isKept_filled (symbols : List Symbol) (symbol : Symbol) :
    symbol.IsKept (filled symbols symbol) := by
  unfold filled
  split
  · exact isKept_merge symbol _
  · exact .refl symbol

theorem filled_of_target {symbols : List Symbol} {symbol target : Symbol}
    (found : (target? symbol).bind (find? symbols) = some target) :
    filled symbols symbol = merge symbol target := by
  rw [filled, found]

theorem filled_of_missing {symbols : List Symbol} {symbol : Symbol}
    (missing : (target? symbol).bind (find? symbols) = none) : filled symbols symbol = symbol := by
  rw [filled, missing]

/-- What is looked up by name among changed symbols is the changed one, as long as no name
changes. -/
theorem find?_map {change : Symbol → Symbol}
    (same : ∀ symbol, (change symbol).qualified = symbol.qualified)
    (symbols : List Symbol) (name : Text) :
    find? (symbols.map change) name = (find? symbols name).map change := by
  have keys : (fun symbol : Symbol => decide (symbol.qualified = name)) ∘ change =
      fun symbol => decide (symbol.qualified = name) :=
    funext fun symbol => by rw [Function.comp_apply, same]
  rw [find?, ← List.map_reverse, List.find?_map, keys, find?]

theorem mem_of_find? {symbols : List Symbol} {name : Text} {symbol : Symbol}
    (found : find? symbols name = some symbol) : symbol ∈ symbols ∧ symbol.qualified = name := by
  rw [find?] at found
  exact ⟨List.mem_reverse.mp (List.mem_of_find?_eq_some found),
    by simpa using List.find?_some found⟩

/-- What merging keeps holds of all symbols of a file once documentation is taken over. -/
theorem forall_mem_inheritDocs {holds : Symbol → Prop}
    (merged : ∀ symbol target, holds symbol → holds target → holds (merge symbol target))
    {symbols : List Symbol} (each : ∀ symbol ∈ symbols, holds symbol) :
    ∀ symbol ∈ inheritDocs symbols, holds symbol := by
  rw [inheritDocs_eq, List.forall_mem_map]
  intro symbol member
  unfold filled
  split
  · next target found =>
    obtain ⟨name, -, held⟩ := Option.bind_eq_some_iff.mp found
    exact merged symbol target (each symbol member) (each target (mem_of_find? held).1)
  · exact each symbol member

/-- Among symbols with different names each one is found by its name. -/
theorem find?_eq_some_iff {symbols : List Symbol} (distinct : (symbols.map Symbol.qualified).Nodup)
    {name : Text} {symbol : Symbol} :
    find? symbols name = some symbol ↔ symbol ∈ symbols ∧ symbol.qualified = name := by
  refine ⟨mem_of_find?, ?_⟩
  rintro ⟨member, rfl⟩
  cases found : find? symbols symbol.qualified with
  | none =>
    have missing := List.find?_eq_none.mp found symbol (List.mem_reverse.mpr member)
    exact absurd (decide_eq_true rfl) missing
  | some other =>
    obtain ⟨held, named⟩ := mem_of_find? found
    rw [List.inj_on_of_nodup_map distinct held member named]

/-- Looking up does not depend on the order of symbols with different names. -/
theorem find?_of_perm {symbols others : List Symbol}
    (distinct : (symbols.map Symbol.qualified).Nodup) (same : others.Perm symbols) :
    find? others = find? symbols := by
  have others_distinct : (others.map Symbol.qualified).Nodup :=
    (same.map Symbol.qualified).nodup_iff.mpr distinct
  funext name
  refine Option.ext fun symbol => ?_
  rw [find?_eq_some_iff distinct, find?_eq_some_iff others_distinct, same.mem_iff]

/-- What is looked up after a pass is what was looked up before it, with what it takes itself. -/
theorem bind_find?_filled (symbols : List Symbol) (asked : Option Text) :
    asked.bind (find? (symbols.map (filled symbols))) =
      (asked.bind (find? symbols)).map (filled symbols) := by
  cases asked with
  | none => rfl
  | some name =>
    exact find?_map (fun symbol => (isKept_filled symbols symbol).qualified) symbols name

end Inherit

/-- Whether a tag asks for the documentation of the symbol with a name. -/
def SymbolTag.AsksFor (tag : SymbolTag) (name : Text) : Prop :=
  tag.name = "inheritDoc" ∧ tag.value = .str name ∧ name ≠ []

/-- Whether no symbol that another one takes documentation from asks for any itself. -/
def AreUnchained (symbols : List Symbol) : Prop :=
  ∀ symbol ∈ symbols, ∀ name target, Inherit.target? symbol = some name →
    Inherit.find? symbols name = some target → target ≠ symbol →
      ∀ tag ∈ target.docs.tags, ∀ other, ¬ tag.AsksFor other

namespace Inherit

/-- A symbol asks for nothing exactly when none of its tags does. -/
theorem target?_eq_none_iff {symbol : Symbol} :
    target? symbol = none ↔ ∀ tag ∈ symbol.docs.tags, ∀ name, ¬ tag.AsksFor name := by
  rw [target?, List.findSome?_eq_none_iff]
  refine forall₂_congr fun tag _ => ?_
  obtain ⟨name, value, description⟩ := tag
  cases value with
  | str value =>
    dsimp only
    split
    · next asks =>
      rw [Bool.and_eq_true, Bool.not_eq_true', List.isEmpty_eq_false_iff] at asks
      refine iff_of_false nofun fun silent => silent value ⟨of_decide_eq_true asks.1, rfl, asks.2⟩
    · next silent =>
      refine iff_of_true rfl ?_
      rintro _ ⟨named, ⟨⟩, present⟩
      exact silent (Bool.and_eq_true_iff.mpr
        ⟨decide_eq_true named, by rw [List.isEmpty_eq_false_iff.mpr present]; rfl⟩)
  | _ => exact iff_of_true rfl nofun

/-- A second look at a symbol that has taken what it asked for finds nothing more to take. -/
theorem filled_filled {symbols : List Symbol} (unchained : AreUnchained symbols) {symbol : Symbol}
    (member : symbol ∈ symbols) :
    filled (symbols.map (filled symbols)) (filled symbols symbol) = filled symbols symbol := by
  have again := bind_find?_filled symbols
  cases found : (target? symbol).bind (find? symbols) with
  | none =>
    rw [filled_of_missing found]
    exact filled_of_missing (by rw [again, found, Option.map_none])
  | some target =>
    obtain ⟨name, asked, held⟩ := Option.bind_eq_some_iff.mp found
    rw [filled_of_target found]
    by_cases own : target = symbol
    · subst own
      rw [merge_self]
      refine (filled_of_target ?_).trans (merge_self target)
      rw [again, found, Option.map_some, filled_of_target found, merge_self]
    · have silent : target? target = none :=
        target?_eq_none_iff.mpr (unchained symbol member name target asked held own)
      have settled : filled symbols target = target :=
        filled_of_missing (by rw [silent, Option.bind_none])
      cases taken : takesTags symbol target with
      | true =>
        refine filled_of_missing ?_
        rw [target?_merge, taken, if_pos rfl, silent, Option.bind_none]
      | false =>
        refine (filled_of_target ?_).trans (merge_merge symbol target)
        rw [target?_merge, taken, if_neg Bool.false_ne_true, again, found, Option.map_some, settled]

end Inherit

theorem length_inheritDocs (symbols : List Symbol) :
    (inheritDocs symbols).length = symbols.length :=
  List.length_map _

/-- Taking documentation over gives a symbol for each symbol, which is the one it was and takes only
what it lacks. When the names of the symbols differ, their order does not matter to any of them. -/
theorem inheritDocs_fills_gaps (symbols : List Symbol) :
    List.Forall₂ Symbol.IsKept symbols (inheritDocs symbols) ∧
      ((symbols.map Symbol.qualified).Nodup → ∀ order : Equiv.Perm (Fin symbols.length),
        inheritDocs (List.ofFn fun place => symbols.get (order place)) =
          List.ofFn fun place =>
            (inheritDocs symbols).get ((order place).cast (length_inheritDocs symbols).symm)) := by
  constructor
  · rw [Inherit.inheritDocs_eq, List.forall₂_map_right_iff, List.forall₂_same]
    exact fun symbol _ => Inherit.isKept_filled symbols symbol
  · intro distinct order
    have same : (List.ofFn fun place => symbols.get (order place)).Perm symbols := by
      have moved := Equiv.Perm.ofFn_comp_perm order symbols.get
      rwa [List.ofFn_get] at moved
    have lookup : Inherit.filled (List.ofFn fun place => symbols.get (order place)) =
        Inherit.filled symbols := by
      funext symbol
      rw [Inherit.filled, Inherit.filled, Inherit.find?_of_perm distinct same]
    rw [Inherit.inheritDocs_eq, lookup, List.map_ofFn]
    exact congrArg List.ofFn (funext fun place => (List.getElem_map (Inherit.filled symbols)).symm)

/-- A function with a description that may ask for the documentation of another one. -/
def askingSymbol (qualified description : Text) (asked : Option Text) : Symbol where
  kind := "function"
  name := qualified
  qualified := qualified
  location := ⟨"Gate.luau", 1, 1⟩
  docs := ⟨description, description, asked.toList.map fun name => ⟨"inheritDoc", .str name, .null⟩⟩

/-- Three functions that ask for each other in a cycle. Two of them have nothing of their own. -/
def cyclicSymbols : List Symbol :=
  [askingSymbol "Gate.open" [] (some "Gate.lift"),
    askingSymbol "Gate.lift" "Lifts." (some "Gate.pull"),
    askingSymbol "Gate.pull" [] (some "Gate.open")]

theorem inheritDocs_fills_gaps_cyclic :
    (cyclicSymbols.map Symbol.qualified).Nodup ∧
      (inheritDocs cyclicSymbols).map (fun symbol => symbol.docs.description) =
        ["Lifts.", "Lifts.", ""].map String.toList ∧
      inheritDocs cyclicSymbols.reverse = (inheritDocs cyclicSymbols).reverse := by
  have distinct : (cyclicSymbols.map Symbol.qualified).Nodup := by decide
  exact ⟨distinct, by decide, (inheritDocs_fills_gaps cyclicSymbols).2 distinct Fin.revPerm⟩

/-- A second pass changes nothing when no symbol that another one takes from asks for anything. -/
theorem inheritDocs_inheritDocs {symbols : List Symbol} (unchained : AreUnchained symbols) :
    inheritDocs (inheritDocs symbols) = inheritDocs symbols := by
  rw [Inherit.inheritDocs_eq, Inherit.inheritDocs_eq, List.map_map]
  exact List.map_congr_left fun symbol member => Inherit.filled_filled unchained member

/-- Functions of which one is asked for under a name that two of them have, one asks for itself, and
one for a name that there is not. -/
def unchainedSymbols : List Symbol :=
  [askingSymbol "Gate.lift" [] (some "Gate.open"), askingSymbol "Gate.open" "Opens." none,
    askingSymbol "Gate.open" "Opens again." none, askingSymbol "Gate.pull" [] (some "Gate.pull"),
    askingSymbol "Gate.push" [] (some "Gate.lost")]

theorem inheritDocs_inheritDocs_unchained :
    AreUnchained unchainedSymbols ∧
      (inheritDocs unchainedSymbols).map (fun symbol => symbol.docs.description) =
        ["Opens again.", "Opens.", "Opens again.", "", ""].map String.toList ∧
      inheritDocs (inheritDocs unchainedSymbols) = inheritDocs unchainedSymbols := by
  have unchained : AreUnchained unchainedSymbols := by
    intro symbol member name target asked held differs
    simp only [unchainedSymbols, List.mem_cons, List.not_mem_nil, or_false] at member
    rcases member with rfl | rfl | rfl | rfl | rfl
    · cases asked
      cases held
      exact List.forall_mem_nil _
    · cases asked
    · cases asked
    · cases asked
      cases held
      exact absurd rfl differs
    · cases asked
      cases held
  exact ⟨unchained, by decide, inheritDocs_inheritDocs unchained⟩

end LuauReference
