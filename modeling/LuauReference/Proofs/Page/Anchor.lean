/-
This file proves that no anchor is handed out twice on a page. A single anchor is free when it is
handed out: a candidate is tested, and of one more numbered anchors than there are used ones not all
can be used. It counts as used from then on, so what is handed out later, to other symbols and in
other sections, is different from all that was handed out before. The used anchors are carried from
step to step, and everything is said about a whole run of steps: what it gave away is distinct, was
free before it and is used after it.
-/

import LuauReference.Page.Anchor
import LuauReference.Proofs.Text.Numeral
import Mathlib.Data.List.Nodup
import Mathlib.Data.List.Perm.Subperm
import Mathlib.Order.Bounds.Defs

namespace LuauReference

namespace Anchor

/-! ### Used anchors -/

theorem Used.has_iff {used : Used} {anchor : Text} :
    used.has anchor = true ↔ anchor ∈ used.anchors :=
  List.elem_iff

theorem Used.mem_reserve {used : Used} {anchor other : Text} :
    other ∈ (used.reserve anchor).anchors ↔ other = anchor ∨ other ∈ used.anchors := by
  unfold reserve
  split
  · next present =>
    constructor
    · exact Or.inr
    · rintro (rfl | member)
      · exact has_iff.mp present
      · exact member
  · exact List.mem_cons

/-! ### Numbered anchors -/

theorem numbered_injective (base : Text) : Function.Injective (numbered base) := by
  intro first second same
  have numerals : Text.ofNat first = Text.ofNat second :=
    (List.cons.inj (List.append_cancel_left same)).2
  have values := congrArg (Text.naturalIn? 10) numerals
  rw [Text.naturalIn?_ofNat, Text.naturalIn?_ofNat] at values
  exact Option.some.inj values

/-- Some number among one more than there are used anchors gives a free anchor. -/
theorem Used.exists_free_number (used : Used) (base : Text) :
    ∃ number ∈ (List.range (used.anchors.length + 1)).map (· + 2),
      numbered base number ∉ used.anchors := by
  by_contra taken
  push Not at taken
  have distinct :
      (((List.range (used.anchors.length + 1)).map (· + 2)).map (numbered base)).Nodup :=
    (List.nodup_range.map (add_left_injective 2)).map (numbered_injective base)
  have inside : ((List.range (used.anchors.length + 1)).map (· + 2)).map (numbered base) ⊆
      used.anchors := by
    intro anchor member
    obtain ⟨number, listed, rfl⟩ := List.mem_map.mp member
    exact taken number listed
  have short := (distinct.subperm inside).length_le
  simp only [List.length_map, List.length_range] at short
  omega

/-- The number that is put behind an anchor is the least one from two on that makes a free
anchor. -/
theorem Used.isLeast_firstNumbered (used : Used) (base : Text) :
    ∃ number, IsLeast {number | 2 ≤ number ∧ numbered base number ∉ used.anchors} number ∧
      used.firstNumbered base = numbered base number := by
  unfold firstNumbered
  dsimp only
  split
  · next number found =>
    rw [List.find?_map, Option.map_eq_some_iff] at found
    obtain ⟨count, counted, rfl⟩ := found
    obtain ⟨free, _, before⟩ := List.find?_range_eq_some.mp counted
    simp only [Function.comp_apply, Bool.not_eq_true', ← Bool.not_eq_true, has_iff] at free before
    refine ⟨count + 2, ⟨⟨Nat.le_add_left 2 count, free⟩, ?_⟩, rfl⟩
    rintro other ⟨large, unused⟩
    by_contra smaller
    have taken := before (other - 2) (by omega)
    rw [Nat.sub_add_cancel large] at taken
    exact taken unused
  · next missing =>
    obtain ⟨number, listed, free⟩ := used.exists_free_number base
    have taken := List.find?_eq_none.mp missing number listed
    rw [Bool.not_eq_true, Bool.not_eq_false', has_iff] at taken
    exact absurd taken free

theorem Used.firstNumbered_notMem (used : Used) (base : Text) :
    used.firstNumbered base ∉ used.anchors := by
  obtain ⟨number, least, same⟩ := used.isLeast_firstNumbered base
  rw [same]
  exact least.1.2

/-! ### Handing out -/

/-- Whether a run of steps handed out the given anchors: they are distinct, none was used before,
and after it they are used beside those that were. -/
structure Used.Hands (used : Used) (given : List Text) (after : Used) : Prop where
  distinct : given.Nodup
  free : ∀ anchor ∈ given, anchor ∉ used.anchors
  after : ∀ anchor, anchor ∈ after.anchors ↔ anchor ∈ given ∨ anchor ∈ used.anchors

theorem Used.hands_nil (used : Used) : used.Hands [] used where
  distinct := List.nodup_nil
  free := List.forall_mem_nil _
  after anchor := by simp

theorem Used.hands_reserve {used : Used} {anchor : Text} (free : anchor ∉ used.anchors) :
    used.Hands [anchor] (used.reserve anchor) where
  distinct := List.nodup_singleton anchor
  free := List.forall_mem_singleton.mpr free
  after other := by rw [mem_reserve, List.mem_singleton]

theorem Used.Hands.append {used middle after : Used} {first second : List Text}
    (before : used.Hands first middle) (behind : middle.Hands second after) :
    used.Hands (first ++ second) after where
  distinct := List.nodup_append.mpr ⟨before.distinct, behind.distinct, by
    rintro anchor early other late rfl
    exact behind.free anchor late ((before.after anchor).mpr (Or.inl early))⟩
  free anchor member := by
    rcases List.mem_append.mp member with early | late
    · exact before.free anchor early
    · exact fun present => behind.free anchor late ((before.after anchor).mpr (Or.inr present))
  after anchor := by
    rw [behind.after, before.after, List.mem_append]
    tauto

theorem Used.allocate_hands (used : Used) (texts : List (Option Text)) :
    used.Hands (used.allocate texts).1.toList (used.allocate texts).2 := by
  unfold allocate
  split
  · exact used.hands_nil
  · next first more _ =>
    split
    · next anchor found =>
      have free := List.find?_some found
      rw [Bool.not_eq_true', ← Bool.not_eq_true, has_iff] at free
      exact hands_reserve free
    · exact hands_reserve (used.firstNumbered_notMem first)

/-- Symbols that are given anchors one after the other are given distinct free ones. -/
theorem Used.allocateAll_hands (used : Used) (symbols : List Symbol) :
    used.Hands ((used.allocateAll symbols).1.flatMap Option.toList)
      (used.allocateAll symbols).2 := by
  induction symbols generalizing used with
  | nil => exact used.hands_nil
  | cons symbol rest inductionHypothesis =>
    rw [allocateAll, List.flatMap_cons]
    exact (used.allocate_hands _).append (inductionHypothesis (used.allocateSymbol symbol).2)

theorem Used.length_allocateAll (used : Used) (symbols : List Symbol) :
    (used.allocateAll symbols).1.length = symbols.length := by
  induction symbols generalizing used with
  | nil => rfl
  | cons symbol rest inductionHypothesis =>
    rw [allocateAll]
    exact congrArg (· + 1) (inductionHypothesis (used.allocateSymbol symbol).2)

/-! ### Going without an anchor -/

/-- Nothing is handed out exactly where none of the texts that are asked with leaves anything. -/
theorem Used.allocate_eq_none_iff {used : Used} {texts : List (Option Text)} :
    (used.allocate texts).1 = none ↔ ∀ text ∈ texts, text.bind ofText? = none := by
  have candidate {anchor : Text} : anchor ∈ candidates texts ↔
      anchor ∈ texts.filterMap fun text => text.bind ofText? := List.mem_eraseDups
  rw [← List.filterMap_eq_nil_iff, List.eq_nil_iff_forall_not_mem]
  unfold allocate
  split
  · next empty =>
    rw [empty] at candidate
    exact iff_of_true rfl fun anchor member => List.not_mem_nil (candidate.mpr member)
  · next first more listed =>
    rw [listed] at candidate
    have wanted := candidate.mp List.mem_cons_self
    split <;> exact iff_of_false (Option.some_ne_none _) fun nothing => nothing first wanted

/-- Each symbol of a list is handed its anchor at some point. -/
theorem Used.exists_allocateSymbol {used : Used} {symbols : List Symbol} {symbol : Symbol}
    {anchor : Option Text} (paired : (symbol, anchor) ∈ symbols.zip (used.allocateAll symbols).1) :
    ∃ before : Used, (before.allocateSymbol symbol).1 = anchor := by
  induction symbols generalizing used with
  | nil => cases paired
  | cons first rest inductionHypothesis =>
    rw [allocateAll, List.zip_cons_cons] at paired
    rcases List.mem_cons.mp paired with here | later
    · obtain ⟨rfl, rfl⟩ := Prod.mk.inj here
      exact ⟨used, rfl⟩
    · exact inductionHypothesis later

end Anchor

end LuauReference
