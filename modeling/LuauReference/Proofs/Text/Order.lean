/-
This file proves the laws of sorting texts and things that have a text for a key. The order by code
points is total and two texts that come before each other are equal, so the result of sorting is
determined by what is sorted as soon as no two items share a key: the order in which the items were
given is lost. Items that do share a key keep their order, which makes sorting the same as inserting
one item after the other.
-/

import LuauReference.Proofs.Text.Named
import Mathlib.Data.List.Sort

namespace LuauReference

namespace Text

/-! ### The order by code points -/

theorem inOrder_cons {a b : Char} {s t : Text} :
    inOrder (a :: s) (b :: t) = true ↔ a.toNat < b.toNat ∨ a = b ∧ inOrder s t = true := by
  simp [inOrder, Char.toNat_inj]

theorem inOrder_total (s t : Text) : (inOrder s t || inOrder t s) = true := by
  induction s generalizing t with
  | nil => simp [inOrder]
  | cons a s inductionHypothesis =>
    cases t with
    | nil => simp [inOrder]
    | cons b t =>
      rw [Bool.or_eq_true, inOrder_cons, inOrder_cons]
      rcases Nat.lt_trichotomy a.toNat b.toNat with less | same | more
      · exact Or.inl (Or.inl less)
      · obtain rfl := Char.toNat_inj.mp same
        rcases Bool.or_eq_true _ _ ▸ inductionHypothesis t with first | second
        · exact Or.inl (Or.inr ⟨rfl, first⟩)
        · exact Or.inr (Or.inr ⟨rfl, second⟩)
      · exact Or.inr (Or.inl more)

theorem inOrder_trans {s t u : Text} (first : inOrder s t = true) (second : inOrder t u = true) :
    inOrder s u = true := by
  induction s generalizing t u with
  | nil => rfl
  | cons a s inductionHypothesis =>
    cases t with
    | nil => exact absurd first Bool.false_ne_true
    | cons b t =>
      cases u with
      | nil => exact absurd second Bool.false_ne_true
      | cons c u =>
        rw [inOrder_cons] at first second ⊢
        rcases first with less | ⟨rfl, first⟩
        · rcases second with more | ⟨rfl, _⟩
          · exact Or.inl (less.trans more)
          · exact Or.inl less
        · rcases second with more | ⟨rfl, second⟩
          · exact Or.inl more
          · exact Or.inr ⟨rfl, inductionHypothesis first second⟩

theorem inOrder_antisymm {s t : Text} (first : inOrder s t = true) (second : inOrder t s = true) :
    s = t := by
  induction s generalizing t with
  | nil =>
    cases t with
    | nil => rfl
    | cons b t => exact absurd second Bool.false_ne_true
  | cons a s inductionHypothesis =>
    cases t with
    | nil => exact absurd first Bool.false_ne_true
    | cons b t =>
      rw [inOrder_cons] at first second
      rcases first with less | ⟨rfl, first⟩
      · rcases second with more | ⟨rfl, _⟩
        · exact absurd more less.asymm
        · exact absurd less (Nat.lt_irrefl _)
      · rcases second with more | ⟨_, second⟩
        · exact absurd more (Nat.lt_irrefl _)
        · rw [inductionHypothesis first second]

/-! ### Sorting by a key -/

variable {α β : Type} {key : α → Text}

/-- Whether one item may stand before another in a list that is sorted by a key. -/
def KeysInOrder (key : α → Text) (a b : α) : Prop :=
  inOrder (key a) (key b) = true

instance (key : α → Text) : DecidableRel (KeysInOrder key) := fun a b =>
  inferInstanceAs (Decidable (inOrder (key a) (key b) = true))

theorem pairwise_sortOn (key : α → Text) (items : List α) :
    (sortOn key items).Pairwise (KeysInOrder key) :=
  @List.pairwise_mergeSort α (fun a b => inOrder (key a) (key b)) (fun _ _ _ => inOrder_trans)
    (fun _ _ => inOrder_total _ _) items

theorem nodup_keys_sortOn {items : List α} (distinct : (items.map key).Nodup) :
    ((sortOn key items).map key).Nodup :=
  ((sortOn_perm key items).map key).nodup_iff.mpr distinct

/-- Items that share a key keep their order. -/
theorem filter_sortOn (key : α → Text) (items : List α) (name : Text) :
    ((sortOn key items).filter fun item => key item = name) =
      items.filter fun item => key item = name := by
  let level := items.filter fun item => key item = name
  have shared : ∀ item ∈ level, key item = name := fun item member =>
    of_decide_eq_true (List.mem_filter.mp member).2
  have sorted : level.Pairwise fun a b => inOrder (key a) (key b) = true := by
    refine List.pairwise_of_forall_mem_list fun a left b right => ?_
    rw [shared a left, shared b right]
    exact (Bool.or_self _).symm.trans (inOrder_total name name)
  have kept : level.Sublist (sortOn key items) :=
    @List.sublist_mergeSort α (fun a b => inOrder (key a) (key b)) items
      (fun _ _ _ => inOrder_trans) (fun _ _ => inOrder_total _ _) level sorted List.filter_sublist
  have inside : level.Sublist ((sortOn key items).filter fun item => key item = name) := by
    have whole := kept.filter fun item => key item = name
    rwa [List.filter_eq_self.mpr fun item member => decide_eq_true (shared item member)] at whole
  exact (inside.eq_of_length ((sortOn_perm key items).filter _).length_eq.symm).symm

/-- The same items with distinct keys are sorted the same way, in whatever order they are given. -/
theorem sortOn_eq_of_perm {first second : List α} (same : first.Perm second)
    (distinct : (first.map key).Nodup) : sortOn key first = sortOn key second := by
  have sorted : (sortOn key first).Perm (sortOn key second) :=
    ((sortOn_perm key first).trans same).trans (sortOn_perm key second).symm
  refine List.Perm.eq_of_pairwise (fun a b left right less more => ?_)
    (pairwise_sortOn key first) (pairwise_sortOn key second) sorted
  exact List.inj_on_of_nodup_map (nodup_keys_sortOn distinct) left (sorted.mem_iff.mpr right)
    (inOrder_antisymm less more)

/-- What keeps the keys may be done before or after sorting. -/
theorem map_sortOn {other : β → Text} (change : α → β)
    (kept : ∀ item, other (change item) = key item)
    (items : List α) : (sortOn key items).map change = sortOn other (items.map change) := by
  refine List.map_mergeSort fun a _ b _ => ?_
  rw [kept, kept]

theorem orderedInsert_between {item : α} {before after : List α}
    (smaller : ∀ other ∈ before, ¬ KeysInOrder key item other)
    (larger : ∀ other ∈ after, KeysInOrder key item other) :
    (before ++ after).orderedInsert (KeysInOrder key) item = before ++ item :: after := by
  induction before with
  | nil =>
    cases after with
    | nil => rfl
    | cons next more => exact List.orderedInsert_cons_of_le _ _ (larger next List.mem_cons_self)
  | cons first rest inductionHypothesis =>
    obtain ⟨here, below⟩ := List.forall_mem_cons.mp smaller
    rw [List.cons_append, List.orderedInsert_cons, if_neg here, inductionHypothesis below,
      List.cons_append]

/-- Sorting is inserting one item after the other. -/
theorem sortOn_eq_insertionSort (key : α → Text) (items : List α) :
    sortOn key items = items.insertionSort (KeysInOrder key) := by
  induction items with
  | nil => exact List.mergeSort_nil
  | cons item rest inductionHypothesis =>
    obtain ⟨before, after, whole, parts, smaller⟩ := @List.mergeSort_cons α
      (fun a b => inOrder (key a) (key b)) (fun _ _ _ => inOrder_trans)
      (fun _ _ => inOrder_total _ _) item rest
    -- what stands behind the item is not smaller, since the whole is sorted
    have order := pairwise_sortOn key (item :: rest)
    rw [sortOn, whole, List.pairwise_append, List.pairwise_cons] at order
    rw [List.insertionSort_cons, ← inductionHypothesis, sortOn, sortOn, whole, parts]
    refine (orderedInsert_between (fun other member => ?_) order.2.1.1).symm
    simpa [KeysInOrder] using smaller other member

end Text

end LuauReference
