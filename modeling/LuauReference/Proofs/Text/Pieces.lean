/-
This file treats texts that are cut at a mark and put together again. The pieces of a text with the
mark between them are the text, and names without the mark are the pieces of what they make up
together, so a text and its pieces say the same. No piece is longer than the text, and there are no
more of them than it has characters, but for one.
-/

import LuauReference.Text.Basic
import Mathlib.Data.List.Basic

namespace LuauReference

namespace Text

/-! ### Putting together -/

theorem join_cons_of_ne_nil (separator first : Text) {rest : List Text} (more : rest ≠ []) :
    join separator (first :: rest) = first ++ separator ++ join separator rest := by
  obtain ⟨second, others, rfl⟩ := List.exists_cons_of_ne_nil more
  rw [join]

theorem join_concat_append (separator last tail : Text) (front : List Text) :
    join separator (front ++ [last]) ++ tail = join separator (front ++ [last ++ tail]) := by
  induction front with
  | nil => rfl
  | cons first rest inductionHypothesis =>
    have more (end_ : Text) : rest ++ [end_] ≠ [] :=
      List.append_ne_nil_of_right_ne_nil rest (List.cons_ne_nil _ _)
    rw [List.cons_append, join_cons_of_ne_nil _ _ (more _), List.append_assoc, inductionHypothesis,
      List.cons_append, join_cons_of_ne_nil _ _ (more _)]

theorem join_append {separator : Text} {first second : List Text} (left : first ≠ [])
    (right : second ≠ []) :
    join separator (first ++ second) =
      join separator first ++ separator ++ join separator second := by
  induction first with
  | nil => exact absurd rfl left
  | cons name rest inductionHypothesis =>
    rw [List.cons_append,
      join_cons_of_ne_nil _ _ (List.append_ne_nil_of_right_ne_nil rest right)]
    by_cases last : rest = []
    · rw [last, List.nil_append, join]
    · rw [inductionHypothesis last, join_cons_of_ne_nil _ _ last]
      simp only [List.append_assoc]

/-- What stands in front of every text of a list may be told of the first and of the separator. -/
theorem join_map_append (separator front : Text) {rest : List Text} (first : Text) :
    join separator ((first :: rest).map (front ++ ·)) = front ++ join (separator ++ front)
      (first :: rest) := by
  induction rest generalizing first with
  | nil => rfl
  | cons second rest inductionHypothesis =>
    have more : (second :: rest).map (front ++ ·) ≠ [] := List.cons_ne_nil _ _
    rw [List.map_cons, join_cons_of_ne_nil _ _ more, inductionHypothesis, join]
    simp only [List.append_assoc]

theorem mem_join_iff {separator : Text} {c : Char} (other : c ∉ separator) {names : List Text} :
    c ∈ join separator names ↔ ∃ name ∈ names, c ∈ name := by
  induction names with
  | nil => simp [join]
  | cons name rest inductionHypothesis =>
    by_cases last : rest = []
    · rw [last, join]
      simp
    · rw [join_cons_of_ne_nil _ _ last, List.mem_append, List.mem_append, inductionHypothesis,
        or_iff_left other]
      simp

/-! ### Cutting -/

theorem pieces_ne_nil (mark : Char) (s : Text) : pieces mark s ≠ [] := by
  cases s with
  | nil => exact List.cons_ne_nil _ _
  | cons c rest =>
    rw [pieces]
    split
    · exact List.cons_ne_nil _ _
    · split <;> exact List.cons_ne_nil _ _

theorem pieces_of_notMem {mark : Char} {s : Text} (missing : mark ∉ s) : pieces mark s = [s] := by
  induction s with
  | nil => rfl
  | cons c rest inductionHypothesis =>
    obtain ⟨other, later⟩ := List.ne_and_not_mem_of_not_mem_cons missing
    rw [pieces, if_neg other.symm, inductionHypothesis later]

/-- The pieces of a text with the mark between them are the text. -/
theorem join_pieces (mark : Char) (s : Text) : join [mark] (pieces mark s) = s := by
  induction s with
  | nil => rfl
  | cons c rest inductionHypothesis =>
    rw [pieces]
    split
    · next same =>
      rw [join_cons_of_ne_nil _ _ (pieces_ne_nil mark rest), inductionHypothesis, same]
      rfl
    · obtain ⟨piece, more, cut⟩ := List.exists_cons_of_ne_nil (pieces_ne_nil mark rest)
      rw [cut] at inductionHypothesis ⊢
      dsimp only
      cases more with
      | nil => rw [← inductionHypothesis, join, join]
      | cons next others => rw [← inductionHypothesis, join, join]; rfl

theorem pieces_injective (mark : Char) : Function.Injective (pieces mark) := by
  intro first second same
  rw [← join_pieces mark first, same, join_pieces]

/-- Characters other than the mark are in a text exactly when they are in one of its pieces. -/
theorem exists_mem_pieces_iff {mark c : Char} {s : Text} (other : c ≠ mark) :
    (∃ piece ∈ pieces mark s, c ∈ piece) ↔ c ∈ s := by
  rw [← mem_join_iff (mt List.mem_singleton.mp other), join_pieces]

theorem mem_of_mem_pieces {mark c : Char} {s piece : Text} (inside : piece ∈ pieces mark s)
    (held : c ∈ piece) : c ∈ s ∧ c ≠ mark := by
  induction s generalizing piece with
  | nil =>
    rw [List.mem_singleton.mp inside] at held
    cases held
  | cons d rest inductionHypothesis =>
    have later {other : Text} (member : other ∈ pieces mark rest) (present : c ∈ other) :
        c ∈ d :: rest ∧ c ≠ mark :=
      (inductionHypothesis member present).imp_left (List.mem_cons_of_mem d)
    rw [pieces] at inside
    split at inside
    · rcases List.mem_cons.mp inside with rfl | below
      · cases held
      · exact later below held
    · next other =>
      obtain ⟨first, more, cut⟩ := List.exists_cons_of_ne_nil (pieces_ne_nil mark rest)
      rw [cut] at inside later
      rcases List.mem_cons.mp inside with rfl | below
      · rcases List.mem_cons.mp held with rfl | present
        · exact ⟨List.mem_cons_self, other⟩
        · exact later List.mem_cons_self present
      · exact later (List.mem_cons_of_mem first below) held

theorem pieces_append_cons {mark : Char} {first : Text} (missing : mark ∉ first) (rest : Text) :
    pieces mark (first ++ mark :: rest) = first :: pieces mark rest := by
  induction first with
  | nil => rw [List.nil_append, pieces, if_pos rfl]
  | cons c tail inductionHypothesis =>
    obtain ⟨other, later⟩ := List.ne_and_not_mem_of_not_mem_cons missing
    rw [List.cons_append, pieces, if_neg other.symm, inductionHypothesis later]

/-- Names without the mark are the pieces of what they make up together. -/
theorem pieces_join {mark : Char} {names : List Text} (present : names ≠ [])
    (missing : ∀ name ∈ names, mark ∉ name) : pieces mark (join [mark] names) = names := by
  induction names with
  | nil => exact absurd rfl present
  | cons name rest inductionHypothesis =>
    obtain ⟨here, later⟩ := List.forall_mem_cons.mp missing
    by_cases last : rest = []
    · rw [last, join, pieces_of_notMem here]
    · rw [join_cons_of_ne_nil _ _ last, List.append_assoc, List.singleton_append,
        pieces_append_cons here, inductionHypothesis last later]

/-- A mark in a text parts the pieces before it from those behind it. -/
theorem pieces_append {mark : Char} (first rest : Text) :
    pieces mark (first ++ mark :: rest) = pieces mark first ++ pieces mark rest := by
  have whole : first ++ mark :: rest = join [mark] (pieces mark first ++ pieces mark rest) := by
    rw [join_append (pieces_ne_nil mark first) (pieces_ne_nil mark rest), join_pieces, join_pieces,
      List.append_assoc, List.singleton_append]
  rw [whole]
  refine pieces_join (List.append_ne_nil_of_left_ne_nil (pieces_ne_nil mark first) _)
    fun name member held => ?_
  rcases List.mem_append.mp member with inside | inside
  · exact (mem_of_mem_pieces inside held).2 rfl
  · exact (mem_of_mem_pieces inside held).2 rfl

theorem isInfix_join_of_mem {separator name : Text} {names : List Text} (member : name ∈ names) :
    name <:+: join separator names := by
  induction names with
  | nil => cases member
  | cons first rest inductionHypothesis =>
    by_cases last : rest = []
    · rw [last, List.mem_singleton] at member
      rw [last, join]
      exact member ▸ List.infix_rfl
    · rw [join_cons_of_ne_nil _ _ last]
      rcases List.mem_cons.mp member with rfl | later
      · exact ((List.prefix_append _ _).trans (List.prefix_append _ _)).isInfix
      · exact (inductionHypothesis later).trans (List.suffix_append _ _).isInfix

theorem isInfix_of_mem_pieces {mark : Char} {s piece : Text} (member : piece ∈ pieces mark s) :
    piece <:+: s := by
  have inside : piece <:+: join [mark] (pieces mark s) := isInfix_join_of_mem member
  rwa [join_pieces] at inside

/-! ### Lengths -/

theorem length_pieces_le (mark : Char) (s : Text) : (pieces mark s).length ≤ s.length + 1 := by
  induction s with
  | nil => exact Nat.le_refl 1
  | cons c rest inductionHypothesis =>
    rw [pieces]
    split
    · exact Nat.succ_le_succ inductionHypothesis
    · split
      · exact Nat.succ_le_succ (Nat.zero_le _)
      · next piece more found =>
        rw [found] at inductionHypothesis
        exact Nat.le_succ_of_le inductionHypothesis

theorem length_le_of_mem_pieces {mark : Char} {s piece : Text} (member : piece ∈ pieces mark s) :
    piece.length ≤ s.length := by
  induction s generalizing piece with
  | nil => exact Nat.le_of_eq (congrArg List.length (List.mem_singleton.mp member))
  | cons c rest inductionHypothesis =>
    rw [pieces] at member
    split at member
    · rcases List.mem_cons.mp member with rfl | later
      · exact Nat.zero_le _
      · exact Nat.le_succ_of_le (inductionHypothesis later)
    · split at member
      · rw [List.mem_singleton.mp member]
        exact Nat.succ_le_succ (Nat.zero_le _)
      · next first more found =>
        rw [found] at inductionHypothesis
        rcases List.mem_cons.mp member with rfl | later
        · exact Nat.succ_le_succ (inductionHypothesis List.mem_cons_self)
        · exact Nat.le_succ_of_le (inductionHypothesis (List.mem_cons_of_mem _ later))

end Text

end LuauReference
