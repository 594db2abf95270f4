/-
This file says when the headings of the groups of an overview have distinct anchors. An anchor keeps
the words of a name, each without the characters that an anchor may not have, and writes hyphens
between them. Groups have distinct names, but a name is not known from what an anchor keeps of it,
and the overview sets no number behind an anchor that is taken. So two groups share an anchor
exactly when they leave the same one, which does not happen among names of plain words.
-/

import LuauReference.Proofs.Page.Allocation
import LuauReference.Proofs.Page.Keys
import LuauReference.Proofs.Page.Overview
import LuauReference.Proofs.Text.Words
import Mathlib.Data.List.Pairwise

namespace LuauReference

namespace Anchor

/-! ### What an anchor keeps -/

/-- What an anchor keeps of a text: its words, each without the characters that an anchor may not
have, with hyphens between them. -/
def hyphenated (s : Text) : Text :=
  Text.join "-" ((Text.wordsOf s).map (List.filter isAllowed))

theorem hyphenated_of_wordsOf {s word more : Text}
    (words : Text.wordsOf s = word :: Text.wordsOf more)
    (further : Text.wordsOf more ≠ []) :
    hyphenated s = word.filter isAllowed ++ '-' :: hyphenated more := by
  rw [hyphenated, words, List.map_cons,
    Text.join_cons_of_ne_nil _ _ (mt List.map_eq_nil_iff.mp further), List.append_assoc]
  rfl

/-- A word is kept but for the characters that an anchor may not have, whatever stands before it. -/
theorem keep_append {word : Text} (present : word ≠ []) (solid : ∀ c ∈ word, Text.isBlank c = false)
    (afterBlank : Bool) (tail : Text) :
    keep afterBlank (word ++ tail) = word.filter isAllowed ++ keep false tail := by
  induction word generalizing afterBlank with
  | nil => exact absurd rfl present
  | cons c rest inductionHypothesis =>
    obtain ⟨first, others⟩ := List.forall_mem_cons.mp solid
    have later : keep false (rest ++ tail) = rest.filter isAllowed ++ keep false tail := by
      by_cases last : rest = []
      · rw [last]
        rfl
      · exact inductionHypothesis last others false
    rw [List.cons_append, keep, if_neg (by rw [first]; exact Bool.false_ne_true), later,
      List.filter_cons]
    split <;> rfl

/-- Behind a blank, a text that does not end with a blank is kept word by word. -/
theorem keep_true (s : Text) (ends : ∀ c ∈ s.getLast?, Text.isBlank c = false) :
    keep true s = hyphenated s := by
  match s with
  | [] => rfl
  | c :: rest =>
    cases blank : Text.isBlank c with
    | true =>
      have later : ∀ d ∈ rest.getLast?, Text.isBlank d = false := fun d last => by
        cases rest with
        | nil => cases last
        | cons => exact ends d last
      rw [keep, if_pos blank, if_pos rfl, keep_true rest later, hyphenated, hyphenated,
        Text.wordsOf_cons blank]
    | false =>
      obtain ⟨word, present, solid, ⟨whole, words⟩ | ⟨d, more, blank, whole, words⟩⟩ :=
        Text.exists_word blank rest
      · have kept := keep_append present solid true []
        rw [List.append_nil, ← whole, keep, List.append_nil] at kept
        rw [kept, hyphenated, words, whole]
        rfl
      · rw [whole, List.getLast?_append_of_ne_nil _ (List.cons_ne_nil _ _)] at ends
        -- The text ends with a word, so another one follows the blank.
        have remains : more ≠ [] := by
          rintro rfl
          rw [ends d rfl] at blank
          cases blank
        rw [List.getLast?_cons_of_ne_nil remains] at ends
        have further : Text.wordsOf more ≠ [] :=
          Text.wordsOf_ne_nil (List.getLast_mem remains)
            (ends _ (List.getLast?_eq_some_getLast remains))
        have shorter : more.length < (c :: rest).length := by
          rw [whole, List.length_append, List.length_cons]
          omega
        rw [hyphenated_of_wordsOf words further, ← keep_true more ends, whole,
          keep_append present solid, keep, if_pos blank, if_neg Bool.false_ne_true]
termination_by s.length
decreasing_by
  · exact shorter
  · exact Nat.lt_succ_self _

theorem keep_trim (s : Text) : keep false (Text.trim s) = hyphenated s := by
  have words : hyphenated (Text.trim s) = hyphenated s := by
    rw [hyphenated, hyphenated, Text.wordsOf_trim]
  have ends : ∀ c ∈ (Text.trim s).getLast?, Text.isBlank c = false := by
    intro c last
    have stopped := List.head?_dropWhile_not Text.isBlank (Text.trimStart s).reverse
    rw [Text.trim, Text.trimEnd, Text.dropEndWhile, List.getLast?_reverse] at last
    rwa [last] at stopped
  have begins := List.head?_dropWhile_not Text.isBlank (Text.trimEnd s)
  rw [← Text.trimStart, Text.trimStart_trimEnd] at begins
  rw [← words, ← keep_true _ ends]
  -- It matters only to a blank in front whether there was one before.
  cases trimmed : Text.trim s with
  | nil => rfl
  | cons c rest =>
    rw [trimmed] at begins
    have solid : ¬ Text.isBlank c = true := Bool.not_eq_true _ ▸ begins
    rw [keep, keep, if_neg solid, if_neg solid]

/-- The anchor of a text is what is kept of it, unless nothing is. -/
theorem ofText?_eq (s : Text) :
    ofText? s = if hyphenated s = [] then none else some (hyphenated s) := by
  rw [ofText?, keep_trim]
  simp only [List.isEmpty_iff]

end Anchor

/-! ### Reading anchors -/

/-- What a partial function leaves of distinct items is distinct when it leaves one thing of one
item. -/
theorem nodup_filterMap_iff {α β : Type} {leave : α → Option β} {items : List α}
    (distinct : items.Nodup) :
    (items.filterMap leave).Nodup ↔ ∀ first ∈ items, ∀ second ∈ items, ∀ left,
      leave first = some left → leave second = some left → first = second := by
  rw [List.Nodup, List.pairwise_filterMap]
  constructor
  · intro apart first one second other left here there
    by_contra differs
    have symmetric : Std.Symm fun first second => ∀ left, leave first = some left →
        ∀ right, leave second = some right → left ≠ right :=
      ⟨fun _ _ differ left here right there same => differ right there left here same.symm⟩
    exact apart.forall one other differs left here left there rfl
  · intro same
    exact distinct.imp_of_mem fun {first second} one other differs left here right there equal =>
      differs (same first one second other right (equal ▸ here) there)

/-- The anchors of a page are those of its headings but for empty ones. -/
theorem PageDocument.anchors_eq (page : PageDocument) :
    page.anchors = (page.blocks.filterMap Block.anchor?).filter (!·.isEmpty) := by
  rw [← filterMap_headings, List.filter_filterMap]
  rfl

namespace Page

/-! ### The anchors of an overview -/

section

variable (settings : PageSettings) (links : Links) (pages : List ClassPage)

/-- The names of the groups that classes are listed in, once for each time. -/
def groupNames : List Text :=
  pages.flatMap fun page => (soughtCategories settings page).map fun category =>
    (groupOf category).1

theorem perm_groupsOf : (groupsOf settings.categoryOrder (placements settings pages)).Perm
    (groupNames settings pages).eraseDups := by
  have names : (placements settings pages).map Placed.group = groupNames settings pages := by
    rw [placements, groupNames, List.map_flatMap]
    refine List.flatMap_congr fun page _ => ?_
    rw [List.map_map, listedUnder_eq]
    rfl
  rw [groupsOf, names]
  exact List.mergeSort_perm _ _

/-- The anchors of an overview are those of its groups. -/
theorem anchors_overviewDocument : (overviewDocument settings links pages).anchors =
    (groupsOf settings.categoryOrder (placements settings pages)).filterMap Anchor.ofText? := by
  obtain ⟨front, blocks, plain⟩ := exists_overviewDocument_blocks settings links pages
  have before : front.filterMap Block.anchor? = [] := by
    refine List.filterMap_eq_nil_iff.mpr fun block member => ?_
    obtain ⟨title, rfl⟩ | ⟨content, rfl⟩ := plain block member <;> rfl
  have each (group : Text) :
      (groupBlocks settings links (placements settings pages) group).filterMap
      Block.anchor? = (Anchor.ofText? group).toList := by
    have body : (groupBody settings links (placements settings pages) group).filterMap
        Block.anchor? = [] := by
      refine List.filterMap_eq_nil_iff.mpr fun block member => ?_
      obtain ⟨content, rfl⟩ | ⟨subgroup, rfl⟩ | ⟨shown, rfl⟩ := mem_groupBody _ _ _ member <;> rfl
    rw [groupBlocks_eq, List.filterMap_cons, body, Block.anchor?]
    cases Anchor.ofText? group <;> rfl
  have all : (overviewDocument settings links pages).blocks.filterMap Block.anchor? =
      (groupsOf settings.categoryOrder (placements settings pages)).filterMap Anchor.ofText? := by
    rw [blocks, List.filterMap_append, before, List.nil_append, List.filterMap_flatMap,
      List.filterMap_eq_flatMap_toList]
    exact congrArg (List.flatMap · _) (funext each)
  rw [PageDocument.anchors_eq, all]
  refine List.filter_eq_self.mpr fun anchor member => ?_
  obtain ⟨group, _, left⟩ := List.mem_filterMap.mp member
  simpa using (Anchor.isAnchor_of_ofText? left).present

theorem perm_anchors_overviewDocument : (overviewDocument settings links pages).anchors.Perm
    ((groupNames settings pages).eraseDups.filterMap Anchor.ofText?) := by
  rw [anchors_overviewDocument]
  exact (perm_groupsOf settings pages).filterMap _

end

/-- Whether a name is made of words of letters, digits and underscores, with one space between any
two. -/
def IsSpaced (name : Text) : Prop :=
  ∀ word ∈ Text.pieces ' ' name, word ≠ [] ∧ ∀ c ∈ word, Text.isWordChar c = true

instance (name : Text) : Decidable (IsSpaced name) :=
  decidable_of_iff
    (((Text.pieces ' ' name).all fun word => !word.isEmpty && word.all Text.isWordChar) = true)
    (by simp [IsSpaced])

/-- The anchor of a name made of words has hyphens for its spaces. -/
theorem IsSpaced.pieces_hyphenated {name : Text} (spaced : IsSpaced name) :
    Text.pieces '-' (Anchor.hyphenated name) = Text.pieces ' ' name := by
  have words : Text.wordsOf name = Text.pieces ' ' name := by
    have whole := Text.wordsOf_join fun word member =>
      ⟨(spaced word member).1,
        fun c inside => Text.isBlank_of_isWordChar ((spaced word member).2 c inside)⟩
    exact (congrArg Text.wordsOf (Text.join_pieces ' ' name)).symm.trans whole
  have kept : (Text.wordsOf name).map (List.filter Anchor.isAllowed) = Text.pieces ' ' name := by
    rw [words]
    refine (List.map_congr_left fun word member => ?_).trans (List.map_id _)
    exact List.filter_eq_self.mpr fun c inside =>
      Bool.or_eq_true_iff.mpr (Or.inl ((spaced word member).2 c inside))
  rw [Anchor.hyphenated, kept]
  refine Text.pieces_join (Text.pieces_ne_nil ' ' name) fun word member inside => ?_
  exact absurd ((spaced word member).2 '-' inside) (by decide)

/-- The anchors of an overview are distinct exactly when no two groups leave the same one. This is
so when the names of all groups are made of words of letters, digits and underscores with single
spaces between them. -/
theorem overview_anchors_distinct (settings : PageSettings) (links : Links)
    (pages : List ClassPage) :
    ((overviewDocument settings links pages).anchors.Nodup ↔
      ∀ first ∈ groupNames settings pages, ∀ second ∈ groupNames settings pages,
        Anchor.hyphenated first = Anchor.hyphenated second → Anchor.hyphenated first ≠ [] →
          first = second) ∧
    ((∀ name ∈ groupNames settings pages, IsSpaced name) →
      (overviewDocument settings links pages).anchors.Nodup) := by
  have equivalent : (overviewDocument settings links pages).anchors.Nodup ↔
      ∀ first ∈ groupNames settings pages, ∀ second ∈ groupNames settings pages,
        Anchor.hyphenated first = Anchor.hyphenated second → Anchor.hyphenated first ≠ [] →
          first = second := by
    rw [(perm_anchors_overviewDocument settings links pages).nodup_iff,
      nodup_filterMap_iff (nodup_eraseDups _)]
    simp only
      [List.mem_eraseDups, Anchor.ofText?_eq, Option.ite_none_left_eq_some, Option.some.injEq]
    refine forall₂_congr fun first _ => forall₂_congr fun second _ => ?_
    constructor
    · intro apart same present
      exact apart _ ⟨present, rfl⟩ ⟨same ▸ present, same.symm⟩
    · rintro apart left ⟨present, rfl⟩ ⟨_, same⟩
      exact apart same.symm present
  refine ⟨equivalent, fun spaced => equivalent.mpr fun first one second other same _ => ?_⟩
  have pieces := congrArg (Text.pieces '-') same
  rw [(spaced first one).pieces_hyphenated, (spaced second other).pieces_hyphenated] at pieces
  exact Text.pieces_injective ' ' pieces

/-- The overview of a reference. -/
abbrev renderedOverview (settings : PageSettings) (reference : Reference) : PageDocument :=
  overviewDocument settings (renderedLinks settings reference) (planned settings reference)

theorem overview_anchors_distinct_spaced :
    (renderedOverview {} (classesReference [("Door", some "UI Kit/Doors"), ("Gate", some "UI Kit"),
      ("Lock", none)])).anchors.Nodup := by
  refine (overview_anchors_distinct {} _ _).2 ?_
  have names : groupNames {} (planned {} (classesReference [("Door", some "UI Kit/Doors"),
      ("Gate", some "UI Kit"), ("Lock", none)])) =
        ["UI Kit".toList, "UI Kit".toList, "Classes".toList] := by
    rw [planned, plan_eq_insertedPlan]
    decide +kernel
  rw [names]
  decide

/-- Groups that differ only in what an anchor does not keep share an anchor. -/
theorem not_overview_anchors_distinct :
    (renderedOverview {}
      (classesReference [("Door", some "UI Kit"), ("Gate", some "UI-Kit")])).anchors =
        ["UI-Kit".toList, "UI-Kit".toList] ∧
      ¬ (renderedOverview {} (classesReference [("Door", some "UI Kit"),
        ("Gate", some "UI-Kit")])).anchors.Nodup := by
  have names : groupNames {} (planned {} (classesReference [("Door", some "UI Kit"),
      ("Gate", some "UI-Kit")])) = ["UI Kit".toList, "UI-Kit".toList] := by
    rw [planned, plan_eq_insertedPlan]
    decide +kernel
  have left : (["UI Kit".toList, "UI-Kit".toList].eraseDups).filterMap Anchor.ofText? =
      List.replicate 2 "UI-Kit".toList := by
    decide +kernel
  have shared : (renderedOverview {} (classesReference [("Door", some "UI Kit"),
      ("Gate", some "UI-Kit")])).anchors = List.replicate 2 "UI-Kit".toList :=
    List.perm_replicate.mp (left ▸ names ▸ perm_anchors_overviewDocument {} _ _)
  rw [shared]
  exact ⟨rfl, by decide⟩

end Page

end LuauReference
