/-
This file proves that labelling the fenced code of a description and linking its references go by
the same fences. Both go through the lines with a flag that every fence turns over, and what they do
with a line depends on the line and the flag alone, so the flag is told by the number of fences in
front of a line: it is set where that number is odd. Labelling writes fences anew but always writes
a fence for a fence, hence linking counts the same ones afterwards, however they are nested,
indented or left open.
-/

import LuauReference.Page.Fence
import LuauReference.Proofs.Page.Allocation
import LuauReference.Proofs.Page.Link
import LuauReference.Proofs.Page.Path
import LuauReference.Proofs.Page.Render
import LuauReference.Proofs.Text.Blank

namespace LuauReference

/-! ### Lines between fences -/

namespace Links

/-- Whether an odd number of fences stands in front of a line: it is in fenced code, or ends it. -/
def isInside (lines : List Text) (index : Nat) : Bool :=
  (lines.take index).countP isFence % 2 == 1

theorem isInside_zero (lines : List Text) : isInside lines 0 = false := by
  rw [isInside, List.take_zero]
  rfl

theorem isInside_cons_succ (line : Text) (rest : List Text) (index : Nat) :
    isInside (line :: rest) (index + 1) = (isFence line != isInside rest index) := by
  rw [isInside, isInside, List.take_succ_cons, List.countP_cons]
  rcases Nat.mod_two_eq_zero_or_one ((rest.take index).countP isFence) with even | odd
  · cases isFence line <;> simp [Nat.add_mod, even]
  · cases isFence line <;> simp [Nat.add_mod, odd]

/-- Where the fences are is all that matters. -/
theorem isInside_congr {first second : List Text} (same : first.map isFence = second.map isFence) :
    isInside first = isInside second := by
  have counted (lines : List Text) (index : Nat) :
      (lines.take index).countP isFence = ((lines.map isFence).take index).countP id := by
    rw [← List.map_take, List.countP_map]
    rfl
  funext index
  rw [isInside, isInside, counted, counted, same]

/-- Lines that are written anew one after the other, given whether they begin inside of a fence. -/
def rewrite (write : Bool → Text → Text) (inFence : Bool) : List Text → List Text
  | [] => []
  | line :: rest => write inFence line :: rewrite write (inFence != isFence line) rest

theorem length_rewrite (write : Bool → Text → Text) (inFence : Bool) (lines : List Text) :
    (rewrite write inFence lines).length = lines.length := by
  induction lines generalizing inFence with
  | nil => rfl
  | cons line rest inductionHypothesis => exact congrArg (· + 1) (inductionHypothesis _)

/-- What is written for a line depends on the line and on whether it is inside of a fence. -/
theorem getElem?_rewrite (write : Bool → Text → Text) (inFence : Bool) (lines : List Text)
    (index : Nat) :
    (rewrite write inFence lines)[index]? =
      lines[index]?.map (write (inFence != isInside lines index)) := by
  induction lines generalizing inFence index with
  | nil => rfl
  | cons line rest inductionHypothesis =>
    cases index with
    | zero => rw [isInside_zero, Bool.bne_false]; rfl
    | succ index =>
      rw [isInside_cons_succ, ← Bool.bne_assoc]
      exact inductionHypothesis _ _

theorem linkLines_eq (links : Links) (inFence : Bool) (lines : List Text) :
    links.linkLines inFence lines =
      rewrite (fun inside line => if isFence line || inside then line else links.linkLine line)
        inFence lines := by
  induction lines generalizing inFence with
  | nil => rfl
  | cons line rest inductionHypothesis =>
    rw [linkLines, rewrite, inductionHypothesis, inductionHypothesis]
    cases isFence line <;> simp

end Links

namespace Page

theorem labelLines_eq (language : Text) (inFence : Bool) (lines : List Text) :
    labelLines language inFence lines =
      Links.rewrite (fun inside line =>
        if Links.isFence line && !inside then labelFence language line else line) inFence
          lines := by
  induction lines generalizing inFence with
  | nil => rfl
  | cons line rest inductionHypothesis =>
    rw [labelLines, Links.rewrite, inductionHypothesis, inductionHypothesis]
    cases Links.isFence line <;> cases inFence <;> rfl

/-! ### Labels -/

/-- What stands behind the mark of a fence. -/
def labelOf (line : Text) : Text :=
  Text.trim ((Text.trim line).drop 3)

/-- Whether a language can stand behind a fence as its label: it is one word, and not the word that
is replaced. -/
structure IsLabel (language : Text) : Prop where
  present : language ≠ []
  solid : ∀ c ∈ language, Text.isBlank c = false
  other : language ≠ "luau"

theorem isLabel_lua : IsLabel "lua" :=
  ⟨by decide, fun c member =>
    Text.isBlank_of_isWordChar (Text.isWordChar_of_mem (by decide) c member),
    by decide⟩

theorem isLabel_fenceLanguage {lang : Text} (solid : ∀ c ∈ lang, Text.isBlank c = false) :
    IsLabel (fenceLanguage lang) := by
  rw [fenceLanguage]
  split
  · exact isLabel_lua
  · next chosen =>
    rw [Bool.or_eq_true, not_or, List.isEmpty_iff, decide_eq_true_iff] at chosen
    exact ⟨chosen.1, solid, chosen.2⟩

theorem trim_fence {indent language : Text} (blank : Text.isBlankText indent = true)
    (label : IsLabel language) :
    Text.trim (indent ++ Links.fence ++ language) = Links.fence ++ language := by
  have solid : ∀ c ∈ Links.fence, Text.isBlank c = false := fun c member => by
    rw [List.eq_of_mem_replicate (n := 3) member]
    rfl
  rw [List.append_assoc, Text.trim_append_left blank]
  exact Text.trim_of_forall (List.forall_mem_append.mpr ⟨solid, label.solid⟩)

theorem isFence_append {indent language : Text} (blank : Text.isBlankText indent = true)
    (label : IsLabel language) : Links.isFence (indent ++ Links.fence ++ language) = true := by
  rw [Links.isFence, trim_fence blank label]
  exact Text.startsWith_iff.mpr ⟨language, rfl⟩

theorem labelOf_append {indent language : Text} (blank : Text.isBlankText indent = true)
    (label : IsLabel language) : labelOf (indent ++ Links.fence ++ language) = language := by
  rw [labelOf, trim_fence blank label]
  exact Text.trim_of_forall label.solid

/-- Whether a fence names a language that is not to be replaced. -/
def IsLabelled (line : Text) : Prop :=
  labelOf line ≠ [] ∧ labelOf line ≠ "luau"

/-- A fence that names its language stays as it is. -/
theorem labelFence_of_isLabelled {line : Text} (labelled : IsLabelled line) (language : Text) :
    labelFence language line = line := by
  rw [labelFence, ← labelOf, if_neg (mt List.isEmpty_iff.mp labelled.1), if_neg labelled.2]

section

variable {language : Text} (label : IsLabel language)

include label

/-- All other fences are written anew, with their indentation and a language. -/
theorem exists_labelFence_eq {line : Text} (open_ : ¬ IsLabelled line) :
    ∃ indent name, Text.isBlankText indent = true ∧ indent ⊆ line ∧ IsLabel name ∧
      labelFence language line = indent ++ Links.fence ++ name := by
  have blank : Text.isBlankText (line.takeWhile Text.isBlank) = true := List.all_takeWhile
  have inside : line.takeWhile Text.isBlank ⊆ line := (List.takeWhile_prefix _).subset
  rw [labelFence, ← labelOf]
  split
  · exact ⟨_, language, blank, inside, label, rfl⟩
  · next named =>
    split
    · exact ⟨_, "lua", blank, inside, isLabel_lua, rfl⟩
    · next other => exact absurd ⟨fun empty => named (List.isEmpty_iff.mpr empty), other⟩ open_

theorem isLabelled_labelFence (line : Text) : IsLabelled (labelFence language line) := by
  by_cases labelled : IsLabelled line
  · rwa [labelFence_of_isLabelled labelled]
  · obtain ⟨indent, name, blank, _, isName, same⟩ := exists_labelFence_eq label labelled
    rw [IsLabelled, same, labelOf_append blank isName]
    exact ⟨isName.present, isName.other⟩

theorem isFence_labelFence {line : Text} (fence : Links.isFence line = true) :
    Links.isFence (labelFence language line) = true := by
  by_cases labelled : IsLabelled line
  · rwa [labelFence_of_isLabelled labelled]
  · obtain ⟨indent, name, blank, _, isName, same⟩ := exists_labelFence_eq label labelled
    rw [same, isFence_append blank isName]

theorem newline_notMem_labelFence {line : Text} (oneLine : '\n' ∉ line) :
    '\n' ∉ labelFence language line := by
  by_cases labelled : IsLabelled line
  · rwa [labelFence_of_isLabelled labelled]
  · obtain ⟨indent, name, _, inside, isName, same⟩ := exists_labelFence_eq label labelled
    have solid : '\n' ∉ name := fun member =>
      absurd (isName.solid '\n' member) (by decide)
    rw [same, List.mem_append, List.mem_append, not_or, not_or]
    exact ⟨⟨fun member => oneLine (inside member), by decide⟩, solid⟩

/-! ### Labelled lines -/

/-- A fence is written for a fence, and other lines stay. -/
theorem map_isFence_labelLines (inFence : Bool) (lines : List Text) :
    (labelLines language inFence lines).map Links.isFence = lines.map Links.isFence := by
  refine List.ext_getElem? fun index => ?_
  rw [labelLines_eq, List.getElem?_map, Links.getElem?_rewrite, List.getElem?_map, Option.map_map]
  refine Option.map_congr fun line _ => ?_
  rw [Function.comp_apply]
  split
  · next fence =>
    rw [Bool.and_eq_true] at fence
    rw [fence.1, isFence_labelFence label fence.1]
  · rfl

theorem labelLines_labelLines (inFence : Bool) (lines : List Text) :
    labelLines language inFence (labelLines language inFence lines) =
      labelLines language inFence lines := by
  have same := Links.isInside_congr (map_isFence_labelLines label inFence lines)
  refine List.ext_getElem? fun index => ?_
  conv_lhs => rw [labelLines_eq, Links.getElem?_rewrite, same, labelLines_eq]
  rw [labelLines_eq, Links.getElem?_rewrite, Option.map_map]
  refine Option.map_congr fun line _ => ?_
  rw [Function.comp_apply]
  split
  · next opening =>
    rw [labelFence_of_isLabelled (isLabelled_labelFence label line), ite_self]
  · rfl

theorem newline_notMem_of_mem_labelLines (inFence : Bool) {lines : List Text}
    (oneLine : ∀ line ∈ lines, '\n' ∉ line) :
    ∀ line ∈ labelLines language inFence lines, '\n' ∉ line := by
  intro line member
  obtain ⟨index, found⟩ := List.mem_iff_getElem?.mp member
  rw [labelLines_eq, Links.getElem?_rewrite] at found
  obtain ⟨before, held, rfl⟩ := Option.map_eq_some_iff.mp found
  have plain := oneLine before (List.mem_of_getElem? held)
  split
  · exact newline_notMem_labelFence label plain
  · exact plain

end

theorem newline_notMem_of_mem_pieces {text : Text} :
    ∀ line ∈ Text.pieces '\n' text, '\n' ∉ line :=
  fun _ member held => (Text.mem_of_mem_pieces member held).2 rfl

theorem length_labelLines (language : Text) (inFence : Bool) (lines : List Text) :
    (labelLines language inFence lines).length = lines.length := by
  rw [labelLines_eq, Links.length_rewrite]

/-- The lines of a labelled description are the labelled lines of the description. -/
theorem pieces_labelFences {lang : Text} (label : IsLabel (fenceLanguage lang)) (text : Text) :
    Text.pieces '\n' (labelFences lang text) =
      labelLines (fenceLanguage lang) false (Text.pieces '\n' text) := by
  refine Text.pieces_join (List.ne_nil_of_length_pos ?_)
    (newline_notMem_of_mem_labelLines label false newline_notMem_of_mem_pieces)
  rw [length_labelLines]
  exact List.length_pos_of_ne_nil (Text.pieces_ne_nil '\n' text)

end Page

/-! ### Links on one line -/

namespace Links

/-- Whether no address that a reference leads to has a line feed. -/
def IsUnbroken (links : Links) : Prop :=
  ∀ reference href, links.resolve? reference = some href → '\n' ∉ href

theorem mem_of_mem_dropLegacyHead {c : Char} {reference : Text}
    (member : c ∈ dropLegacyHead reference) : c ∈ reference := by
  rw [dropLegacyHead] at member
  cases found : legacyHeads.findSome? fun head => Text.after? head reference with
  | none => rwa [found] at member
  | some rest =>
    rw [found, Option.getD_some] at member
    obtain ⟨head, _, after⟩ := List.exists_of_findSome?_eq_some found
    rw [Text.after?_eq_some_iff.mp after]
    exact List.mem_append_right head member

theorem newline_notMem_codeSpan {s : Text} (oneLine : '\n' ∉ s) : '\n' ∉ codeSpan s := by
  simpa [codeSpan] using oneLine

theorem append_of_span? {s content rest : Text} (found : span? s = some (content, rest)) :
    s = content ++ '\x60' :: rest := by
  rw [span?] at found
  split at found
  · next shown left =>
    obtain ⟨rfl, rfl⟩ := Prod.mk.inj (Option.some.inj found)
    rw [← shown, ← left, List.takeWhile_append_dropWhile]
  · cases found

section

variable {links : Links} (unbroken : links.IsUnbroken)

include unbroken

/-- What a code span becomes is put together from parts of the span and an address. -/
theorem newline_notMem_replaceSpan {content : Text} (oneLine : '\n' ∉ content) :
    '\n' ∉ links.replaceSpan content := by
  rw [replaceSpan]
  split
  next target label sides =>
  obtain ⟨plain, labelled⟩ : '\n' ∉ target ∧ '\n' ∉ label := by
    cases cut : Text.cut? "|" content with
    | none =>
      rw [cut] at sides
      cases sides
      exact ⟨fun member => oneLine (Text.mem_of_mem_trim member), List.not_mem_nil⟩
    | some parts =>
      rw [cut] at sides
      cases sides
      rw [Text.append_of_cut? cut] at oneLine
      simp only [List.mem_append, not_or] at oneLine
      exact ⟨fun member => oneLine.1.1 (Text.mem_of_mem_trim member),
        fun member => oneLine.2 (Text.mem_of_mem_trim member)⟩
  have dropped : '\n' ∉ dropLegacyHead target := fun member =>
    plain (mem_of_mem_dropLegacyHead member)
  split
  · exact newline_notMem_codeSpan plain
  · split
    · split
      · exact newline_notMem_codeSpan dropped
      · exact newline_notMem_codeSpan oneLine
    · next href found =>
      have address := unbroken target href found
      split <;> simp [dropped, labelled, address]

theorem newline_notMem_linkLine {line : Text} (oneLine : '\n' ∉ line) :
    '\n' ∉ links.linkLine line := by
  fun_induction Links.linkLine links line with
  | case1 => exact List.not_mem_nil
  | case2 rest content tail found inductionHypothesis =>
    have parts : '\n' ∉ content ∧ '\n' ∉ tail := by
      rw [append_of_span? found] at oneLine
      simpa using oneLine
    rw [List.mem_append, not_or]
    exact ⟨newline_notMem_replaceSpan unbroken parts.1, inductionHypothesis parts.2⟩
  | case3 rest missing inductionHypothesis =>
    simpa using inductionHypothesis (List.not_mem_of_not_mem_cons oneLine)
  | case4 c rest other inductionHypothesis =>
    obtain ⟨first, later⟩ := List.ne_and_not_mem_of_not_mem_cons oneLine
    exact List.not_mem_cons_of_ne_of_not_mem first (inductionHypothesis later)

/-- The lines of a linked description are the linked lines of the description. -/
theorem pieces_linkText (text : Text) : Text.pieces '\n' (links.linkText text) =
    links.linkLines false (Text.pieces '\n' text) := by
  refine Text.pieces_join (List.ne_nil_of_length_pos ?_) fun line member => ?_
  · rw [linkLines_eq, length_rewrite]
    exact List.length_pos_of_ne_nil (Text.pieces_ne_nil '\n' text)
  · obtain ⟨index, found⟩ := List.mem_iff_getElem?.mp member
    rw [linkLines_eq, getElem?_rewrite] at found
    obtain ⟨before, held, rfl⟩ := Option.map_eq_some_iff.mp found
    have plain := Page.newline_notMem_of_mem_pieces before (List.mem_of_getElem? held)
    split
    · exact plain
    · exact newline_notMem_linkLine unbroken plain

end

/-- A description of one line that is no fence is linked as that line. -/
theorem linkText_of_notMem (links : Links) {line : Text} (oneLine : '\n' ∉ line)
    (open_ : isFence line = false) : links.linkText line = links.linkLine line := by
  rw [linkText, Text.pieces_of_notMem oneLine, linkLines_eq, rewrite, rewrite, open_]
  rfl

end Links

namespace Page

/-! ### Planned links -/

section

variable {test : Symbol → Bool} {includePrivate : Bool} {reference : Reference} {route : Text}

theorem isAnchor_of_mem_plan {page : ClassPage} (inside : page ∈ plan test includePrivate reference)
    {member : Member} (held : member ∈ page.members) {anchor : Text}
    (anchored : member.anchor = some anchor) : Anchor.IsAnchor anchor := by
  obtain ⟨symbol, _, rfl⟩ := mem_plan.mp inside
  obtain ⟨section_, listed, shown⟩ := List.mem_flatMap.mp held
  obtain ⟨before, handed⟩ := (member_of_mem_sectionsFrom listed shown).2
  exact (Anchor.Used.isChosen_allocate (handed.trans anchored)).isAnchor
    Anchor.isAnchor_of_mem_wantedFor

/-- Among planned pages it is enough that the addresses of the pages have no line feed: the anchors
behind them never have one. -/
theorem isUnbroken_plannedLinks
    (unbroken : ∀ page ∈ plan test includePrivate reference,
      '\n' ∉ (plannedLinks test includePrivate reference route).address page) :
    (plannedLinks test includePrivate reference route).IsUnbroken := by
  have plain {name : Text} {page : ClassPage}
      (found : (plannedLinks test includePrivate reference route).page? name = some page) :
      page ∈ plan test includePrivate reference ∧
        '\n' ∉ (plannedLinks test includePrivate reference route).address page :=
    ⟨(Links.mem_of_page? found).1, unbroken page (Links.mem_of_page? found).1⟩
  have class_ {name href : Text}
      (found : (plannedLinks test includePrivate reference route).classHref? name = some href) :
      '\n' ∉ href := by
    obtain ⟨page, known, rfl⟩ := Option.map_eq_some_iff.mp found
    exact (plain known).2
  have member_ {name member href : Text}
      (found : (plannedLinks test includePrivate reference route).memberHref? name member =
        some href) :
      '\n' ∉ href := by
    obtain ⟨page, known, rfl⟩ := Option.map_eq_some_iff.mp found
    obtain ⟨inside, address⟩ := plain known
    dsimp only
    split
    · next anchor given =>
      have isAnchor : Anchor.IsAnchor anchor := by
        rw [Option.orElse_eq_orElse, Option.orElse_eq_or] at given
        rcases Option.or_eq_some_iff.mp given with shown | ⟨_, made⟩
        · obtain ⟨member, listed, anchored⟩ := Option.bind_eq_some_iff.mp shown
          exact isAnchor_of_mem_plan inside (List.mem_of_find?_eq_some listed) anchored
        · exact Anchor.isAnchor_of_ofText? made
      have oneLine : '\n' ∉ anchor := fun member =>
        absurd (isAnchor.characters '\n' member) (by decide)
      simp [address, oneLine]
    · exact address
  intro target href found
  rw [Links.resolve?] at found
  split at found
  · split at found
    · exact member_ found
    · exact class_ found
  · exact class_ found

end

/-! ### Labels and links -/

/-- Whether a line opens fenced code. -/
def IsOpening (lines : List Text) (index : Nat) (line : Text) : Prop :=
  lines[index]? = some line ∧ Links.isFence line = true ∧ Links.isInside lines index = false

/-- Whether lines are labelled: each line is a fence as before, only fences that open code and name
no language, or one that is replaced, are changed, and after that all fences that open code name
one. -/
structure AreLabelled (before after : List Text) : Prop where
  length : after.length = before.length
  fences : after.map Links.isFence = before.map Links.isFence
  kept : ∀ index line other, before[index]? = some line → after[index]? = some other →
    other ≠ line → IsOpening before index line ∧ (labelOf line = [] ∨ labelOf line = "luau")
  labelled : ∀ index line, IsOpening after index line → labelOf line ≠ [] ∧ labelOf line ≠ "luau"

/-- Whether labelled lines are linked by the fences of the lines from which they were made: a fence
and a line in fenced code stay, and any other line is linked as if it stood alone. -/
structure AreLinked (links : Links) (lines labelled linked : List Text) : Prop where
  length : linked.length = lines.length
  kept : ∀ index line, labelled[index]? = some line →
    (Links.isFence line = true ∨ Links.isInside lines index = true) → linked[index]? = some line
  each : ∀ index line, labelled[index]? = some line →
    Links.isFence line = false → Links.isInside lines index = false →
      linked[index]? = some (links.linkText line)

theorem areLabelled_labelLines {language : Text} (label : IsLabel language) (lines : List Text) :
    AreLabelled lines (labelLines language false lines) where
  length := length_labelLines language false lines
  fences := map_isFence_labelLines label false lines
  kept index line other held found changed := by
    rw [labelLines_eq, Links.getElem?_rewrite, held] at found
    obtain rfl := Option.some.inj found
    dsimp only at changed
    split at changed
    · next opening =>
      simp only [Bool.false_bne, Bool.and_eq_true, Bool.not_eq_true'] at opening
      refine ⟨⟨held, opening⟩, ?_⟩
      by_contra labelled
      exact changed (labelFence_of_isLabelled (not_or.mp labelled) language)
    · exact absurd rfl changed
  labelled index line opening := by
    obtain ⟨found, fence, outside⟩ := opening
    rw [Links.isInside_congr (map_isFence_labelLines label false lines)] at outside
    rw [labelLines_eq, Links.getElem?_rewrite, outside] at found
    obtain ⟨before, _, rfl⟩ := Option.map_eq_some_iff.mp found
    split at fence
    · next opening =>
      rw [if_pos opening]
      exact isLabelled_labelFence label before
    · next other =>
      rw [fence] at other
      exact absurd rfl other

theorem areLinked_linkLines (links : Links) {lines labelled : List Text}
    (same : labelled.map Links.isFence = lines.map Links.isFence)
    (oneLine : ∀ line ∈ labelled, '\n' ∉ line) :
    AreLinked links lines labelled (links.linkLines false labelled) := by
  have inside := Links.isInside_congr same
  refine ⟨?_, fun index line held stays => ?_, fun index line held open_ outside => ?_⟩
  · rw [Links.linkLines_eq, Links.length_rewrite, ← List.length_map Links.isFence, same,
      List.length_map]
  · rw [Links.linkLines_eq, Links.getElem?_rewrite, held, inside, Option.map_some, Bool.false_bne,
      if_pos (by rwa [Bool.or_eq_true])]
  · rw [Links.linkLines_eq, Links.getElem?_rewrite, held, inside, Option.map_some, Bool.false_bne,
      open_, outside,
      Links.linkText_of_notMem links (oneLine line (List.mem_of_getElem? held)) open_]
    rfl

/-- Labelling the fenced code of a description with a language of one word or none keeps its lines
and its fences, changes only fences that open code without a language of their own, and changes
nothing when it is done again. Linking the labelled description goes line by line and leaves the
fences and all lines between them as they are, if no address that a reference leads to has a line
feed. Of planned pages, none has if none of the addresses of the pages has. -/
theorem fences_stay_in_step {lang : Text} (solid : ∀ c ∈ lang, Text.isBlank c = false)
    (text : Text) :
    AreLabelled (Text.pieces '\n' text) (Text.pieces '\n' (labelFences lang text)) ∧
      labelFences lang (labelFences lang text) = labelFences lang text ∧
      (∀ links : Links, links.IsUnbroken →
        AreLinked links (Text.pieces '\n' text) (Text.pieces '\n' (labelFences lang text))
          (Text.pieces '\n' (links.linkText (labelFences lang text)))) ∧
      ∀ test includePrivate reference route,
        (∀ page ∈ plan test includePrivate reference,
          '\n' ∉ (plannedLinks test includePrivate reference route).address page) →
        (plannedLinks test includePrivate reference route).IsUnbroken := by
  have label := isLabel_fenceLanguage solid
  have lines := pieces_labelFences label text
  refine ⟨?_, ?_, fun links unbroken => ?_, fun _ _ _ _ => isUnbroken_plannedLinks⟩
  · rw [lines]
    exact areLabelled_labelLines label _
  · rw [labelFences, lines, labelLines_labelLines label]
    rfl
  · rw [Links.pieces_linkText unbroken, lines]
    exact areLinked_linkLines links (map_isFence_labelLines label false _)
      (newline_notMem_of_mem_labelLines label false newline_notMem_of_mem_pieces)

/-- A reference with a single class. -/
def doorReference : Reference :=
  bareReference [[bareSymbol "class" "Door" "Door"]]

/-- A description with an indented fence without a language, a fence that ends code and has the
language that is replaced, and a fence of four marks that is left open. -/
def fencedText : Text :=
  "See `Door`.\n  ```\n`Door`\n```luau\n````\n`Door`"

theorem fences_stay_in_step_doors :
    (∀ c ∈ "c".toList, Text.isBlank c = false) ∧
      (∀ page ∈ plan isSignal false doorReference,
        '\n' ∉ (plannedLinks isSignal false doorReference "docs").address page) ∧
      labelFences "c" fencedText = "See `Door`.\n  ```c\n`Door`\n```luau\n````\n`Door`".toList ∧
      Text.pieces '\n' ((plannedLinks isSignal false doorReference "docs").linkText
          (labelFences "c" fencedText)) =
        ["See [Door](/docs/classes/Door).".toList, "  ```c".toList, "`Door`".toList,
          "```luau".toList, "````".toList, "`Door`".toList] := by
  have solid : ∀ c ∈ "c".toList, Text.isBlank c = false := List.forall_mem_singleton.mpr rfl
  have plain : ∀ page ∈ plan isSignal false doorReference,
      '\n' ∉ (plannedLinks isSignal false doorReference "docs").address page := by
    rw [plannedLinks, plan_eq_insertedPlan]
    decide +kernel
  have first : (plannedLinks isSignal false doorReference "docs").linkText "See `Door`." =
      "See [Door](/docs/classes/Door).".toList := by
    rw [plannedLinks, plan_eq_insertedPlan]
    decide +kernel
  obtain ⟨_, _, linked, planned⟩ := fences_stay_in_step solid fencedText
  obtain ⟨long, kept, each⟩ := linked _ (planned isSignal false doorReference "docs" plain)
  refine ⟨solid, plain, by decide +kernel, List.ext_getElem? fun index => ?_⟩
  rcases index with _ | _ | _ | _ | _ | _ | index
  · exact (each 0 _ (by decide +kernel) (by decide) (by decide)).trans (congrArg some first)
  · exact kept 1 _ (by decide +kernel) (by decide +kernel)
  · exact kept 2 _ (by decide +kernel) (by decide +kernel)
  · exact kept 3 _ (by decide +kernel) (by decide +kernel)
  · exact kept 4 _ (by decide +kernel) (by decide +kernel)
  · exact kept 5 _ (by decide +kernel) (by decide +kernel)
  · have count : (Text.pieces '\n' fencedText).length = 6 := by decide +kernel
    rw [List.getElem?_eq_none (by omega), List.getElem?_eq_none (by simp)]

end Page

end LuauReference
