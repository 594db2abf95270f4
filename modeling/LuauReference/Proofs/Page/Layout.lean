/-
This file proves that the summary of a class page leads to the parts of its members. The summary and
the parts are laid out by two loops over the same members, so the rows of the summary tables and the
headings of the parts come in the same order with the same names, and a row links to the anchor of
its part. No two headings of the page have the same anchor, so the link leads there and nowhere
else.

A page is read as a list of blocks. Its summary reaches from the heading with the anchor of the
summary to the next heading of the second level, and the headings of the members are those of the
third level after it. Everything under the heading of a member is detail: it has no heading that
either could be taken for.
-/

import LuauReference.Proofs.Page.ClassPage
import LuauReference.Proofs.Page.Plan

namespace LuauReference

open Failure

/-! ### Reading a page -/

namespace Block

/-- The anchor of a heading. -/
def anchor? : Block → Option Text
  | .heading _ _ anchor => anchor
  | _ => none

/-- Whether a block is a heading of a level. -/
def isHeading (level : Int) : Block → Bool
  | .heading depth _ _ => depth = level
  | _ => false

/-- The text and the anchor of a heading of the third level. -/
def memberHeading? : Block → Option (Text × Option Text)
  | .heading depth content anchor => if depth = 3 then some (content, anchor) else none
  | _ => none

/-- The rows of a table. -/
def rows : Block → List (List (List Inline))
  | .table _ rows => rows
  | _ => []

/-- Whether a block is a detail of what stands under a heading: no heading itself, or one of the
fourth level without an anchor. -/
def IsDetail : Block → Prop
  | .heading depth _ anchor => depth = 4 ∧ anchor = none
  | _ => True

theorem anchor?_of_isDetail {block : Block} (detail : block.IsDetail) : block.anchor? = none := by
  cases block with
  | heading depth content anchor => exact detail.2
  | _ => rfl

theorem memberHeading?_of_isDetail {block : Block} (detail : block.IsDetail) :
    block.memberHeading? = none := by
  cases block with
  | heading depth content anchor =>
    rw [memberHeading?, detail.1]
    rfl
  | _ => rfl

end Block

namespace PageDocument

/-- The blocks of a page from the heading of its summary on. -/
def fromSummary (page : PageDocument) : List Block :=
  page.blocks.dropWhile fun block => block.anchor? ≠ some Page.summaryAnchor

/-- The rows of the tables in the summary of a page. -/
def summaryRows (page : PageDocument) : List (List (List Inline)) :=
  (page.fromSummary.tail.takeWhile fun block => !block.isHeading 2).flatMap Block.rows

/-- The names and the anchors of the members whose parts follow the summary. -/
def memberHeadings (page : PageDocument) : List (Text × Option Text) :=
  (page.fromSummary.tail.dropWhile fun block => !block.isHeading 2).filterMap Block.memberHeading?

theorem filterMap_headings (page : PageDocument) :
    (page.headings none).filterMap (fun heading => heading.2.2) =
      page.blocks.filterMap Block.anchor? := by
  rw [headings, List.filterMap_filterMap]
  refine List.filterMap_congr fun block _ => ?_
  cases block <;> rfl

end PageDocument

namespace Page

/-! ### Details -/

/-- Whether all blocks are details. -/
def AreDetails (blocks : List Block) : Prop :=
  ∀ block ∈ blocks, block.IsDetail

theorem AreDetails.append {first second : List Block} (left : AreDetails first)
    (right : AreDetails second) : AreDetails (first ++ second) :=
  List.forall_mem_append.mpr ⟨left, right⟩

/-- What does not look at details finds nothing in them. -/
theorem AreDetails.filterMap_eq_nil {γ : Type} {view : Block → Option γ} {blocks : List Block}
    (details : AreDetails blocks) (blind : ∀ block : Block, block.IsDetail → view block = none) :
    blocks.filterMap view = [] :=
  List.filterMap_eq_nil_iff.mpr fun block member => blind block (details block member)

theorem AreDetails.filterMap_cons {γ : Type} {view : Block → Option γ} {blocks : List Block}
    (details : AreDetails blocks) (blind : ∀ block : Block, block.IsDetail → view block = none)
    (head : Block) : (head :: blocks).filterMap view = (view head).toList := by
  rw [List.filterMap_cons, details.filterMap_eq_nil blind]
  cases view head <;> rfl

theorem areDetails_badges (settings : PageSettings) (symbol : Symbol) (primary : Text) :
    AreDetails (badges settings symbol primary) := by
  refine List.forall_mem_cons.mpr ⟨trivial, fun block member => ?_⟩
  obtain ⟨tag, _, rfl⟩ := List.mem_map.mp member
  trivial

theorem areDetails_sourceLink (settings : PageSettings) (symbol : Symbol) :
    AreDetails (sourceLink settings symbol) := by
  intro block member
  obtain ⟨url, _, rfl⟩ := List.mem_map.mp member
  trivial

theorem areDetails_description (settings : PageSettings) (links : Links) (symbol : Symbol) :
    AreDetails (description settings links symbol) := by
  fun_cases description settings links symbol with
  | case1 => exact List.forall_mem_nil _
  | case2 => exact List.forall_mem_singleton.mpr trivial

theorem areDetails_labelList (settings : PageSettings) (symbol : Symbol) :
    AreDetails (labelList settings symbol) := by
  unfold labelList
  split
  · exact List.forall_mem_nil _
  · exact List.forall_mem_singleton.mpr trivial

theorem areDetails_table {label : Text} {headers : List Text} {items : List Fields}
    {row : Fields → Except Failure (List (List Inline))} {blocks : List Block}
    (built : (if items.isEmpty then .ok [] else do
        let rows ← items.mapM row
        pure [.heading 4 label none, .table headers rows]) = Except.ok blocks) :
    AreDetails blocks := by
  split at built
  · obtain rfl : [] = blocks := Except.ok.inj built
    exact List.forall_mem_nil _
  · obtain ⟨rows, _, same⟩ := bind_eq_ok_iff.mp built
    obtain rfl : [.heading 4 label none, .table headers rows] = blocks := Except.ok.inj same
    exact List.forall_mem_cons.mpr ⟨⟨rfl, rfl⟩, List.forall_mem_singleton.mpr trivial⟩

theorem areDetails_detailTables {settings : PageSettings} {links : Links} {member : Member}
    {blocks : List Block} (built : detailTables settings links member = .ok blocks) :
    AreDetails blocks := by
  obtain ⟨params, first, built⟩ := bind_eq_ok_iff.mp built
  obtain ⟨returns, second, built⟩ := bind_eq_ok_iff.mp built
  obtain ⟨errors, third, built⟩ := bind_eq_ok_iff.mp built
  obtain ⟨fields, fourth, same⟩ := bind_eq_ok_iff.mp built
  obtain rfl : params ++ returns ++ errors ++ fields = blocks := Except.ok.inj same
  exact (((areDetails_table first).append (areDetails_table second)).append
    (areDetails_table third)).append (areDetails_table fourth)

/-- The heading of a member. -/
def memberHeading (member : Member) : Block :=
  .heading 3 member.symbol.shownName member.anchor

/-- The part of a page about a member is its heading with details under it. -/
theorem memberPart_eq {settings : PageSettings} {links : Links} {page : ClassPage} {member : Member}
    {part : List Block} (built : memberPart settings links page member = .ok part) :
    ∃ details, part = memberHeading member :: details ∧ AreDetails details := by
  obtain ⟨shown, _, built⟩ := bind_eq_ok_iff.mp built
  obtain ⟨tables, laidOut, same⟩ := bind_eq_ok_iff.mp built
  refine ⟨_, (Except.ok.inj same).symm, ?_⟩
  refine AreDetails.append ?_ (areDetails_labelList settings member.symbol)
  refine AreDetails.append ?_ (areDetails_description settings links member.symbol)
  refine AreDetails.append ?_ (areDetails_detailTables laidOut)
  refine AreDetails.append ?_ ?_
  · exact (areDetails_badges settings member.symbol _).append
      (areDetails_sourceLink settings member.symbol)
  · intro block inside
    obtain ⟨text, _, rfl⟩ := List.mem_map.mp inside
    trivial

/-! ### Sections -/

/-- The heading of a section. -/
def sectionHeading (settings : PageSettings) (bucket : Bucket) : Block :=
  .heading 2 (settings.label bucket.anchor) (some bucket.anchor)

section

variable {γ : Type} {view : Block → Option γ} {settings : PageSettings} {links : Links}
  {page : ClassPage}

/-- What is found in a section by looking at headings only. -/
theorem filterMap_sectionBlocks (blind : ∀ block : Block, block.IsDetail → view block = none)
    {bucket : Bucket} {members : List Member} {blocks : List Block}
    (built : sectionBlocks settings links page bucket members = .ok blocks) :
    blocks.filterMap view =
      (sectionHeading settings bucket :: members.map memberHeading).filterMap view := by
  obtain ⟨parts, laidOut, same⟩ := bind_eq_ok_iff.mp built
  obtain rfl : sectionHeading settings bucket :: parts.flatten = blocks := Except.ok.inj same
  have each : parts.map (List.filterMap view) =
      members.map fun member => (view (memberHeading member)).toList := by
    refine map_of_mapM laidOut fun member part partBuilt => ?_
    obtain ⟨details, rfl, areDetails⟩ := memberPart_eq partBuilt
    exact areDetails.filterMap_cons blind _
  have members : parts.flatten.filterMap view = (members.map memberHeading).filterMap view := by
    rw [List.filterMap_flatten, each, List.filterMap_map, List.filterMap_eq_flatMap_toList,
      List.flatMap_def]
    rfl
  rw [List.filterMap_cons, List.filterMap_cons, members]

/-- The headings of the sections of a page and of their members. -/
def sectionHeadings (settings : PageSettings) (page : ClassPage) : List Block :=
  page.sections.flatMap fun (bucket, members) =>
    sectionHeading settings bucket :: members.map memberHeading

theorem anchor?_sectionHeadings (settings : PageSettings) (page : ClassPage) :
    (sectionHeadings settings page).filterMap Block.anchor? = shownAnchors page.sections := by
  rw [sectionHeadings, List.filterMap_flatMap, shownAnchors]
  refine congrArg (List.flatMap · page.sections) (funext fun section_ => ?_)
  have own : (sectionHeading settings section_.1).anchor? = some section_.1.anchor := rfl
  rw [List.filterMap_cons_some own, List.filterMap_map]
  rfl

theorem memberHeading?_sectionHeadings (settings : PageSettings) (page : ClassPage) :
    (sectionHeadings settings page).filterMap Block.memberHeading? =
      page.members.map fun member => (member.symbol.shownName, member.anchor) := by
  rw [sectionHeadings, List.filterMap_flatMap, ClassPage.members, List.map_flatMap]
  refine congrArg (List.flatMap · page.sections) (funext fun section_ => ?_)
  have own : (sectionHeading settings section_.1).memberHeading? = none := rfl
  rw [List.filterMap_cons_none own, List.filterMap_map]
  exact congrFun List.filterMap_eq_map section_.2

theorem filterMap_sections (blind : ∀ block : Block, block.IsDetail → view block = none)
    {sections : List (List Block)}
    (built : page.sections.mapM (fun (bucket, members) =>
      sectionBlocks settings links page bucket members) = .ok sections) :
    sections.flatten.filterMap view = (sectionHeadings settings page).filterMap view := by
  have each : sections.map (List.filterMap view) = page.sections.map fun section_ =>
      (sectionHeading settings section_.1 :: section_.2.map memberHeading).filterMap view :=
    map_of_mapM built fun _ _ sectionBuilt => filterMap_sectionBlocks blind sectionBuilt
  rw [List.filterMap_flatten, each, sectionHeadings, List.filterMap_flatMap, List.flatMap_def]

/-- The sections begin with the heading of one, unless there is none. -/
theorem sections_begin {sections : List (List Block)}
    (built : page.sections.mapM (fun (bucket, members) =>
      sectionBlocks settings links page bucket members) = .ok sections) :
    sections.flatten = [] ∨
    ∃ bucket more, sections.flatten = sectionHeading settings bucket :: more := by
  have heads : sections.map List.head? =
      page.sections.map fun section_ => some (sectionHeading settings section_.1) := by
    refine map_of_mapM built fun section_ blocks sectionBuilt => ?_
    obtain ⟨parts, _, same⟩ := bind_eq_ok_iff.mp sectionBuilt
    rw [← Except.ok.inj same]
    rfl
  cases sections with
  | nil => exact Or.inl rfl
  | cons blocks others =>
    have head : blocks.head? ∈ page.sections.map fun section_ =>
        some (sectionHeading settings section_.1) := heads ▸ List.mem_map_of_mem List.mem_cons_self
    obtain ⟨section_, _, same⟩ := List.mem_map.mp head
    obtain ⟨more, rfl⟩ := List.head?_eq_some_iff.mp same.symm
    exact Or.inr ⟨section_.1, more ++ others.flatten, rfl⟩

end

/-! ### The summary -/

/-- The heading of the summary. -/
def summaryHeading (settings : PageSettings) : Block :=
  .heading 2 (settings.label "summary") (some summaryAnchor)

/-- Whether blocks are the inside of a summary with the given rows in its tables: none of them has
an anchor or begins a section. -/
structure IsSummary (blocks : List Block) (rows : List (List (List Inline))) : Prop where
  plain : ∀ block ∈ blocks, block.anchor? = none ∧ block.isHeading 2 = false
  rows : blocks.flatMap Block.rows = rows

theorem IsSummary.append {first second : List Block} {before after : List (List (List Inline))}
    (left : IsSummary first before) (right : IsSummary second after) :
    IsSummary (first ++ second) (before ++ after) where
  plain := List.forall_mem_append.mpr ⟨left.plain, right.plain⟩
  rows := by rw [List.flatMap_append, left.rows, right.rows]

theorem isSummary_tables (settings : PageSettings) (page : ClassPage)
    (sections : List (Bucket × List Member)) :
    IsSummary (sections.flatMap fun (bucket, members) => summaryTable settings page bucket members)
      ((sections.flatMap Prod.snd).map (summaryRow page)) := by
  induction sections with
  | nil => exact ⟨List.forall_mem_nil _, rfl⟩
  | cons section_ rest inductionHypothesis =>
    rw [List.flatMap_cons, List.flatMap_cons, List.map_append]
    refine IsSummary.append ⟨?_, ?_⟩ inductionHypothesis
    · exact List.forall_mem_cons.mpr ⟨⟨rfl, rfl⟩, List.forall_mem_singleton.mpr ⟨rfl, rfl⟩⟩
    · exact List.append_nil _

theorem summary_eq (settings : PageSettings) (links : Links) (page : ClassPage) :
    ∃ inside, summary settings links page = summaryHeading settings :: inside ∧
      IsSummary inside (page.members.map (summaryRow page)) := by
  refine ⟨_, rfl, ?_⟩
  rw [← List.nil_append (page.members.map _)]
  refine IsSummary.append ?_ (isSummary_tables settings page page.sections)
  split
  · exact ⟨List.forall_mem_nil _, rfl⟩
  · exact ⟨List.forall_mem_cons.mpr ⟨⟨rfl, rfl⟩, List.forall_mem_singleton.mpr ⟨rfl, rfl⟩⟩, rfl⟩

/-! ### The page -/

/-- What stands on a class page before the summary. -/
def opening (settings : PageSettings) (links : Links) (page : ClassPage) : List Block :=
  .heading 1 page.name none :: badges settings page.symbol (settings.label "classBadge")
    ++ sourceLink settings page.symbol ++ description settings links page.symbol
    ++ labelList settings page.symbol

theorem anchor?_of_mem_opening (settings : PageSettings) (links : Links) (page : ClassPage) :
    ∀ block ∈ opening settings links page, block.anchor? = none := by
  have details := (((areDetails_badges settings page.symbol (settings.label "classBadge")).append
    (areDetails_sourceLink settings page.symbol)).append
    (areDetails_description settings links page.symbol)).append
    (areDetails_labelList settings page.symbol)
  exact List.forall_mem_cons.mpr
    ⟨rfl, fun block member => Block.anchor?_of_isDetail (details block member)⟩

/-- The parts of a class page: what opens it, the summary, and the sections. -/
theorem classDocument_eq {settings : PageSettings} {links : Links} {page : ClassPage}
    {document : PageDocument} (built : classDocument settings links page = .ok document) :
    ∃ inside sections, document.blocks =
        opening settings links page ++ summaryHeading settings :: (inside ++ sections.flatten) ∧
      IsSummary inside (page.members.map (summaryRow page)) ∧
      page.sections.mapM (fun (bucket, members) =>
        sectionBlocks settings links page bucket members) = .ok sections := by
  obtain ⟨sections, laidOut, same⟩ := bind_eq_ok_iff.mp built
  obtain ⟨inside, summarized, isSummary⟩ := summary_eq settings links page
  refine ⟨inside, sections, ?_, isSummary, laidOut⟩
  rw [← Except.ok.inj same]
  show opening settings links page ++ summary settings links page ++ sections.flatten = _
  rw [summarized, List.append_assoc, List.cons_append]

section

variable {settings : PageSettings} {links : Links} {page : ClassPage} {document : PageDocument}

/-- The anchors of the headings of a class page. -/
theorem anchors_classDocument (built : classDocument settings links page = .ok document) :
    (document.headings none).filterMap (fun heading => heading.2.2) =
      summaryAnchor :: shownAnchors page.sections := by
  obtain ⟨inside, sections, same, isSummary, laidOut⟩ := classDocument_eq built
  have front : (opening settings links page).filterMap Block.anchor? = [] :=
    List.filterMap_eq_nil_iff.mpr (anchor?_of_mem_opening settings links page)
  have middle : inside.filterMap Block.anchor? = [] :=
    List.filterMap_eq_nil_iff.mpr fun block member => (isSummary.plain block member).1
  have own : (summaryHeading settings).anchor? = some summaryAnchor := rfl
  rw [document.filterMap_headings, same, List.filterMap_append, front, List.nil_append,
    List.filterMap_cons_some own, List.filterMap_append, middle, List.nil_append,
    filterMap_sections (fun _ => Block.anchor?_of_isDetail) laidOut, anchor?_sectionHeadings]

/-- The summary of a class page ends where its sections begin. -/
theorem summary_classDocument (built : classDocument settings links page = .ok document) :
    document.summaryRows = page.members.map (summaryRow page) ∧
      document.memberHeadings =
        page.members.map fun member => (member.symbol.shownName, member.anchor) := by
  obtain ⟨inside, sections, same, isSummary, laidOut⟩ := classDocument_eq built
  have found : document.fromSummary = summaryHeading settings :: (inside ++ sections.flatten) := by
    rw [PageDocument.fromSummary, same, List.dropWhile_append_of_pos, List.dropWhile_cons_of_neg]
    · simp [summaryHeading, Block.anchor?]
    · intro block member
      rw [anchor?_of_mem_opening settings links page block member]
      rfl
  have within : ∀ block ∈ inside, (!block.isHeading 2) = true := fun block member => by
    rw [(isSummary.plain block member).2]
    rfl
  have stop : sections.flatten.takeWhile (fun block => !block.isHeading 2) = [] ∧
      sections.flatten.dropWhile (fun block => !block.isHeading 2) = sections.flatten := by
    rcases sections_begin laidOut with none | ⟨bucket, more, begun⟩
    · rw [none]
      exact ⟨rfl, rfl⟩
    · rw [begun]
      exact ⟨rfl, rfl⟩
  constructor
  · rw [PageDocument.summaryRows, found, List.tail_cons, List.takeWhile_append_of_pos within,
      stop.1,
      List.append_nil, isSummary.rows]
  · rw [PageDocument.memberHeadings, found, List.tail_cons, List.dropWhile_append_of_pos within,
      stop.2,
      filterMap_sections (fun _ => Block.memberHeading?_of_isDetail) laidOut,
      memberHeading?_sectionHeadings]

end

/-- A name that leads to an anchor, or stands for itself when there is none. -/
def leadsTo (name : Text) : Option Text → Inline
  | some anchor => .link name ('#' :: anchor)
  | none => .text name

/-- The headings of a class page have distinct anchors, and the rows of its summary lead to the
parts of its members, row by row: a row shows the name in the heading of the part and links to the
anchor of that heading, or shows plain text when the heading has none. -/
theorem summary_leads_to_members {test : Symbol → Bool} {includePrivate : Bool}
    {reference : Reference} {page : ClassPage} (inside : page ∈ plan test includePrivate reference)
    {settings : PageSettings} {links : Links} {document : PageDocument}
    (built : classDocument settings links page = .ok document) :
    ((document.headings none).filterMap fun heading => heading.2.2).Nodup ∧
      document.memberHeadings =
        page.members.map (fun member => (member.symbol.shownName, member.anchor)) ∧
      List.Forall₂ (fun row heading => row.head? = some [leadsTo heading.1 heading.2])
        document.summaryRows document.memberHeadings := by
  obtain ⟨rows, headings⟩ := summary_classDocument built
  refine ⟨?_, headings, ?_⟩
  · rw [anchors_classDocument built]
    exact nodup_anchors_of_mem_plan inside
  · rw [rows, headings, List.forall₂_map_left_iff, List.forall₂_map_right_iff, List.forall₂_same]
    intro member _
    cases anchored : member.anchor with
    | none => simp only [summaryRow, anchored, leadsTo, List.head?_cons]
    | some anchor => simp only [summaryRow, anchored, leadsTo, List.head?_cons]

/-- A class with members that ask for anchors in each other's way: one whose name leaves nothing for
an anchor, two whose names leave the same, one named like the anchor that is made up to tell these
two apart, and one named like the anchor of the summary. -/
def clashingReference : Reference :=
  bareReference [[bareSymbol "class" "門" "門", bareSymbol "property" "?" "門.?",
    bareSymbol "function" "open" "門.open", bareSymbol "function" "open!" "門.open!",
    bareSymbol "function" "open-2" "門.open-2", bareSymbol "function" "summary" "門.summary"]]

theorem summary_leads_to_members_clashing :
    ∃ page ∈ plan isSignal false clashingReference, ∃ document,
      classDocument {} (Links.ofPages [page] []) page = .ok document ∧
        document.memberHeadings = [("?".toList, none), ("open".toList, some "open".toList),
          ("open!".toList, some "open-2".toList), ("open-2".toList, some "open-2-2".toList),
          ("summary".toList, some "summary-2".toList)] ∧
        ((document.headings none).filterMap fun heading => heading.2.2).Nodup ∧
        List.Forall₂ (fun row heading => row.head? = some [leadsTo heading.1 heading.2])
          document.summaryRows document.memberHeadings := by
  let shown := shownSymbols false clashingReference
  let page := classPage isSignal shown (bareSymbol "class" "門" "門")
  have inside : page ∈ plan isSignal false clashingReference :=
    mem_plan.mpr ⟨_, List.mem_cons_self, rfl⟩
  have computed : page = insertedPage isSignal shown (bareSymbol "class" "門" "門") :=
    classPage_eq_insertedPage _ _ _
  have members : page.members.map (fun member => (member.symbol.shownName, member.anchor)) =
      [("?".toList, none), ("open".toList, some "open".toList),
        ("open!".toList, some "open-2".toList),
        ("open-2".toList, some "open-2-2".toList),
        ("summary".toList, some "summary-2".toList)] := by
    rw [computed]
    decide +kernel
  have untyped : ∀ member ∈ page.members, member.symbol.types.fields.isEmpty = true := by
    rw [computed]
    decide +kernel
  have shaped : ∀ member ∈ page.members, member.symbol.types.IsShaped := by
    intro member held
    have empty := List.isEmpty_iff.mp (untyped member held)
    exact ⟨by rw [empty]; exact List.nodup_nil, by rw [empty]; exact List.forall_mem_nil _⟩
  obtain ⟨document, built, _⟩ := classDocument_gives {} (Links.ofPages [page] []) shaped
  obtain ⟨distinct, headings, rows⟩ := summary_leads_to_members inside built
  exact ⟨page, inside, document, built, headings.trans members, distinct, rows⟩

end Page

end LuauReference
