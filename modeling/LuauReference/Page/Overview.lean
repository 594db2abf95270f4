/-
This file lays out the overview: the classes of a reference in groups and subgroups by category. The
part of a category before its first slash is the group and the rest is the subgroup. Groups follow
the chosen order and after that the alphabet; a class stands once under each of its categories.
-/

import LuauReference.Page.Link
import LuauReference.Page.Settings

namespace LuauReference

namespace Page

/-- The path of the overview. -/
def indexPath : Text := "index.md"

/-- A class in a group and subgroup. -/
structure Placed where
  group : Text
  subgroup : Text
  page : ClassPage

/-- The group and the subgroup of a category. -/
def groupOf (category : Text) : Text × Text :=
  match ((Text.pieces '/' category).map Text.trim).filter (!·.isEmpty) with
  | [] => (category, [])
  | group :: rest => (group, Text.join "/" rest)

/-- The categories under which a class is listed. -/
def listedUnder (settings : PageSettings) (page : ClassPage) : List Text :=
  match page.categories.filter (!Text.isBlankText ·) with
  | [] => [if settings.defaultCategory.isEmpty then "Classes" else settings.defaultCategory]
  | categories => categories

/-- The places of all classes, class by class. -/
def placements (settings : PageSettings) (pages : List ClassPage) : List Placed :=
  pages.flatMap fun page => (listedUnder settings page).map fun category =>
    let (group, subgroup) := groupOf category
    ⟨group, subgroup, page⟩

/-- Whether one group comes before another: chosen groups in their order, then all others by
name. -/
def groupInOrder (order : List Text) (a b : Text) : Bool :=
  match order.idxOf? a, order.idxOf? b with
  | some i, some j => i ≤ j
  | some _, none => true
  | none, some _ => false
  | none, none => Text.inOrder a b

/-- The groups of the given places, in order. -/
def groupsOf (order : List Text) (places : List Placed) : List Text :=
  ((places.map Placed.group).eraseDups).mergeSort (groupInOrder order)

/-- The subgroups of a group with their classes, both in order. -/
def subgroupsOf (places : List Placed) (group : Text) : List (Text × List ClassPage) :=
  let inGroup := places.filter fun place => place.group = group
  (Text.sort (inGroup.map Placed.subgroup).eraseDups).map fun subgroup =>
    (subgroup, Text.sortOn ClassPage.name
      ((inGroup.filter fun place => place.subgroup = subgroup).map Placed.page))

/-- The list of the classes of a subgroup under its heading. -/
def subgroupBlocks (links : Links) (subgroup : Text) (pages : List ClassPage) : List Block :=
  (if subgroup.isEmpty then [] else [.heading 3 subgroup none])
    ++ [.bullets (pages.map fun page =>
      [.link page.name ((links.classHref? page.name).getD page.link)])]

/-- A group: its heading, the number of its classes and its subgroups. -/
def groupBlocks (settings : PageSettings) (links : Links) (places : List Placed) (group : Text) :
    List Block :=
  let subgroups := subgroupsOf places group
  let count := (subgroups.flatMap fun (_, pages) => pages).length
  .heading 2 group (Anchor.ofText? group)
    :: .paragraph [.text (Text.ofNat count ++ ' ' :: settings.label "classes")]
    :: subgroups.flatMap fun (subgroup, pages) => subgroupBlocks links subgroup pages

/-- The overview of all class pages. -/
def overviewDocument (settings : PageSettings) (links : Links) (pages : List ClassPage) :
    PageDocument :=
  let title : Text := if settings.overviewTitle.isEmpty then "Overview" else settings.overviewTitle
  let places := placements settings pages
  let body :=
    if pages.isEmpty then
      [.paragraph [.text (settings.label "noClasses")]]
    else
      (groupsOf settings.categoryOrder places).flatMap (groupBlocks settings links places)
  { path := indexPath
    title := title
    frontMatter := [("title", .str title), ("sidebar_label", .str title),
      ("sidebar_position", .int 1)]
    blocks := .heading 1 title none :: body }

end Page

end LuauReference
