/-
This file proves what the rendered pages do not depend on. Symbols that are not shown leave no
trace: they take no class name, no path, no anchor and no place in the overview from a symbol that
is shown. The order in which modules and symbols come leaves no trace either, as long as the classes
have distinct names and the members of one section have distinct names to sort by: then whatever is
chosen, sorted or numbered on the way to a page is determined by the symbols alone.

The one thing in a plan that does keep the order of the symbols is the list of the symbols attached
to a page, before they are sorted into sections. Nothing that is laid out looks at it, which is said
here by taking it away.
-/

import LuauReference.Page.Render
import LuauReference.Page.Template
import LuauReference.Proofs.Page.Plan

namespace LuauReference

/-! ### What pages show of links -/

namespace Links

/-- Whether two collections of links lead to the same addresses. -/
structure Agree (first second : Links) : Prop where
  classes : first.classHref? = second.classHref?
  members : first.memberHref? = second.memberHref?

theorem knows_eq (links : Links) : links.knows = fun name => (links.classHref? name).isSome := by
  funext name
  rw [knows, classHref?, Option.isSome_map]

theorem linkLine_of_span? (links : Links) {rest content tail : Text}
    (found : span? rest = some (content, tail)) :
    links.linkLine ('\x60' :: rest) = links.replaceSpan content ++ links.linkLine tail := by
  rw [linkLine, if_pos rfl]
  split
  · next other left same =>
    obtain ⟨rfl, rfl⟩ := Prod.mk.inj (Option.some.inj (same.symm.trans found))
    rfl
  · next missing => exact absurd (missing.symm.trans found) (Option.some_ne_none _).symm

theorem linkLine_of_span?_eq_none (links : Links) {rest : Text} (missing : span? rest = none) :
    links.linkLine ('\x60' :: rest) = '\x60' :: links.linkLine rest := by
  rw [linkLine, if_pos rfl]
  split
  · next same => exact absurd (same.symm.trans missing) (Option.some_ne_none _)
  · rfl

namespace Agree

variable {first second : Links}

theorem knows (agree : first.Agree second) : first.knows = second.knows := by
  rw [knows_eq, knows_eq, agree.classes]

theorem linkClass (agree : first.Agree second) : first.linkClass = second.linkClass := by
  funext name
  rw [Links.linkClass, Links.linkClass, agree.classes]

theorem resolve? (agree : first.Agree second) : first.resolve? = second.resolve? := by
  funext target
  simp only [Links.resolve?, agree.knows, agree.classes, agree.members]

theorem replaceSpan (agree : first.Agree second) : first.replaceSpan = second.replaceSpan := by
  funext content
  simp only [Links.replaceSpan, agree.resolve?]

theorem linkLine (agree : first.Agree second) (line : Text) :
    first.linkLine line = second.linkLine line := by
  fun_induction Links.linkLine first line with
  | case1 => rw [Links.linkLine]
  | case2 rest content tail found inductionHypothesis =>
    rw [second.linkLine_of_span? found, agree.replaceSpan, inductionHypothesis]
  | case3 rest missing inductionHypothesis =>
    rw [second.linkLine_of_span?_eq_none missing, inductionHypothesis]
  | case4 c rest other inductionHypothesis => rw [Links.linkLine, if_neg other, inductionHypothesis]

theorem linkLines (agree : first.Agree second) (inFence : Bool) (lines : List Text) :
    first.linkLines inFence lines = second.linkLines inFence lines := by
  induction lines generalizing inFence with
  | nil => rfl
  | cons line rest inductionHypothesis =>
    rw [Links.linkLines, Links.linkLines, agree.linkLine, inductionHypothesis, inductionHypothesis]

theorem linkText (agree : first.Agree second) : first.linkText = second.linkText := by
  funext description
  rw [Links.linkText, Links.linkText, agree.linkLines]

end Agree

end Links

namespace Page

section

variable {first second : Links}

theorem namedRow_congr (agree : first.Agree second) : namedRow first = namedRow second := by
  funext item
  simp only [namedRow, typeCell, agree.knows, agree.linkClass]

theorem typedRow_congr (agree : first.Agree second) : typedRow first = typedRow second := by
  funext item
  simp only [typedRow, typeCell, agree.knows, agree.linkClass]

theorem memberPart_congr (settings : PageSettings) (agree : first.Agree second) :
    memberPart settings first = memberPart settings second := by
  funext page member
  simp only [memberPart, detailTables, namedTable, typedTable, description, namedRow_congr agree,
    typedRow_congr agree, agree.linkText]

theorem classDocument_congr (settings : PageSettings) (agree : first.Agree second) :
    classDocument settings first = classDocument settings second := by
  funext page
  simp only [classDocument, sectionBlocks, memberPart_congr settings agree, description, summary,
    agree.linkClass, agree.linkText]

theorem groupBlocks_congr (settings : PageSettings) (agree : first.Agree second) :
    groupBlocks settings first = groupBlocks settings second := by
  funext places group
  simp only [groupBlocks, subgroupBlocks, agree.classes]

theorem overviewDocument_congr (settings : PageSettings) (agree : first.Agree second) :
    overviewDocument settings first = overviewDocument settings second := by
  funext pages
  simp only [overviewDocument, groupBlocks_congr settings agree]

end

/-! ### Attached symbols are not shown -/

/-- A page without the list of its symbols in the order in which they came. -/
def ClassPage.withoutAttached (page : ClassPage) : ClassPage :=
  { page with attached := [] }

theorem ClassPage.name_withoutAttached (page : ClassPage) :
    page.withoutAttached.name = page.name := rfl

theorem ClassPage.map_sortOn_name (pages : List ClassPage) :
    (Text.sortOn ClassPage.name pages).map ClassPage.withoutAttached =
      Text.sortOn ClassPage.name (pages.map ClassPage.withoutAttached) :=
  Text.map_sortOn ClassPage.withoutAttached ClassPage.name_withoutAttached pages

/-- A place in the overview without that list. -/
def Placed.withoutAttached (place : Placed) : Placed :=
  { place with page := place.page.withoutAttached }

theorem agree_withoutAttached (pages : List ClassPage) (route : Text) :
    (Links.ofPages (pages.map ClassPage.withoutAttached) route).Agree
      (Links.ofPages pages route) := by
  have found (name : Text) :
      (Links.ofPages (pages.map ClassPage.withoutAttached) route).page? name =
        ((Links.ofPages pages route).page? name).map ClassPage.withoutAttached :=
    List.find?_map
  constructor
  · funext name
    rw [Links.classHref?, found, Option.map_map]
    rfl
  · funext name member
    rw [Links.memberHref?, found, Option.map_map]
    rfl

theorem classDocument_withoutAttached (settings : PageSettings) (links : Links) :
    classDocument settings links ∘ ClassPage.withoutAttached = classDocument settings links :=
  rfl

theorem placements_withoutAttached (settings : PageSettings) (pages : List ClassPage) :
    placements settings (pages.map ClassPage.withoutAttached) =
      (placements settings pages).map Placed.withoutAttached := by
  rw [placements, placements, List.flatMap_map, List.map_flatMap]
  refine congrArg (List.flatMap · pages) (funext fun page => ?_)
  rw [List.map_map]
  rfl

theorem subgroupsOf_withoutAttached (places : List Placed) (group : Text) :
    subgroupsOf (places.map Placed.withoutAttached) group =
      (subgroupsOf places group).map fun (subgroup, pages) =>
        (subgroup, pages.map ClassPage.withoutAttached) := by
  have inGroup : (places.map Placed.withoutAttached).filter (fun place => place.group = group) =
      (places.filter fun place => place.group = group).map Placed.withoutAttached :=
    List.filter_map
  rw [subgroupsOf, subgroupsOf, inGroup]
  dsimp only
  rw [List.map_map, List.map_map]
  refine congrArg (List.map · _) (funext fun subgroup => Prod.ext rfl ?_)
  dsimp only [Function.comp_apply]
  rw [ClassPage.map_sortOn_name, List.filter_map, List.map_map, List.map_map]
  rfl

theorem subgroupBlocks_withoutAttached (links : Links) (subgroup : Text) (pages : List ClassPage) :
    subgroupBlocks links subgroup (pages.map ClassPage.withoutAttached) =
      subgroupBlocks links subgroup pages := by
  rw [subgroupBlocks, List.map_map]
  rfl

theorem groupBlocks_withoutAttached (settings : PageSettings) (links : Links)
    (places : List Placed) :
    groupBlocks settings links (places.map Placed.withoutAttached) =
      groupBlocks settings links places := by
  funext group
  simp only [groupBlocks, subgroupsOf_withoutAttached, List.flatMap_map, List.length_flatMap,
    subgroupBlocks_withoutAttached, List.length_map]

theorem overviewDocument_withoutAttached (settings : PageSettings) (links : Links)
    (pages : List ClassPage) :
    overviewDocument settings links (pages.map ClassPage.withoutAttached) =
      overviewDocument settings links pages := by
  have groups : groupsOf settings.categoryOrder
      ((placements settings pages).map Placed.withoutAttached) =
        groupsOf settings.categoryOrder (placements settings pages) := by
    rw [groupsOf, List.map_map]
    rfl
  simp only [overviewDocument, placements_withoutAttached, groups, groupBlocks_withoutAttached,
    List.isEmpty_map]

/-- The pages that are laid out for planned pages: a page for each, then the overview. -/
def laidOut (settings : PageSettings) (pages : List ClassPage) :
    Except Failure (List PageDocument) := do
  let links := Links.ofPages pages settings.route
  let classes ← pages.mapM (classDocument settings links)
  pure (classes ++ [overviewDocument settings links pages])

theorem laidOut_withoutAttached (settings : PageSettings) (pages : List ClassPage) :
    laidOut settings (pages.map ClassPage.withoutAttached) = laidOut settings pages := by
  have agree := agree_withoutAttached pages settings.route
  rw [laidOut, laidOut, classDocument_congr settings agree, overviewDocument_congr settings agree,
    overviewDocument_withoutAttached, List.mapM_map, classDocument_withoutAttached]

/-- Two references are rendered the same when their plans differ only in the order of what is
attached to a page. -/
theorem render_of_planned {settings : PageSettings} {first second : Reference}
    (same : (planned settings first).map ClassPage.withoutAttached =
      (planned settings second).map ClassPage.withoutAttached) (writer : PageWriter) :
    render settings writer first = render settings writer second := by
  show laidOut settings (planned settings first) >>= writeAll writer =
    laidOut settings (planned settings second) >>= writeAll writer
  rw [← laidOut_withoutAttached, same, laidOut_withoutAttached]

/-! ### Hidden symbols -/

/-- Whether a symbol is left out of all pages: it is ignored, or private without being asked for. -/
def IsHidden (includePrivate : Bool) (symbol : Symbol) : Prop :=
  symbol.visibility = "ignored" ∨ symbol.visibility = "private" ∧ includePrivate = false

theorem isVisible_eq_false_iff {includePrivate : Bool} {symbol : Symbol} :
    isVisible includePrivate symbol = false ↔ IsHidden includePrivate symbol := by
  simp only [isVisible, IsHidden, Bool.and_eq_false_iff, Bool.or_eq_false_iff, bne_eq_false_iff_eq]

/-- Whether two lists of symbols are the same but for hidden symbols, anywhere in either of them. -/
inductive SameButHidden (includePrivate : Bool) : List Symbol → List Symbol → Prop
  | nil : SameButHidden includePrivate [] []
  | both (symbol : Symbol) {first second : List Symbol} :
    SameButHidden includePrivate first second →
    SameButHidden includePrivate (symbol :: first) (symbol :: second)
  | onlyFirst {symbol : Symbol} {first second : List Symbol} : IsHidden includePrivate symbol →
    SameButHidden includePrivate first second →
    SameButHidden includePrivate (symbol :: first) second
  | onlySecond {symbol : Symbol} {first second : List Symbol} : IsHidden includePrivate symbol →
    SameButHidden includePrivate first second →
    SameButHidden includePrivate first (symbol :: second)

theorem SameButHidden.filter_eq {includePrivate : Bool} {first second : List Symbol}
    (same : SameButHidden includePrivate first second) :
    first.filter (isVisible includePrivate) = second.filter (isVisible includePrivate) := by
  induction same with
  | nil => rfl
  | both symbol _ inductionHypothesis =>
    rw [List.filter_cons, List.filter_cons, inductionHypothesis]
  | onlyFirst hidden _ inductionHypothesis =>
    rw [List.filter_cons, isVisible_eq_false_iff.mpr hidden, if_neg Bool.false_ne_true,
      inductionHypothesis]
  | onlySecond hidden _ inductionHypothesis =>
    rw [List.filter_cons, isVisible_eq_false_iff.mpr hidden, if_neg Bool.false_ne_true,
      inductionHypothesis]

theorem sameButHidden_filter (includePrivate : Bool) (symbols : List Symbol) :
    SameButHidden includePrivate symbols (symbols.filter (isVisible includePrivate)) := by
  induction symbols with
  | nil => exact .nil
  | cons symbol rest inductionHypothesis =>
    cases shown : isVisible includePrivate symbol with
    | true =>
      rw [List.filter_cons_of_pos shown]
      exact .both symbol inductionHypothesis
    | false =>
      rw [List.filter_cons_of_neg (by rw [shown]; exact Bool.false_ne_true)]
      exact .onlyFirst (isVisible_eq_false_iff.mp shown) inductionHypothesis

/-- A reference without the symbols that are not visible. -/
def withoutHidden (includePrivate : Bool) (reference : Reference) : Reference :=
  { reference with
    modules := reference.modules.map fun module_ =>
      { module_ with symbols := module_.symbols.filter (isVisible includePrivate) } }

theorem symbols_withoutHidden (includePrivate : Bool) (reference : Reference) :
    (withoutHidden includePrivate reference).symbols =
      reference.symbols.filter (isVisible includePrivate) := by
  rw [Reference.symbols, withoutHidden, List.flatMap_map, Reference.symbols, List.filter_flatMap]

theorem planned_of_sameButHidden {settings : PageSettings} {first second : Reference}
    (same : SameButHidden settings.includePrivate first.symbols second.symbols) :
    planned settings first = planned settings second := by
  rw [planned, planned, plan, plan, same.filter_eq]

/-- Symbols that are not visible have no influence on the rendered pages: without them the pages are
the same, and so are those of any two references that differ only in such symbols. -/
theorem render_withoutHidden (settings : PageSettings) (writer : PageWriter)
    (reference : Reference) :
    render settings writer (withoutHidden settings.includePrivate reference) =
        render settings writer reference ∧
      ∀ other : Reference,
        SameButHidden settings.includePrivate reference.symbols other.symbols →
          render settings writer other = render settings writer reference := by
  have whole (other : Reference)
      (same : SameButHidden settings.includePrivate reference.symbols other.symbols) :
      render settings writer other = render settings writer reference :=
    render_of_planned (congrArg _ (planned_of_sameButHidden same).symm) writer
  refine ⟨whole _ ?_, whole⟩
  rw [symbols_withoutHidden]
  exact sameButHidden_filter settings.includePrivate reference.symbols

/-- A class with a member, among symbols that are hidden: an ignored class that would take the name
of the class, a private method that would take the anchor of the member, and a private class. -/
def crowdedReference : Reference :=
  bareReference [[{ bareSymbol "class" "Door" "Door" with visibility := "ignored" },
      bareSymbol "class" "Door" "Door"],
    [{ bareSymbol "method" "open" "Door:open" with visibility := "private" },
      bareSymbol "function" "open" "Door.open",
      { bareSymbol "class" "Cellar" "Cellar" with visibility := "private" }]]

theorem render_withoutHidden_crowded :
    crowdedReference.symbols.map (isVisible false) = [false, true, false, true, false] ∧
      ∃ other : Reference, other.symbols.map Symbol.qualified =
        ["Door".toList, "Door.open".toList] ∧
        SameButHidden false crowdedReference.symbols other.symbols ∧
        render {} Template.standard other = render {} Template.standard crowdedReference := by
  let other :=
    bareReference [[bareSymbol "class" "Door" "Door", bareSymbol "function" "open" "Door.open"]]
  have ignored (symbol : Symbol) : IsHidden false { symbol with visibility := "ignored" } :=
    Or.inl rfl
  have secret (symbol : Symbol) : IsHidden false { symbol with visibility := "private" } :=
    Or.inr ⟨rfl, rfl⟩
  have same : SameButHidden false crowdedReference.symbols other.symbols :=
    .onlyFirst (ignored _) (.both _ (.onlyFirst (secret _) (.both _ (.onlyFirst (secret _) .nil))))
  exact ⟨by decide +kernel, other, by decide +kernel, same,
    (render_withoutHidden {} Template.standard crowdedReference).2 other same⟩

/-! ### The order of symbols -/

/-- Whether shown symbols can be told apart by what they are sorted by: classes by their names, and
the members of one owner in one section by their qualified names. -/
structure AreDistinct (test : Symbol → Bool) (visible : List Symbol) : Prop where
  classes : visible.Pairwise fun (first second : Symbol) =>
    first.kind = "class" → second.kind = "class" → first.name ≠ second.name
  members : visible.Pairwise fun (first second : Symbol) =>
    first.kind ≠ "class" → second.kind ≠ "class" →
      (ownerOf first).isSome → ownerOf first = ownerOf second →
      (bucketOf test first).isSome → bucketOf test first = bucketOf test second →
      first.fullName ≠ second.fullName

namespace AreDistinct

variable {test : Symbol → Bool} {visible : List Symbol}

theorem nodup_classes (distinct : AreDistinct test visible) :
    ((visible.filter asksForPage).map Symbol.name).Nodup := by
  refine List.pairwise_map.mpr ((distinct.classes.filter asksForPage).imp_of_mem ?_)
  intro first second left right differ
  exact differ (kind_of_asksForPage (List.mem_filter.mp left).2)
    (kind_of_asksForPage (List.mem_filter.mp right).2)

theorem nodup_sectionSymbols (distinct : AreDistinct test visible) (name : Text) (bucket : Bucket) :
    (((attachedTo visible name).filter fun symbol => bucketOf test symbol = some bucket).map
      Symbol.fullName).Nodup := by
  refine List.pairwise_map.mpr (((distinct.members.filter _).filter _).imp_of_mem ?_)
  intro first second left right differ
  simp only [List.mem_filter, Bool.and_eq_true, bne_iff_ne, decide_eq_true_eq] at left right
  obtain ⟨⟨_, plainFirst, ownerFirst⟩, bucketFirst⟩ := left
  obtain ⟨⟨_, plainSecond, ownerSecond⟩, bucketSecond⟩ := right
  exact differ plainFirst plainSecond (Option.isSome_of_eq_some ownerFirst)
    (ownerFirst.trans ownerSecond.symm) (Option.isSome_of_eq_some bucketFirst)
    (bucketFirst.trans bucketSecond.symm)

/-- The sections of a page do not depend on the order of the symbols. -/
theorem sectionsOf_eq (distinct : AreDistinct test visible) {other : List Symbol}
    (same : visible.Perm other) (name : Text) :
    sectionsOf test (attachedTo visible name) = sectionsOf test (attachedTo other name) := by
  have sorted : sectionSymbols test (attachedTo visible name) =
      sectionSymbols test (attachedTo other name) := by
    funext bucket
    exact Text.sortOn_eq_of_perm ((same.filter _).filter _)
      (distinct.nodup_sectionSymbols name bucket)
  rw [sectionsOf, sectionsOf, sectionsFrom_eq, sectionsFrom_eq, sorted]

theorem classPage_eq (distinct : AreDistinct test visible) {other : List Symbol}
    (same : visible.Perm other) (symbol : Symbol) :
    (classPage test visible symbol).withoutAttached =
      (classPage test other symbol).withoutAttached := by
  simp only [classPage, ClassPage.withoutAttached, distinct.sectionsOf_eq same]

/-- The classes that get a page do not depend on the order of the symbols, up to their own order. -/
theorem classSymbols_perm (distinct : AreDistinct test visible) {other : List Symbol}
    (same : visible.Perm other) : (classSymbols visible).Perm (classSymbols other) := by
  have classes := same.filter asksForPage
  have others := (classes.map Symbol.name).nodup_iff.mp distinct.nodup_classes
  rw [classSymbols_of_nodup distinct.nodup_classes, classSymbols_of_nodup others]
  exact classes

end AreDistinct

/-- The plans of two references with the same symbols differ only in the order of what is
attached. -/
theorem planned_of_perm {settings : PageSettings} {first second : Reference}
    (same : first.symbols.Perm second.symbols)
    (distinct : AreDistinct (eventTest settings) (shownSymbols settings.includePrivate first)) :
    (planned settings first).map ClassPage.withoutAttached =
      (planned settings second).map ClassPage.withoutAttached := by
  have shown := same.filter (isVisible settings.includePrivate)
  have pages := funext (distinct.classPage_eq shown)
  rw [planned, planned, plan_eq, plan_eq, ClassPage.map_sortOn_name, ClassPage.map_sortOn_name,
    List.map_map, List.map_map, Function.comp_def, Function.comp_def, pages]
  refine Text.sortOn_eq_of_perm ((distinct.classSymbols_perm shown).map _) ?_
  rw [List.map_map]
  exact nodup_names_classSymbols _

/-- The rendered pages do not depend on how symbols are ordered and distributed over modules. -/
theorem render_of_perm {settings : PageSettings} {first second : Reference}
    (same : first.symbols.Perm second.symbols)
    (distinct : AreDistinct (eventTest settings) (shownSymbols settings.includePrivate first))
    (writer : PageWriter) : render settings writer first = render settings writer second :=
  render_of_planned (planned_of_perm same distinct) writer

/-- Two classes and two members with one name, which ask for the same anchor. -/
def orderedReference : Reference :=
  bareReference [[bareSymbol "class" "Door" "Door", bareSymbol "class" "Able" "Able"],
    [bareSymbol "function" "open" "Door.open", bareSymbol "method" "open" "Door:open",
      bareSymbol "function" "close" "Door.close"]]

theorem render_of_perm_reversed :
    ∃ other : Reference, orderedReference.symbols.Perm other.symbols ∧
      other.symbols.map Symbol.qualified =
        ["Door.close".toList, "Door:open".toList, "Door.open".toList, "Able".toList,
          "Door".toList] ∧
      AreDistinct (eventTest {}) (shownSymbols false orderedReference) ∧
      render {} Template.standard orderedReference = render {} Template.standard other := by
  let other := bareReference [orderedReference.symbols.reverse]
  have same : orderedReference.symbols.Perm other.symbols := by
    have listed : other.symbols = orderedReference.symbols.reverse := List.append_nil _
    rw [listed]
    exact (List.reverse_perm _).symm
  have distinct : AreDistinct (eventTest {}) (shownSymbols false orderedReference) :=
    ⟨by decide +kernel, by decide +kernel⟩
  exact ⟨other, same, by decide +kernel, distinct,
    render_of_perm same distinct Template.standard⟩

end Page

end LuauReference
