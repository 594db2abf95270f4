/-
This file proves what a plan holds. Class pages have distinct names, the sections of a page depend
on the symbols of the page only through the sorted symbols of each section, and all the anchors of a
page are distinct: those of the sections are set aside before any member is given one. Sorting hides
the plan of a concrete reference from computation, so the plan is also given in a form that sorts by
insertion.
-/

import LuauReference.Page.Plan
import LuauReference.Proofs.Page.Anchor
import LuauReference.Proofs.Text.Order

namespace LuauReference

namespace Page

/-! ### Sections -/

/-- The given sections with the given symbols; anchors are handed out section by section. -/
def sectionsWith (items : Bucket → List Symbol) :
    Anchor.Used → List Bucket → List (Bucket × List Member)
  | _, [] => []
  | used, bucket :: rest =>
    let given := used.allocateAll (items bucket)
    let members := ((items bucket).zip given.1).map fun (symbol, anchor) => ⟨symbol, bucket, anchor⟩
    let more := sectionsWith items given.2 rest
    if members.isEmpty then more else (bucket, members) :: more

theorem sectionsFrom_eq (test : Symbol → Bool) (symbols : List Symbol) (used : Anchor.Used)
    (buckets : List Bucket) :
    sectionsFrom test symbols used buckets =
      sectionsWith (sectionSymbols test symbols) used buckets := by
  induction buckets generalizing used with
  | nil => rfl
  | cons bucket rest inductionHypothesis =>
    rw [sectionsFrom, sectionsWith]
    dsimp only
    rw [inductionHypothesis]

/-! ### Anchors -/

/-- The anchors of sections and of their members, in the order in which a page shows them. -/
def shownAnchors (sections : List (Bucket × List Member)) : List Text :=
  sections.flatMap fun (bucket, members) => bucket.anchor :: members.filterMap Member.anchor

theorem filterMap_anchor_zip (bucket : Bucket) {symbols : List Symbol}
    {anchors : List (Option Text)}
    (long : anchors.length = symbols.length) :
    ((symbols.zip anchors).map fun (symbol, anchor) =>
      (⟨symbol, bucket, anchor⟩ : Member)).filterMap
      Member.anchor = anchors.flatMap Option.toList := by
  have second : (symbols.zip anchors).map Prod.snd = anchors := List.map_snd_zip long.le
  rw [List.filterMap_map, ← List.filterMap_eq_flatMap_toList]
  conv_rhs => rw [← second, List.filterMap_map]
  rfl

/-- The anchors of sections are distinct when those of the sections themselves are and have been set
aside; all others were free before. -/
theorem shownAnchors_sectionsWith (items : Bucket → List Symbol) (used : Anchor.Used)
    (buckets : List Bucket) (distinct : (buckets.map Bucket.anchor).Nodup)
    (reserved : ∀ bucket ∈ buckets, bucket.anchor ∈ used.anchors) :
    (shownAnchors (sectionsWith items used buckets)).Nodup ∧
      ∀ anchor ∈ shownAnchors (sectionsWith items used buckets),
        anchor ∈ buckets.map Bucket.anchor ∨ anchor ∉ used.anchors := by
  induction buckets generalizing used with
  | nil => exact ⟨List.nodup_nil, List.forall_mem_nil _⟩
  | cons bucket rest inductionHypothesis =>
    obtain ⟨own, others⟩ := List.forall_mem_cons.mp reserved
    rw [List.map_cons, List.nodup_cons] at distinct
    have hands := used.allocateAll_hands (items bucket)
    have kept : ∀ {anchor}, anchor ∈ used.anchors →
        anchor ∈ (used.allocateAll (items bucket)).2.anchors := fun present =>
      (hands.after _).mpr (Or.inr present)
    obtain ⟨later, origin⟩ := inductionHypothesis _ distinct.2 fun other member =>
      kept (others other member)
    have free : ∀ anchor ∈ shownAnchors
        (sectionsWith items (used.allocateAll (items bucket)).2 rest),
        anchor ∈ (bucket :: rest).map Bucket.anchor ∨ anchor ∉ used.anchors := by
      intro anchor member
      rcases origin anchor member with section_ | unused
      · exact Or.inl (List.mem_cons_of_mem _ section_)
      · exact Or.inr fun present => unused (kept present)
    rw [sectionsWith]
    dsimp only
    split
    · exact ⟨later, free⟩
    · rw [shownAnchors, List.flatMap_cons, ← shownAnchors, List.cons_append,
        filterMap_anchor_zip bucket (used.length_allocateAll (items bucket))]
      refine ⟨List.nodup_cons.mpr ⟨?_, List.nodup_append.mpr ⟨hands.distinct, later, ?_⟩⟩, ?_⟩
      · intro member
        rcases List.mem_append.mp member with handed | shown
        · exact hands.free _ handed own
        · rcases origin _ shown with section_ | unused
          · exact distinct.1 section_
          · exact unused (kept own)
      · rintro anchor handed other shown rfl
        rcases origin anchor shown with section_ | unused
        · obtain ⟨other, member, rfl⟩ := List.mem_map.mp section_
          exact hands.free _ handed (others other member)
        · exact unused ((hands.after anchor).mpr (Or.inl handed))
      · intro anchor member
        rcases List.mem_cons.mp member with rfl | member
        · exact Or.inl List.mem_cons_self
        · rcases List.mem_append.mp member with handed | shown
          · exact Or.inr (hands.free anchor handed)
          · exact free anchor shown

/-- No two anchors of a page are the same, that of the summary included. -/
theorem nodup_anchors_sectionsOf (test : Symbol → Bool) (symbols : List Symbol) :
    (summaryAnchor :: shownAnchors (sectionsOf test symbols)).Nodup := by
  rw [sectionsOf, sectionsFrom_eq]
  obtain ⟨distinct, origin⟩ := shownAnchors_sectionsWith (sectionSymbols test symbols)
    ⟨reservedAnchors⟩ Bucket.all (by decide) (by decide)
  refine List.nodup_cons.mpr ⟨fun shown => ?_, distinct⟩
  rcases origin summaryAnchor shown with section_ | unused
  · exact absurd section_ (by decide)
  · exact unused List.mem_cons_self

/-! ### Classes -/

/-- Whether a symbol asks for a page of its own. -/
def asksForPage (symbol : Symbol) : Bool :=
  symbol.kind = "class" && !symbol.name.isEmpty

theorem kind_of_asksForPage {symbol : Symbol} (asks : asksForPage symbol = true) :
    symbol.kind = "class" := by
  rw [asksForPage, Bool.and_eq_true] at asks
  exact of_decide_eq_true asks.1

theorem addClass_eq (classes : List Symbol) (symbol : Symbol) :
    addClass classes symbol =
      if asksForPage symbol = true ∧ symbol.name ∉ classes.map Symbol.name then classes ++ [symbol]
      else classes := by
  have taken : (classes.any fun other => other.name = symbol.name) = true ↔
      symbol.name ∈ classes.map Symbol.name := by
    simp only [List.any_eq_true, decide_eq_true_eq, List.mem_map]
  rw [addClass]
  refine if_congr ?_ rfl rfl
  rw [Bool.and_eq_true, Bool.not_eq_true', ← Bool.not_eq_true, taken, asksForPage]

theorem nodup_names_addClass {classes : List Symbol} (distinct : (classes.map Symbol.name).Nodup)
    (symbol : Symbol) : ((addClass classes symbol).map Symbol.name).Nodup := by
  rw [addClass_eq]
  split
  · next added =>
    rw [List.map_append, List.map_singleton]
    exact distinct.append (List.nodup_singleton _) (List.disjoint_singleton.mpr added.2)
  · exact distinct

theorem nodup_names_classSymbols (visible : List Symbol) :
    ((classSymbols visible).map Symbol.name).Nodup := by
  have start : (([] : List Symbol).map Symbol.name).Nodup := List.nodup_nil
  exact List.foldlRecOn (motive := fun classes => (classes.map Symbol.name).Nodup) visible addClass
    start fun classes distinct symbol _ => nodup_names_addClass distinct symbol

theorem mem_filter_of_mem_classSymbols {visible : List Symbol} :
    ∀ symbol ∈ classSymbols visible, symbol ∈ visible.filter asksForPage := by
  have start : ∀ symbol ∈ ([] : List Symbol), symbol ∈ visible.filter asksForPage :=
    List.forall_mem_nil _
  refine List.foldlRecOn (motive := fun classes => ∀ symbol ∈ classes,
    symbol ∈ visible.filter asksForPage) visible addClass start fun classes held symbol inside => ?_
  rw [addClass_eq]
  split
  · next added =>
    exact List.forall_mem_append.mpr
      ⟨held, List.forall_mem_singleton.mpr (List.mem_filter.mpr ⟨inside, added.1⟩)⟩
  · exact held

theorem foldl_addClass {symbols classes : List Symbol}
    (distinct : ((classes ++ symbols.filter asksForPage).map Symbol.name).Nodup) :
    symbols.foldl addClass classes = classes ++ symbols.filter asksForPage := by
  induction symbols generalizing classes with
  | nil => exact (List.append_nil classes).symm
  | cons symbol rest inductionHypothesis =>
    rw [List.foldl_cons, addClass_eq]
    by_cases asks : asksForPage symbol = true
    · rw [List.filter_cons_of_pos asks] at distinct ⊢
      have fresh : symbol.name ∉ classes.map Symbol.name := by
        rw [List.map_append, List.map_cons, List.nodup_middle, List.nodup_cons] at distinct
        exact fun taken => distinct.1 (List.mem_append_left _ taken)
      rw [List.append_cons] at distinct
      rw [if_pos ⟨asks, fresh⟩, inductionHypothesis distinct, ← List.append_cons]
    · rw [List.filter_cons_of_neg asks] at distinct ⊢
      rw [if_neg fun added => asks added.1, inductionHypothesis distinct]

/-- All classes get a page when their names are distinct. -/
theorem classSymbols_of_nodup {visible : List Symbol}
    (distinct : ((visible.filter asksForPage).map Symbol.name).Nodup) :
    classSymbols visible = visible.filter asksForPage := by
  rw [classSymbols, foldl_addClass (by simpa using distinct), List.nil_append]

/-! ### Pages -/

section

variable {test : Symbol → Bool} {includePrivate : Bool} {reference : Reference}

/-- The symbols of a reference that are shown. -/
abbrev shownSymbols (includePrivate : Bool) (reference : Reference) : List Symbol :=
  reference.symbols.filter (isVisible includePrivate)

theorem plan_eq : plan test includePrivate reference =
    Text.sortOn ClassPage.name ((classSymbols (shownSymbols includePrivate reference)).map
      (classPage test (shownSymbols includePrivate reference))) := rfl

theorem mem_plan {page : ClassPage} : page ∈ plan test includePrivate reference ↔
    ∃ symbol ∈ classSymbols (shownSymbols includePrivate reference),
      classPage test (shownSymbols includePrivate reference) symbol = page :=
  (Text.sortOn_perm _ _).mem_iff.trans List.mem_map

theorem nodup_names_plan : ((plan test includePrivate reference).map ClassPage.name).Nodup := by
  refine Text.nodup_keys_sortOn ?_
  rw [List.map_map]
  exact nodup_names_classSymbols _

theorem nodup_anchors_of_mem_plan {page : ClassPage}
    (inside : page ∈ plan test includePrivate reference) :
    (summaryAnchor :: shownAnchors page.sections).Nodup := by
  obtain ⟨symbol, _, rfl⟩ := mem_plan.mp inside
  exact nodup_anchors_sectionsOf test _

end

/-! ### Computing a plan -/

/-- The symbols of a section, sorted by insertion. -/
def insertedSymbols (test : Symbol → Bool) (symbols : List Symbol) (bucket : Bucket) :
    List Symbol :=
  (symbols.filter fun symbol => bucketOf test symbol = some bucket).insertionSort
    (Text.KeysInOrder Symbol.fullName)

/-- The page of a class, sorted by insertion. -/
def insertedPage (test : Symbol → Bool) (visible : List Symbol) (symbol : Symbol) : ClassPage :=
  { classPage test visible symbol with
    sections := sectionsWith (insertedSymbols test (attachedTo visible symbol.name))
      ⟨reservedAnchors⟩ Bucket.all }

/-- The class pages of a reference, sorted by insertion. -/
def insertedPlan (test : Symbol → Bool) (includePrivate : Bool) (reference : Reference) :
    List ClassPage :=
  ((classSymbols (shownSymbols includePrivate reference)).map
    (insertedPage test (shownSymbols includePrivate reference))).insertionSort
      (Text.KeysInOrder ClassPage.name)

theorem classPage_eq_insertedPage (test : Symbol → Bool) (visible : List Symbol) (symbol : Symbol) :
    classPage test visible symbol = insertedPage test visible symbol := by
  have sorted : sectionSymbols test (attachedTo visible symbol.name) =
      insertedSymbols test (attachedTo visible symbol.name) := by
    funext bucket
    exact Text.sortOn_eq_insertionSort _ _
  rw [insertedPage, ← sorted, ← sectionsFrom_eq]
  rfl

/-- Sorting by insertion gives the plan. -/
theorem plan_eq_insertedPlan (test : Symbol → Bool) (includePrivate : Bool)
    (reference : Reference) :
    plan test includePrivate reference = insertedPlan test includePrivate reference := by
  rw [plan, Text.sortOn_eq_insertionSort, insertedPlan, ← funext (classPage_eq_insertedPage test _)]

/-! ### Small references -/

/-- A symbol of which only the kind and the names matter. -/
def bareSymbol (kind name qualified : Text) : Symbol where
  kind := kind
  name := name
  qualified := qualified
  location := ⟨"Door.luau", 1, 1⟩

/-- A reference of modules of which only the symbols matter. -/
def bareReference (modules : List (List Symbol)) : Reference where
  generatorVersion := "1"
  modules := modules.map fun symbols => ⟨"Door", "Door.luau", [], symbols⟩

end Page

end LuauReference
