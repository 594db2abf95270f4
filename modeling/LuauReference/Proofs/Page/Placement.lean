/-
This file proves that planning neither loses nor doubles a symbol. A plan is made by two loops over
the visible symbols, one that picks the classes and one that attaches the members, and then section
by section; what is told here is what comes out at the end: one page for every class name, with the
first class of that name, and every member once, on the page of its owner, in its section, in the
order of qualified names.
-/

import LuauReference.Proofs.Page.Plan

namespace LuauReference

/-! ### Grouping by a key -/

section

variable {α β κ : Type} [DecidableEq κ]

/-- Of distinct keys at most one is met. -/
theorem flatMap_if_eq {keys : List κ} (distinct : keys.Nodup) (key : κ) (found : κ → List β) :
    (keys.flatMap fun other => if key = other then found other else []) =
      if key ∈ keys then found key else [] := by
  induction keys with
  | nil => rfl
  | cons first rest inductionHypothesis =>
    obtain ⟨fresh, distinct⟩ := List.nodup_cons.mp distinct
    rw [List.flatMap_cons, inductionHypothesis distinct]
    by_cases same : key = first
    · subst same
      rw [if_pos rfl, if_neg fresh, List.append_nil, if_pos List.mem_cons_self]
    · simp [same]

/-- Going through items key by key meets the same items as going through them once: each item with
one of the keys, as often as it is there. -/
theorem perm_flatMap_filter {keys : List κ} [∀ k, Decidable (k ∈ keys)] (distinct : keys.Nodup)
    (key : α → Option κ) (give : κ → α → Option β) (items : List α) :
    (keys.flatMap fun k => (items.filter fun item => key item = some k).filterMap (give k)).Perm
      (items.filterMap fun item => (key item).bind fun k =>
        if k ∈ keys then give k item else none) := by
  induction items with
  | nil => simp
  | cons item rest inductionHypothesis =>
    have apart : (keys.flatMap fun k =>
          ((item :: rest).filter fun item => key item = some k).filterMap (give k)) =
        keys.flatMap fun k => (if key item = some k then (give k item).toList else []) ++
          (rest.filter fun item => key item = some k).filterMap (give k) := by
      refine congrArg keys.flatMap (funext fun k => ?_)
      by_cases same : key item = some k
      · rw [List.filter_cons, if_pos (decide_eq_true same), if_pos same, List.filterMap_cons]
        cases give k item <;> rfl
      · rw [List.filter_cons, if_neg (by simpa using same), if_neg same, List.nil_append]
    have own : (keys.flatMap fun k => if key item = some k then (give k item).toList else []) =
        ((key item).bind fun k => if k ∈ keys then give k item else none).toList := by
      cases key item with
      | none => simp
      | some chosen =>
        simp only [Option.some.injEq, Option.bind_some]
        rw [flatMap_if_eq distinct]
        by_cases inside : chosen ∈ keys
        · rw [if_pos inside, if_pos inside]
        · rw [if_neg inside, if_neg inside, Option.toList_none]
    rw [apart]
    refine (List.flatMap_append_perm keys _ _).symm.trans ?_
    rw [own, List.filterMap_cons]
    refine (inductionHypothesis.append_left _).trans (List.Perm.of_eq ?_)
    cases (key item).bind fun k => if k ∈ keys then give k item else none <;> rfl

/-- What stands under one of distinct keys is found again by that key. -/
theorem filter_flatMap_key {keys : List κ} (distinct : keys.Nodup) (items : κ → List α) {key : κ}
    (inside : key ∈ keys) :
    (((keys.flatMap fun k => (items k).map fun item => (k, item)).filter fun pair =>
      pair.1 = key).map
      Prod.snd) = items key := by
  rw [List.filter_flatMap, List.map_flatMap]
  have each (k : κ) : (((items k).map fun item => (k, item)).filter fun pair => pair.1 = key).map
      Prod.snd = if key = k then items k else [] := by
    by_cases same : key = k
    · subst same
      simp [List.filter_map, Function.comp_def]
    · simp [same, Ne.symm same]
  simp only [each]
  rw [flatMap_if_eq distinct, if_pos inside]

end

namespace Page

/-! ### The members of a page -/

/-- The symbols that a page shows in a section, in order. -/
def ClassPage.symbolsIn (page : ClassPage) (bucket : Bucket) : List Symbol :=
  (page.members.filter fun member => member.bucket = bucket).map Member.symbol

/-- The members of a section with the given symbols and their anchors. -/
def sectionMembers (bucket : Bucket) (symbols : List Symbol) (anchors : List (Option Text)) :
    List Member :=
  (symbols.zip anchors).map fun pair => ⟨pair.1, bucket, pair.2⟩

theorem map_sectionMembers (bucket : Bucket) {symbols : List Symbol} {anchors : List (Option Text)}
    (long : anchors.length = symbols.length) :
    (sectionMembers bucket symbols anchors).map (fun member => (member.bucket, member.symbol)) =
      symbols.map fun symbol => (bucket, symbol) := by
  rw [sectionMembers, List.map_map]
  conv_rhs => rw [← List.map_fst_zip long.ge, List.map_map]
  rfl

/-- A section that has no members is left out. -/
theorem sectionsWith_cons (items : Bucket → List Symbol) (used : Anchor.Used) (bucket : Bucket)
    (rest : List Bucket) :
    sectionsWith items used (bucket :: rest) =
      if (sectionMembers bucket (items bucket) (used.allocateAll (items bucket)).1).isEmpty then
        sectionsWith items (used.allocateAll (items bucket)).2 rest
      else
        (bucket, sectionMembers bucket (items bucket) (used.allocateAll (items bucket)).1) ::
          sectionsWith items (used.allocateAll (items bucket)).2 rest := rfl

theorem map_members_sectionsWith (items : Bucket → List Symbol) (used : Anchor.Used)
    (buckets : List Bucket) :
    ((sectionsWith items used buckets).flatMap Prod.snd).map
        (fun member => (member.bucket, member.symbol)) =
      buckets.flatMap fun bucket => (items bucket).map fun symbol => (bucket, symbol) := by
  induction buckets generalizing used with
  | nil => rfl
  | cons bucket rest inductionHypothesis =>
    have given : (used.allocateAll (items bucket)).1.length = (items bucket).length :=
      used.length_allocateAll (items bucket)
    rw [sectionsWith_cons, List.flatMap_cons, ← map_sectionMembers bucket given]
    split
    · next empty =>
      rw [List.isEmpty_iff.mp empty, List.map_nil, List.nil_append]
      exact inductionHypothesis _
    · rw [List.flatMap_cons, List.map_append, inductionHypothesis]

section

variable (test : Symbol → Bool) (visible : List Symbol) (symbol : Symbol)

/-- The members of a page are the symbols of its sections, one section after the other. -/
theorem map_members_classPage :
    (classPage test visible symbol).members.map (fun member => (member.bucket, member.symbol)) =
      Bucket.all.flatMap fun bucket =>
        (sectionSymbols test (attachedTo visible symbol.name) bucket).map fun symbol =>
          (bucket, symbol) := by
  have sections : (classPage test visible symbol).sections =
      sectionsOf test (attachedTo visible symbol.name) := rfl
  rw [ClassPage.members, sections, sectionsOf, sectionsFrom_eq, map_members_sectionsWith]

theorem nodup_all_buckets : Bucket.all.Nodup := by decide

theorem mem_all_buckets (bucket : Bucket) : bucket ∈ Bucket.all := by
  cases bucket <;> decide

/-- What a page shows in a section are the symbols of that section. -/
theorem symbolsIn_classPage (bucket : Bucket) :
    (classPage test visible symbol).symbolsIn bucket =
      sectionSymbols test (attachedTo visible symbol.name) bucket := by
  rw [← filter_flatMap_key nodup_all_buckets
      (sectionSymbols test (attachedTo visible symbol.name)) (mem_all_buckets bucket),
    ← map_members_classPage, List.filter_map, List.map_map]
  rfl

/-- The symbols of a section are the ones that belong there, in another order. -/
theorem map_sectionSymbols_perm (attached : List Symbol) (bucket : Bucket) :
    ((sectionSymbols test attached bucket).map fun symbol => (bucket, symbol)).Perm
      ((attached.filter fun symbol => bucketOf test symbol = some bucket).filterMap fun symbol =>
        some (bucket, symbol)) := by
  rw [show (fun symbol => some (bucket, symbol)) = some ∘ Prod.mk bucket from rfl,
    List.filterMap_eq_map]
  exact (Text.sortOn_perm _ _).map _

/-- Every attached symbol with a section is a member of the page once, in its section. -/
theorem members_classPage_perm :
    ((classPage test visible symbol).members.map fun member => (member.bucket, member.symbol)).Perm
      ((attachedTo visible symbol.name).filterMap fun attached =>
        (bucketOf test attached).map fun bucket => (bucket, attached)) := by
  rw [map_members_classPage]
  refine (List.Perm.flatMap_left _ fun bucket _ => map_sectionSymbols_perm test _ bucket).trans ?_
  refine (perm_flatMap_filter nodup_all_buckets (bucketOf test)
    (fun bucket symbol => some (bucket, symbol)) _).trans (List.Perm.of_eq ?_)
  refine congrArg (List.filterMap · _) (funext fun symbol => ?_)
  cases bucketOf test symbol with
  | none => rfl
  | some bucket => exact if_pos (mem_all_buckets bucket)

end

/-! ### The class of a page -/

/-- Adding a class settles which class has a name, unless that is settled already. -/
theorem find?_addClass (classes : List Symbol) (symbol : Symbol) (name : Text) :
    ((addClass classes symbol).find? fun other => other.name = name) =
      (classes.find? fun other => other.name = name).or
        (if asksForPage symbol = true ∧ symbol.name = name then some symbol else none) := by
  rw [addClass_eq]
  by_cases asks : asksForPage symbol = true
  · by_cases taken : symbol.name ∈ classes.map Symbol.name
    · rw [if_neg fun added => added.2 taken]
      split
      · next found =>
        obtain ⟨other, listed, named⟩ := List.mem_map.mp taken
        have isSome : (classes.find? fun other => other.name = name).isSome :=
          List.find?_isSome.mpr ⟨other, listed, decide_eq_true (named.trans found.2)⟩
        rw [Option.or_of_isSome isSome]
      · rw [Option.or_none]
    · rw [if_pos ⟨asks, taken⟩, List.find?_append]
      by_cases same : symbol.name = name <;> simp [asks, same]
  · simp [asks]

theorem find?_foldl_addClass (symbols classes : List Symbol) (name : Text) :
    ((symbols.foldl addClass classes).find? fun other => other.name = name) =
      (classes.find? fun other => other.name = name).or
        (symbols.find? fun symbol => asksForPage symbol && symbol.name = name) := by
  induction symbols generalizing classes with
  | nil => rw [List.foldl_nil, List.find?_nil, Option.or_none]
  | cons symbol rest inductionHypothesis =>
    rw [List.foldl_cons, inductionHypothesis, find?_addClass, Option.or_assoc]
    refine congrArg (Option.or _) ?_
    rw [List.find?_cons]
    by_cases asks : asksForPage symbol = true <;> by_cases same : symbol.name = name <;>
      simp [asks, same]

/-- Of the visible classes with one name the first gets the page. -/
theorem find?_classSymbols (visible : List Symbol) (name : Text) :
    ((classSymbols visible).find? fun other => other.name = name) =
      visible.find? fun symbol => asksForPage symbol && symbol.name = name := by
  rw [classSymbols, find?_foldl_addClass, List.find?_nil, Option.none_or]

/-! ### The whole plan -/

theorem asksForPage_iff {symbol : Symbol} :
    asksForPage symbol = true ↔ symbol.kind = "class" ∧ symbol.name ≠ [] := by
  rw [asksForPage, Bool.and_eq_true, decide_eq_true_eq, Bool.not_eq_true',
    List.isEmpty_eq_false_iff]

/-- The owner of a symbol that is no class. -/
def memberOf? (symbol : Symbol) : Option Text :=
  if symbol.kind = "class" then none else ownerOf symbol

theorem attachedTo_eq (visible : List Symbol) (name : Text) :
    attachedTo visible name = visible.filter fun symbol => memberOf? symbol = some name := by
  refine List.filter_congr fun symbol _ => ?_
  rw [Bool.eq_iff_iff, Bool.and_eq_true, bne_iff_ne, decide_eq_true_eq, decide_eq_true_eq,
    memberOf?]
  by_cases isClass : symbol.kind = "class" <;> simp [isClass]

/-- Where a symbol that is no class is to be shown: on the page of its owner, in its section. -/
def placeOf? (test : Symbol → Bool) (symbol : Symbol) : Option (Text × Bucket) :=
  (memberOf? symbol).bind fun owner => (bucketOf test symbol).map fun bucket => (owner, bucket)

theorem placeOf?_eq_some_iff {test : Symbol → Bool} {symbol : Symbol} {owner : Text}
    {bucket : Bucket} :
    placeOf? test symbol = some (owner, bucket) ↔
      memberOf? symbol = some owner ∧ bucketOf test symbol = some bucket := by
  simp [placeOf?, Option.bind_eq_some_iff]

/-- The symbols that have a place on a page with one of the given names, each with its place. -/
def placedOn (test : Symbol → Bool) (names : List Text) (visible : List Symbol) :
    List ((Text × Bucket) × Symbol) :=
  visible.filterMap fun symbol =>
    ((placeOf? test symbol).filter fun place => place.1 ∈ names).map fun place => (place, symbol)

/-- A symbol with its place on the page of the given name, if it has a section. -/
def placedUnder (test : Symbol → Bool) (name : Text) (symbol : Symbol) :
    Option ((Text × Bucket) × Symbol) :=
  (bucketOf test symbol).map fun bucket => ((name, bucket), symbol)

theorem placedOn_eq (test : Symbol → Bool) (names : List Text) (visible : List Symbol) :
    placedOn test names visible = visible.filterMap fun symbol =>
      (memberOf? symbol).bind fun owner =>
        if owner ∈ names then placedUnder test owner symbol else none := by
  refine congrArg (List.filterMap · _) (funext fun symbol => ?_)
  rw [placeOf?]
  cases memberOf? symbol with
  | none => rfl
  | some owner =>
    by_cases named : owner ∈ names <;> cases found : bucketOf test symbol <;>
      simp [named, placedUnder, found]

/-- The members of all pages, each with the name of the page and its section. -/
def memberPlaces (pages : List ClassPage) : List ((Text × Bucket) × Symbol) :=
  pages.flatMap fun page => page.members.map fun member =>
    ((page.name, member.bucket), member.symbol)

section

variable (test : Symbol → Bool) (includePrivate : Bool) (reference : Reference)

/-- The pages stand in the strict order of their names. -/
theorem pairwise_names_plan :
    ((plan test includePrivate reference).map ClassPage.name).Pairwise fun first second =>
      Text.inOrder first second = true ∧ first ≠ second :=
  List.Pairwise.and (List.pairwise_map.mpr (Text.pairwise_sortOn ClassPage.name _)) nodup_names_plan

/-- The page of a class is that of the first visible class with its name. -/
theorem find?_of_mem_plan {page : ClassPage} (inside : page ∈ plan test includePrivate reference) :
    ((shownSymbols includePrivate reference).find? fun symbol =>
      asksForPage symbol && symbol.name = page.name) = some page.symbol := by
  obtain ⟨symbol, chosen, rfl⟩ := mem_plan.mp inside
  rw [← find?_classSymbols]
  have isSome : ((classSymbols (shownSymbols includePrivate reference)).find? fun other =>
      other.name = symbol.name).isSome :=
    List.find?_isSome.mpr ⟨symbol, chosen, decide_eq_true rfl⟩
  obtain ⟨other, found⟩ := Option.isSome_iff_exists.mp isSome
  have named : other.name = symbol.name := by simpa using List.find?_some found
  rw [List.inj_on_of_nodup_map (nodup_names_classSymbols _) (List.mem_of_find?_eq_some found) chosen
    named] at found
  exact found

theorem mem_names_plan {name : Text} :
    name ∈ (plan test includePrivate reference).map ClassPage.name ↔
      name ≠ [] ∧ ∃ symbol ∈ shownSymbols includePrivate reference,
        symbol.kind = "class" ∧ symbol.name = name := by
  constructor
  · intro listed
    obtain ⟨page, inside, rfl⟩ := List.mem_map.mp listed
    have found := find?_of_mem_plan test includePrivate reference inside
    have held := List.mem_of_find?_eq_some found
    have chosen := List.find?_some found
    rw [Bool.and_eq_true, asksForPage_iff, decide_eq_true_eq] at chosen
    exact ⟨chosen.2 ▸ chosen.1.2, _, held, chosen.1.1, chosen.2⟩
  · rintro ⟨present, symbol, held, isClass, rfl⟩
    have isSome : ((classSymbols (shownSymbols includePrivate reference)).find? fun other =>
        other.name = symbol.name).isSome := by
      rw [find?_classSymbols]
      refine List.find?_isSome.mpr ⟨symbol, held, ?_⟩
      rw [Bool.and_eq_true, asksForPage_iff, decide_eq_true_eq]
      exact ⟨⟨isClass, present⟩, rfl⟩
    obtain ⟨other, found⟩ := Option.isSome_iff_exists.mp isSome
    have named : other.name = symbol.name := by simpa using List.find?_some found
    exact List.mem_map.mpr ⟨_, mem_plan.mpr ⟨other, List.mem_of_find?_eq_some found, rfl⟩, named⟩

/-- The members of all pages are the visible symbols that have a place on one of them. -/
theorem memberPlaces_plan_perm :
    (memberPlaces (plan test includePrivate reference)).Perm
      (placedOn test ((plan test includePrivate reference).map ClassPage.name)
        (shownSymbols includePrivate reference)) := by
  have distinct : ((plan test includePrivate reference).map ClassPage.name).Nodup :=
    nodup_names_plan
  have each (page : ClassPage) (inside : page ∈ plan test includePrivate reference) :
      (page.members.map fun member => ((page.name, member.bucket), member.symbol)).Perm
        (((shownSymbols includePrivate reference).filter fun symbol =>
          memberOf? symbol = some page.name).filterMap (placedUnder test page.name)) := by
    obtain ⟨symbol, _, rfl⟩ := mem_plan.mp inside
    have members := (members_classPage_perm test (shownSymbols includePrivate reference) symbol).map
      fun pair => ((symbol.name, pair.1), pair.2)
    rw [List.map_map, List.map_filterMap, attachedTo_eq] at members
    refine members.trans (List.Perm.of_eq ?_)
    refine congrArg (List.filterMap · _) (funext fun other => ?_)
    exact Option.map_map ..
  have grouped := perm_flatMap_filter distinct memberOf? (placedUnder test)
    (shownSymbols includePrivate reference)
  rw [List.flatMap_map] at grouped
  rw [placedOn_eq]
  exact (List.Perm.flatMap_left _ each).trans grouped

end

/-- Planning loses and doubles nothing. The pages stand in the strict order of their names, which
are the names of the visible classes that have one, and each is the page of the first visible class
with its name. The members of all pages are the visible symbols whose owner has a page and which
have a section, each as often as it occurs and in its place. In a section members stand in the order
of their qualified names, or of their names where these are empty, and those with one such name in
the order of the document. -/
theorem plan_places_members (test : Symbol → Bool) (includePrivate : Bool) (reference : Reference) :
    ((plan test includePrivate reference).map ClassPage.name).Pairwise (fun first second =>
        Text.inOrder first second = true ∧ first ≠ second) ∧
      (∀ name, name ∈ (plan test includePrivate reference).map ClassPage.name ↔
        name ≠ [] ∧ ∃ symbol ∈ shownSymbols includePrivate reference,
          symbol.kind = "class" ∧ symbol.name = name) ∧
      (∀ page ∈ plan test includePrivate reference,
        ((shownSymbols includePrivate reference).find? fun (symbol : Symbol) =>
          symbol.kind = "class" ∧ symbol.name = page.name) = some page.symbol) ∧
      (memberPlaces (plan test includePrivate reference)).Perm
        (placedOn test ((plan test includePrivate reference).map ClassPage.name)
          (shownSymbols includePrivate reference)) ∧
      ∀ page ∈ plan test includePrivate reference, ∀ bucket : Bucket,
        (page.symbolsIn bucket).Pairwise (Text.KeysInOrder Symbol.fullName) ∧
          ∀ name, ((page.symbolsIn bucket).filter fun symbol => symbol.fullName = name) =
            (shownSymbols includePrivate reference).filter fun symbol =>
              placeOf? test symbol = some (page.name, bucket) ∧ symbol.fullName = name := by
  refine ⟨pairwise_names_plan test includePrivate reference,
    fun name => mem_names_plan test includePrivate reference, fun page inside => ?_,
    memberPlaces_plan_perm test includePrivate reference, fun page inside bucket => ?_⟩
  · have present := ((mem_names_plan test includePrivate reference).mp
      (List.mem_map_of_mem inside)).1
    rw [← find?_of_mem_plan test includePrivate reference inside]
    refine congrArg (List.find? · _) (funext fun symbol => ?_)
    rw [Bool.eq_iff_iff, decide_eq_true_eq, Bool.and_eq_true, asksForPage_iff, decide_eq_true_eq]
    exact ⟨fun both => ⟨⟨both.1, both.2 ▸ present⟩, both.2⟩, fun both => ⟨both.1.1, both.2⟩⟩
  · obtain ⟨symbol, _, rfl⟩ := mem_plan.mp inside
    rw [symbolsIn_classPage]
    refine ⟨Text.pairwise_sortOn _ _, fun name => ?_⟩
    rw [sectionSymbols, Text.filter_sortOn, attachedTo_eq, List.filter_filter, List.filter_filter]
    refine List.filter_congr fun other _ => ?_
    have named : (classPage test (shownSymbols includePrivate reference) symbol).name =
        symbol.name :=
      rfl
    rw [Bool.eq_iff_iff, named]
    simp only [Bool.and_eq_true, decide_eq_true_eq, placeOf?_eq_some_iff]
    tauto

end Page

end LuauReference
