/-
This file proves that the source files below several folders are collected without gap and without
repetition. Each of them is there once, and of the folders below which it counts it belongs to the
first. They come in the strict order of their paths seen from the root, so the result is one list
for all disks that hold the same, however these list their entries.

That a file lies below a folder does not make it count there: seen from this folder it can be hidden
or excluded, and seen from another one further down it is not. Such a file belongs to the folder
further down.
-/

import LuauReference.Proofs.Disk.Resolution
import LuauReference.Proofs.Source.Discovery
import LuauReference.Source.Extraction

namespace LuauReference

namespace Source

/-! ### The first of each path -/

theorem nodup_paths_firstOfEach (files : List SourceFile) :
    ((firstOfEach files).map (·.path)).Nodup := by
  induction files with
  | nil => exact List.nodup_nil
  | cons file rest inductionHypothesis =>
    rw [firstOfEach, List.map_cons, List.nodup_cons]
    refine ⟨fun member => ?_, inductionHypothesis.sublist (List.filter_sublist.map _)⟩
    obtain ⟨other, kept, same⟩ := List.mem_map.mp member
    simpa [same] using (List.mem_filter.mp kept).2

/-- Of further files those are kept whose paths have not been there. -/
theorem firstOfEach_append (first second : List SourceFile) :
    firstOfEach (first ++ second) = firstOfEach first ++
      (firstOfEach second).filter fun file => first.all fun earlier =>
        file.path != earlier.path := by
  induction first with
  | nil =>
    simp only [List.nil_append, firstOfEach, List.all_nil, List.filter_true]
  | cons file rest inductionHypothesis =>
    rw [List.cons_append, firstOfEach, firstOfEach, inductionHypothesis, List.filter_append,
      List.filter_filter,
      List.cons_append]
    simp only [List.all_cons]

/-- Files with different paths are each the first of their path. -/
theorem firstOfEach_of_nodup {files : List SourceFile} (distinct : (files.map (·.path)).Nodup) :
    firstOfEach files = files := by
  induction files with
  | nil => rfl
  | cons file rest inductionHypothesis =>
    rw [List.map_cons, List.nodup_cons] at distinct
    rw [firstOfEach, inductionHypothesis distinct.2, List.filter_eq_self.mpr fun other member => ?_]
    rw [bne_iff_ne]
    exact fun same => distinct.1 (same ▸ List.mem_map_of_mem member)

/-! ### Below one folder -/

/-- Whether a path is that of a source file that counts below a folder. -/
def IsSourceBelow (root : Entry) (patterns : List Text) (base path : Path) : Prop :=
  ∃ place, path = ⟨1, base.names ++ place⟩ ∧ IsSource root base.names patterns place

theorem IsSourceBelow.isResolved {root : Entry} (named : root.HasProperNames) {patterns : List Text}
    {base path : Path} (source : IsSourceBelow root patterns base path) : path.IsResolved := by
  obtain ⟨place, rfl, ⟨bytes, found⟩, -⟩ := source
  exact ⟨rfl, named _ _ (Entry.fileAt?_eq_some_iff.mp found)⟩

/-- The source files below a folder. -/
def filesBelow (disk : Disk) (patterns : List Text) (base : Path) :
    Except Failure (List SourceFile) := do
  let paths ← find disk base patterns
  paths.mapM fun path => do
    return ⟨← disk.resolve (base.join path), base⟩

/-- Collecting takes the first of each path and sorts. -/
theorem collect_eq (disk : Disk) (root : Path) (bases : List Path) (patterns : List Text) :
    collect disk root bases patterns = bases.mapM (filesBelow disk patterns) >>= fun found =>
      pure (Text.sortOn (fun file => (file.path.seenFrom root).text) (firstOfEach found.flatten)) :=
  rfl

/-- Whether files are those of the source files that count below a folder, each of them once. -/
structure AreBelow (root : Entry) (patterns : List Text) (base : Path) (files : List SourceFile) :
    Prop where
  once : (files.map (·.path)).Nodup
  exact : ∀ file, file ∈ files ↔ file.base = base ∧ IsSourceBelow root patterns base file.path

variable {disk other : Disk}

/-- A disk that tells whether the path of a folder leads there finds the source files below it. -/
theorem exists_filesBelow (plain : disk.root.IsPlain) (named : disk.root.HasProperNames)
    (patterns : List Text)
    {base : Path} (resolved : base.IsResolved) {present : Bool}
    (told : disk.isFolder base = .ok present) :
    ∃ files, filesBelow disk patterns base = .ok files ∧
      AreBelow disk.root patterns base files := by
  have there := Disk.isFolder_iff_of_isResolved plain resolved told
  cases present with
  | false =>
    -- A file below the folder would make it one.
    refine ⟨[], ?_, List.nodup_nil, fun file => iff_of_false List.not_mem_nil ?_⟩
    · rw [filesBelow, find, told]
      rfl
    · rintro ⟨-, place, -, ⟨bytes, found⟩, counts⟩
      obtain ⟨name, rest, rfl⟩ := List.exists_cons_of_ne_nil counts.ne_nil
      exact Bool.false_ne_true
        (there.mpr (Entry.hasFolderAt_of_at?_append (Entry.fileAt?_eq_some_iff.mp found)))
  | true =>
    obtain ⟨paths, searched, once, exact⟩ := exists_find plain told patterns
    rw [resolved.placeOf] at exact
    have joined (place : Place) : base.join ⟨0, place⟩ = ⟨1, base.names ++ place⟩ := by
      rw [← resolved.slashes]
      rfl
    refine ⟨paths.map fun path => ⟨base.join path, base⟩, ?_, ?_, fun file => ?_⟩
    · rw [filesBelow, searched]
      refine Failure.mapM_eq_ok fun path listed => ?_
      obtain ⟨place, rfl, source⟩ := (exact path).mp listed
      have proper : (base.join ⟨0, place⟩).IsResolved :=
        IsSourceBelow.isResolved named ⟨place, joined place, source⟩
      rw [Disk.resolve_of_isResolved plain proper]
      rfl
    · rw [List.map_map]
      refine List.Nodup.map_on (fun one listed two also same => ?_) once
      obtain ⟨place, rfl, -⟩ := (exact one).mp listed
      obtain ⟨other, rfl, -⟩ := (exact two).mp also
      dsimp only [Function.comp_apply] at same
      rw [joined, joined, Path.mk.injEq] at same
      rw [List.append_cancel_left same.2]
    · rw [List.mem_map]
      constructor
      · rintro ⟨path, listed, rfl⟩
        obtain ⟨place, rfl, source⟩ := (exact path).mp listed
        exact ⟨rfl, place, joined place, source⟩
      · obtain ⟨path, owner⟩ := file
        rintro ⟨owned, place, here, source⟩
        obtain rfl : owner = base := owned
        obtain rfl : path = ⟨1, owner.names ++ place⟩ := here
        exact ⟨_, (exact _).mpr ⟨place, rfl, source⟩, by rw [joined]⟩

/-! ### Below several folders -/

/-- Whether a folder is the first of several below which a path is that of a source file that
counts. -/
def IsFirstOwner (root : Entry) (patterns : List Text) (path : Path) : List Path → Path → Prop
  | [], _ => False
  | first :: rest, base => base = first ∧ IsSourceBelow root patterns first path ∨
      IsFirstOwner root patterns path rest base ∧ ¬ IsSourceBelow root patterns first path

theorem IsFirstOwner.isSourceBelow {root : Entry} {patterns : List Text} {path base : Path}
    {bases : List Path}
    (owner : IsFirstOwner root patterns path bases base) :
    IsSourceBelow root patterns base path := by
  induction bases with
  | nil => exact owner.elim
  | cons first rest inductionHypothesis =>
    rcases owner with ⟨rfl, source⟩ | ⟨later, -⟩
    · exact source
    · exact inductionHypothesis later

/-- What is found below several folders belongs to the first of them below which it counts. -/
theorem exists_firstOfEach_flatten (plain : disk.root.IsPlain) (named : disk.root.HasProperNames)
    (patterns : List Text) {bases : List Path}
    (told : ∀ base ∈ bases, base.IsResolved ∧ ∃ present, disk.isFolder base = .ok present) :
    ∃ found, bases.mapM (filesBelow disk patterns) = .ok found ∧
      ∀ file, file ∈ firstOfEach found.flatten ↔
        IsFirstOwner disk.root patterns file.path bases file.base := by
  induction bases with
  | nil => exact ⟨[], rfl, fun file => iff_of_false List.not_mem_nil id⟩
  | cons base rest inductionHypothesis =>
    obtain ⟨⟨resolved, present, asked⟩, later⟩ := List.forall_mem_cons.mp told
    obtain ⟨files, searched, once, exact⟩ := exists_filesBelow plain named patterns resolved asked
    obtain ⟨found, others, first⟩ := inductionHypothesis later
    refine ⟨files :: found, ?_, fun file => ?_⟩
    · rw [List.mapM_cons, searched, others]
      rfl
    · have unseen : (files.all fun earlier => file.path != earlier.path) = true ↔
          ¬ IsSourceBelow disk.root patterns base file.path := by
        simp only [List.all_eq_true, bne_iff_ne]
        constructor
        · exact fun differ source => differ ⟨file.path, base⟩ ((exact _).mpr ⟨rfl, source⟩) rfl
        · exact fun absent earlier listed same => absent (same ▸ ((exact earlier).mp listed).2)
      rw [List.flatten_cons, firstOfEach_append, firstOfEach_of_nodup once, List.mem_append,
        List.mem_filter, exact,
        first, unseen, IsFirstOwner]

/-! ### In order -/

/-- Source files that count below several folders are collected in the strict order of their paths
seen from the root, and each belongs to the first folder below which it counts. -/
theorem exists_collect (plain : disk.root.IsPlain) (named : disk.root.HasProperNames)
    (patterns : List Text)
    {root : Path} (resolved : root.IsResolved) {bases : List Path}
    (told : ∀ base ∈ bases, base.IsResolved ∧ ∃ present, disk.isFolder base = .ok present) :
    ∃ files, collect disk root bases patterns = .ok files ∧
      (files.map fun file => (file.path.seenFrom root).text).Pairwise
        (fun one other => Text.inOrder one other = true ∧ one ≠ other) ∧
      ∀ file, file ∈ files ↔ IsFirstOwner disk.root patterns file.path bases file.base := by
  obtain ⟨found, searched, exact⟩ := exists_firstOfEach_flatten plain named patterns told
  let key (file : SourceFile) : Text := (file.path.seenFrom root).text
  have distinct : ((firstOfEach found.flatten).map key).Nodup := by
    have proper : ∀ path ∈ (firstOfEach found.flatten).map (·.path), path.IsResolved := by
      intro path listed
      obtain ⟨file, member, rfl⟩ := List.mem_map.mp listed
      exact ((exact file).mp member).isSourceBelow.isResolved named
    have seen := (nodup_paths_firstOfEach found.flatten).map_on fun one listed two also same =>
      Path.seenFrom_injective (proper one listed) (proper two also) resolved same
    rwa [List.map_map] at seen
  refine ⟨_, by rw [collect_eq, searched]; rfl, ?_, fun file => ?_⟩
  · rw [List.pairwise_map]
    exact (Text.pairwise_sortOn key _).and (List.pairwise_map.mp (Text.nodup_keys_sortOn distinct))
  · rw [(Text.sortOn_perm _ _).mem_iff, exact]

/-- Collecting gives the same on every disk that holds the same. -/
theorem collect_eq_of_holdsSame (plain : disk.root.IsPlain) (alsoPlain : other.root.IsPlain)
    (same : disk.HoldsSame other) (root : Path) (bases : List Path) (patterns : List Text) :
    collect other root bases patterns = collect disk root bases patterns := by
  have below : filesBelow other patterns = filesBelow disk patterns := by
    funext base
    rw [filesBelow, filesBelow, find_eq_of_holdsSame plain alsoPlain same]
    simp only [same.resolve plain alsoPlain]
  rw [collect_eq, collect_eq, below]

/-- Whether files are the source files of a folder and of one for types that count, in the strict
order of their paths seen from the root. Those that count below the first folder belong to it, and
the others to the second. -/
structure CollectsSources (tree : Entry) (root source : Path) (types : Option Path)
    (patterns : List Text)
    (files : List SourceFile) : Prop where
  ordered : (files.map fun file => (file.path.seenFrom root).text).Pairwise
    fun one other => Text.inOrder one other = true ∧ one ≠ other
  exact : ∀ file, file ∈ files ↔
    file.base = source ∧ IsSourceBelow tree patterns source file.path ∨
      (∃ folder ∈ types, file.base = folder ∧ IsSourceBelow tree patterns folder file.path) ∧
        ¬ IsSourceBelow tree patterns source file.path

theorem isFirstOwner_cons_toList_iff {tree : Entry} {patterns : List Text} {path source base : Path}
    {types : Option Path} : IsFirstOwner tree patterns path (source :: types.toList) base ↔
      base = source ∧ IsSourceBelow tree patterns source path ∨
        (∃ folder ∈ types, base = folder ∧ IsSourceBelow tree patterns folder path) ∧
          ¬ IsSourceBelow tree patterns source path := by
  cases types with
  | none => simp [IsFirstOwner]
  | some folder =>
    simp only
      [Option.toList_some, IsFirstOwner, false_and, or_false, Option.mem_some_iff, exists_eq_left']

/-- The search below a folder and the collection of what is found below two of them are exact, and
neither depends on the order in which a disk lists its entries. -/
theorem discovery_is_exact {disk : Disk} (plain : disk.root.IsPlain) (patterns : List Text) :
    (∀ path, disk.isFolder path = .ok true →
      ∃ paths, ListsSources disk.root (disk.placeOf path) patterns paths ∧
        ∀ other : Disk, other.root.IsPlain → disk.HoldsSame other →
          find other path patterns = .ok paths) ∧
    (disk.root.HasProperNames → ∀ (root source : Path) (types : Option Path), root.IsResolved →
      (∀ base ∈ source :: types.toList, base.IsResolved ∧
        ∃ present, disk.isFolder base = .ok present) →
      ∃ files, CollectsSources disk.root root source types patterns files ∧
        ∀ other : Disk, other.root.IsPlain → disk.HoldsSame other →
          collect other root (source :: types.toList) patterns = .ok files) := by
  refine ⟨fun path asked => ?_, fun named root source types resolved told => ?_⟩
  · obtain ⟨paths, searched, lists⟩ := exists_find plain asked patterns
    exact ⟨paths, lists, fun other alsoPlain same =>
      (find_eq_of_holdsSame plain alsoPlain same _ _).trans searched⟩
  · obtain ⟨files, collected, ordered, exact⟩ := exists_collect plain named patterns resolved told
    have owned (file : SourceFile) := (exact file).trans isFirstOwner_cons_toList_iff
    exact ⟨files, ⟨ordered, owned⟩, fun other alsoPlain same =>
      (collect_eq_of_holdsSame plain alsoPlain same _ _ _).trans collected⟩

/-- A disk with two source files and a hidden folder with another one, listed in a given order. -/
def hiddenTypes (order : List (Text × Entry) → List (Text × Entry)) : Disk :=
  ⟨.folder
    (order [("b.lua".toList, .file []), (".types".toList, .folder [("c.lua".toList, .file [])]),
    ("a.luau".toList, .file [])]), []⟩

theorem isPlain_hiddenTypes : (hiddenTypes id).root.IsPlain :=
  have inner : (Entry.folder [("c.lua".toList, .file [])]).IsPlain :=
    .folder (by decide) (List.forall_mem_singleton.mpr (.file _))
  .folder (by decide) (List.forall_mem_cons.mpr ⟨.file _, List.forall_mem_cons.mpr
    ⟨inner, List.forall_mem_singleton.mpr (.file _)⟩⟩)

theorem hasProperNames_hiddenTypes : (hiddenTypes id).root.HasProperNames :=
  have inner : (Entry.folder [("c.lua".toList, .file [])]).HasProperNames :=
    Entry.hasProperNames_folder
      (List.forall_mem_singleton.mpr ⟨by decide, Entry.hasProperNames_file _⟩)
  Entry.hasProperNames_folder (List.forall_mem_cons.mpr ⟨⟨by decide, Entry.hasProperNames_file _⟩,
    List.forall_mem_cons.mpr ⟨⟨by decide, inner⟩,
      List.forall_mem_singleton.mpr ⟨by decide, Entry.hasProperNames_file _⟩⟩⟩)

theorem told_hiddenTypes : ∀ base ∈ [(⟨1, []⟩ : Path), ⟨1, [".types".toList]⟩],
    base.IsResolved ∧ ∃ present, (hiddenTypes id).isFolder base = .ok present :=
  List.forall_mem_cons.mpr
    ⟨⟨by decide, true, rfl⟩, List.forall_mem_singleton.mpr ⟨by decide, true, rfl⟩⟩

/-- The file in the hidden folder counts below this folder unless it is excluded, but not from
above. -/
theorem isSourceBelow_hidden {patterns : List Text}
    (kept : isExcluded patterns "c.lua".toList = false) :
    IsSourceBelow (hiddenTypes id).root patterns ⟨1, [".types".toList]⟩
      ⟨1, [".types".toList, "c.lua".toList]⟩ ∧
      ¬ IsSourceBelow (hiddenTypes id).root patterns ⟨1, []⟩
        ⟨1, [".types".toList, "c.lua".toList]⟩ := by
  refine ⟨⟨["c.lua".toList], rfl, ⟨[], rfl⟩, counts_singleton_iff.mpr ?_⟩, ?_⟩
  · exact isTaken_iff.mpr ⟨by decide, by decide, kept⟩
  · rintro ⟨place, here, source⟩
    obtain rfl := (Path.mk.inj here).2
    exact source.counts.visible ".types".toList List.mem_cons_self rfl

theorem isExcluded_starred : isExcluded ["b.*".toList] "b.lua".toList = true ∧
    isExcluded ["b.*".toList] "a.luau".toList = false ∧
    isExcluded ["b.*".toList] "c.lua".toList = false := by
  simp [isExcluded, excludes, Text.dropEndWhile, Text.startsWith, Text.after?, Glob.admits,
    Glob.parse,
    Glob.fits, Glob.Element.admits]

/-- With the entries listed the other way round one file is found and another one excluded, and the
file in the hidden folder belongs to this folder. -/
theorem discovery_is_exact_reordered :
    (hiddenTypes id).root.IsPlain ∧
      (∃ paths, find (hiddenTypes List.reverse) ⟨1, []⟩ ["b.*".toList] = .ok paths ∧
        ⟨0, ["a.luau".toList]⟩ ∈ paths ∧ ⟨0, ["b.lua".toList]⟩ ∉ paths) ∧
      ∃ files, collect (hiddenTypes List.reverse) ⟨1, []⟩ [⟨1, []⟩, ⟨1, [".types".toList]⟩]
        ["b.*".toList] =
          .ok files ∧
        ⟨⟨1, [".types".toList, "c.lua".toList]⟩, ⟨1, [".types".toList]⟩⟩ ∈ files := by
  obtain ⟨excluded, kept, inner⟩ := isExcluded_starred
  have distinct : (Named.names (hiddenTypes id).root.entries).Nodup := by decide
  have same : (hiddenTypes id).HoldsSame (hiddenTypes List.reverse) :=
    ⟨rfl, Entry.holdsSame_of_perm distinct (List.reverse_perm _).symm⟩
  have alsoPlain := isPlain_hiddenTypes.of_perm (List.reverse_perm _).symm
  obtain ⟨search, collection⟩ := discovery_is_exact isPlain_hiddenTypes ["b.*".toList]
  refine ⟨isPlain_hiddenTypes, ?_, ?_⟩
  · obtain ⟨paths, lists, everywhere⟩ := search ⟨1, []⟩ rfl
    refine ⟨paths, everywhere _ alsoPlain same, (lists.exact _).mpr ⟨_, rfl, ⟨[], rfl⟩, ?_⟩,
      fun listed => ?_⟩
    · exact counts_singleton_iff.mpr (isTaken_iff.mpr ⟨by decide, by decide, kept⟩)
    · obtain ⟨place, here, source⟩ := (lists.exact _).mp listed
      obtain rfl := (Path.mk.inj here).2
      have included := (isTaken_iff.mp (counts_singleton_iff.mp source.counts)).2.2
      exact Bool.false_ne_true (included.symm.trans excluded)
  · obtain ⟨files, collects, everywhere⟩ := collection hasProperNames_hiddenTypes ⟨1, []⟩ ⟨1, []⟩
      (some ⟨1, [".types".toList]⟩) (by decide) told_hiddenTypes
    obtain ⟨below, hidden⟩ := isSourceBelow_hidden inner
    exact ⟨files, everywhere _ alsoPlain same,
      (collects.exact _).mpr (Or.inr ⟨⟨_, rfl, rfl, below⟩, hidden⟩)⟩

/-- A file below two folders need not belong to the first of them: here it is hidden from there. -/
theorem not_owned_by_outer_folder :
    ¬ ∀ (disk : Disk) (root source types : Path) (patterns : List Text) (files : List SourceFile),
      disk.root.IsPlain → disk.root.HasProperNames → root.IsResolved → source.IsResolved →
      types.IsResolved →
      collect disk root [source, types] patterns = .ok files →
      ∀ file ∈ files, source.names <+: file.path.names → types.names <+: file.path.names →
        file.base = source := by
  intro claim
  have root : Path.IsResolved ⟨1, []⟩ := by decide
  obtain ⟨files, collected, -, exact⟩ :=
    exists_collect isPlain_hiddenTypes hasProperNames_hiddenTypes [] root
    told_hiddenTypes
  have kept : isExcluded [] "c.lua".toList = false := rfl
  obtain ⟨below, hidden⟩ := isSourceBelow_hidden kept
  have owned : ⟨⟨1, [".types".toList, "c.lua".toList]⟩, ⟨1, [".types".toList]⟩⟩ ∈ files :=
    (exact _).mpr (Or.inr ⟨Or.inl ⟨rfl, below⟩, hidden⟩)
  have same := claim _ _ _ _ _ files isPlain_hiddenTypes hasProperNames_hiddenTypes root (by decide)
    (by decide)
    collected _ owned List.nil_prefix (List.prefix_append _ _)
  exact absurd same (by decide)

end Source

end LuauReference
