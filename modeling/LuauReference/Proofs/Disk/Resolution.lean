/-
This file treats absolute paths without links and dots. On a plain disk resolving a path gives the
one of the place that the path leads to, and such a path leads to its own names. Seen from another
such path it goes up to the folder they share and down again, and how far it goes up and what it
goes down through give it back. So two files are never seen under one text from the same folder.

All of this rests on what the names of files are: not empty, neither one dot nor two, and without
slashes and null characters.
-/

import LuauReference.Proofs.Disk.Listing
import LuauReference.Proofs.Text.Run

namespace LuauReference

namespace Path

/-! ### Proper names -/

/-- Whether a text can be the name of a file. -/
structure IsProperName (name : Text) : Prop where
  present : name ≠ []
  dot : name ≠ ['.']
  dots : name ≠ "..".toList
  slash : '/' ∉ name
  null : '\x00' ∉ name

instance (name : Text) : Decidable (IsProperName name) :=
  decidable_of_iff (name ≠ [] ∧ name ≠ ['.'] ∧ name ≠ "..".toList ∧ '/' ∉ name ∧ '\x00' ∉ name)
    ⟨fun ⟨present, dot, dots, slash, null⟩ => ⟨present, dot, dots, slash, null⟩,
      fun ⟨present, dot, dots, slash, null⟩ => ⟨present, dot, dots, slash, null⟩⟩

/-- Whether a path is absolute and made of proper names, as resolving makes it. -/
structure IsResolved (path : Path) : Prop where
  slashes : path.slashes = 1
  names : ∀ name ∈ path.names, IsProperName name

instance (path : Path) : Decidable (IsResolved path) :=
  decidable_of_iff (path.slashes = 1 ∧ ∀ name ∈ path.names, IsProperName name)
    ⟨fun ⟨slashes, names⟩ => ⟨slashes, names⟩, fun ⟨slashes, names⟩ => ⟨slashes, names⟩⟩

theorem IsResolved.eq {path : Path} (resolved : path.IsResolved) : path = ⟨1, path.names⟩ := by
  rw [← resolved.slashes]

theorem IsResolved.dots_notMem {path : Path} (resolved : path.IsResolved) :
    "..".toList ∉ path.names :=
  fun member => (resolved.names _ member).dots rfl

theorem IsResolved.null_notMem_text {path : Path} (resolved : path.IsResolved) :
    '\x00' ∉ path.text := by
  rw [null_mem_text_iff]
  rintro ⟨name, member, held⟩
  exact (resolved.names name member).null held

/-! ### Seen from a folder -/

/-- What two lists of names have in common stands in front of what is left of them. -/
theorem exists_common (names base : List Text) :
    ∃ common, names = common ++ (dropCommon names base).1 ∧
      base = common ++ (dropCommon names base).2 := by
  induction names generalizing base with
  | nil => exact ⟨[], by rw [dropCommon.eq_def]; exact ⟨rfl, rfl⟩⟩
  | cons name rest inductionHypothesis =>
    cases base with
    | nil => exact ⟨[], by rw [dropCommon.eq_def]; exact ⟨rfl, rfl⟩⟩
    | cons first more =>
      rw [dropCommon]
      split
      · next same =>
        obtain ⟨common, left, right⟩ := inductionHypothesis more
        exact ⟨name :: common, congrArg _ left, same ▸ congrArg _ right⟩
      · exact ⟨[], rfl, rfl⟩

/-- A path seen from another one goes up to what they have in common and down again. -/
theorem exists_seenFrom {path base : Path} (slashes : path.slashes = base.slashes) :
    ∃ common down up, path.names = common ++ down ∧ base.names = common ++ up ∧
      path.seenFrom base = ⟨0, List.replicate up.length "..".toList ++ down⟩ := by
  unfold seenFrom relativeTo?
  split
  · next inside =>
    simp only [slashes, decide_true, Bool.true_and, List.isPrefixOf_iff_prefix] at inside
    obtain ⟨down, whole⟩ := inside
    refine ⟨base.names, down, [], whole.symm, (List.append_nil _).symm, ?_⟩
    rw [← whole, List.drop_left, Option.getD_some]
    rfl
  · obtain ⟨common, left, right⟩ := exists_common path.names base.names
    refine ⟨common, _, _, left, right, ?_⟩
    show Path.mk 0 (List.map _ _ ++ _) = _
    rw [List.map_const']

/-- The text of a path that is not absolute gives back its names, apart from a single dot. -/
theorem names_eq_of_text {one two : List Text} (first : ∀ name ∈ one, '/' ∉ name ∧ name ≠ ['.'])
    (second : ∀ name ∈ two, '/' ∉ name ∧ name ≠ ['.']) (same : text ⟨0, one⟩ = text ⟨0, two⟩) :
    one = two := by
  have pieces {names : List Text} (proper : ∀ name ∈ names, '/' ∉ name ∧ name ≠ ['.']) :
      Text.pieces '/' (text ⟨0, names⟩) = if names = [] then [['.']] else names := by
    by_cases empty : names = []
    · rw [empty]
      rfl
    · rw [if_neg empty, text, if_neg (by simpa using empty)]
      exact Text.pieces_join empty fun name member => (proper name member).1
  have both := (pieces first).symm.trans ((congrArg (Text.pieces '/') same).trans (pieces second))
  by_cases none : one = [] <;> by_cases also : two = [] <;>
    simp only [none, also, if_true, if_false] at both ⊢
  · exact absurd rfl (second _ (both ▸ List.mem_cons_self)).2
  · exact absurd rfl (first _ (both.symm ▸ List.mem_cons_self)).2
  · exact both

/-- Different paths are seen under different texts. -/
theorem seenFrom_injective {one two base : Path} (first : one.IsResolved) (second : two.IsResolved)
    (whole : base.IsResolved) (same : (one.seenFrom base).text = (two.seenFrom base).text) :
    one = two := by
  obtain ⟨common, down, up, names, outer, seen⟩ :=
    exists_seenFrom (first.slashes.trans whole.slashes.symm)
  obtain ⟨others, below, above, alsoNames, alsoOuter, alsoSeen⟩ :=
    exists_seenFrom (second.slashes.trans whole.slashes.symm)
  have proper {path : Path} (resolved : path.IsResolved) {common down : List Text}
      (names : path.names = common ++ down) (height : Nat) :
      "..".toList ∉ down ∧ ∀ name ∈ List.replicate height "..".toList ++ down, '/' ∉ name ∧
      name ≠ ['.'] := by
    have inside : ∀ name ∈ down, IsProperName name := fun name member =>
      resolved.names name (names ▸ List.mem_append_right common member)
    refine ⟨fun member => (inside _ member).dots rfl, fun name member => ?_⟩
    rcases List.mem_append.mp member with going | later
    · rw [List.eq_of_mem_replicate going]
      decide
    · exact ⟨(inside name later).slash, (inside name later).dot⟩
  obtain ⟨ordinary, named⟩ := proper first names up.length
  obtain ⟨alsoOrdinary, alsoNamed⟩ := proper second alsoNames above.length
  rw [seen, alsoSeen] at same
  have ways := names_eq_of_text named alsoNamed same
  have height : above.length = up.length :=
    Text.eq_of_replicate_append (fun front => ordinary (List.mem_of_head? front))
      (fun front => alsoOrdinary (List.mem_of_head? front)) ways
  rw [height] at ways
  have shared : common = others :=
    List.append_inj_left' (outer.symm.trans alsoOuter) height.symm
  rw [first.eq, second.eq, names, alsoNames, shared, List.append_cancel_left ways]

end Path

/-- Whether all entries of a tree have proper names. -/
def Entry.HasProperNames (root : Entry) : Prop :=
  ∀ place entry, root.at? place = some entry → ∀ name ∈ place, Path.IsProperName name

namespace Entry

theorem hasProperNames_file (bytes : List UInt8) : (file bytes).HasProperNames := by
  intro place entry found
  cases place with
  | nil => exact List.forall_mem_nil _
  | cons name rest => exact nomatch (at?_file_cons bytes name rest).symm.trans found

theorem hasProperNames_folder {entries : List (Text × Entry)}
    (proper : ∀ item ∈ entries, Path.IsProperName item.1 ∧ item.2.HasProperNames) :
    (folder entries).HasProperNames := by
  intro place entry found
  cases place with
  | nil => exact List.forall_mem_nil _
  | cons name rest =>
    rw [at?_cons] at found
    obtain ⟨inner, here, below⟩ := Option.bind_eq_some_iff.mp found
    obtain ⟨own, later⟩ := proper _ (Named.mem_of_get?_eq_some here)
    exact List.forall_mem_cons.mpr ⟨own, later rest entry below⟩

end Entry

namespace Disk

variable {disk : Disk}

/-! ### Resolving -/

theorem resolveNames_of_isPlain {root : Entry} (plain : root.IsPlain)
    (expand : Place → List Text → Option Place) (place : Place) (names : List Text) :
    resolveNames root expand place names = some (destination place names) := by
  induction names generalizing place with
  | nil => rw [resolveNames, destination_nil]
  | cons name rest inductionHypothesis =>
    rw [resolveNames, destination_cons]
    split
    · next dots => rw [dots, stepTo_dots, inductionHypothesis]
    · next ordinary =>
      rw [stepTo_of_ne ordinary]
      split
      · next target found => exact absurd found (plain.at?_ne_link _ target)
      · exact inductionHypothesis _

/-- Resolving a path gives the place that it leads to. -/
theorem resolve_of_isPlain (plain : disk.root.IsPlain) (path : Path) :
    disk.resolve path = if path.text.contains '\x00' then .error .badValue else .ok
      ⟨1, disk.placeOf path⟩ := by
  have found (depth : Nat) : resolveFrom disk.root depth (disk.startOf path) path.names =
      some (disk.placeOf path) := by
    cases depth <;> exact resolveNames_of_isPlain plain _ _ _
  rw [resolve, found]

theorem HoldsSame.resolve {other : Disk} (same : disk.HoldsSame other) (plain : disk.root.IsPlain)
    (alsoPlain : other.root.IsPlain) (path : Path) : other.resolve path = disk.resolve path := by
  rw [resolve_of_isPlain plain, resolve_of_isPlain alsoPlain, same.placeOf]

end Disk

namespace Path

theorem IsResolved.startOf {path : Path} (resolved : path.IsResolved) (disk : Disk) :
    disk.startOf path = [] := by
  rw [Disk.startOf, isAbsolute, resolved.slashes]
  rfl

theorem IsResolved.placeOf {path : Path} (resolved : path.IsResolved) (disk : Disk) :
    disk.placeOf path = path.names := by
  rw [Disk.placeOf, resolved.startOf, Disk.destination_of_ordinary resolved.dots_notMem,
    List.nil_append]

end Path

namespace Disk

variable {disk : Disk}

theorem resolve_of_isResolved (plain : disk.root.IsPlain) {path : Path}
    (resolved : path.IsResolved) :
    disk.resolve path = .ok path := by
  rw [resolve_of_isPlain plain, if_neg (by simpa using resolved.null_notMem_text), resolved.placeOf,
    ← resolved.eq]

/-! ### Folders -/

/-- Names that lead through folders only are followed, unless one of them is too long. -/
theorem descend_of_hasFolderAt {root : Entry} (plain : root.IsPlain) {place : Place}
    {names : List Text}
    (ordinary : "..".toList ∉ names) (present : root.HasFolderAt (place ++ names))
    (followLast : Bool) :
    descend root followLast place names = .arrived ⟨place ++ names, root.at? (place ++ names)⟩ ∨
      descend root followLast place names = .refused .nameTooLong := by
  induction names generalizing place with
  | nil =>
    rw [descend_nil, List.append_nil]
    exact Or.inl rfl
  | cons name rest inductionHypothesis =>
    rw [List.mem_cons, not_or] at ordinary
    have other : name ≠ "..".toList := Ne.symm ordinary.1
    rw [List.append_cons] at present ⊢
    rcases Nat.lt_or_ge longestName (Text.utf8 name).length with long | short
    · exact Or.inr (descend_tooLong other long _ _ _ _)
    · obtain ⟨entries, found⟩ := Entry.hasFolderAt_of_isPrefix present (List.prefix_append _ rest)
      by_cases last : rest = []
      · rw [last, descend_last plain other short, List.append_nil]
        exact Or.inl rfl
      · rw [descend_next plain other short followLast place last, found]
        exact inductionHypothesis ordinary.2 present

/-- A disk that tells whether a resolved path leads to a folder tells what stands at its place. -/
theorem isFolder_iff_of_isResolved (plain : disk.root.IsPlain) {path : Path}
    (resolved : path.IsResolved)
    {present : Bool} (told : disk.isFolder path = .ok present) :
    present = true ↔ disk.root.HasFolderAt path.names := by
  have place := resolved.placeOf disk
  constructor
  · rintro rfl
    obtain ⟨_, entries, located⟩ := isFolder_eq_true_iff.mp told
    obtain ⟨here, found⟩ := Location.mk.inj (locate_eq_ok plain located).1
    exact ⟨entries, by rw [← place, found]⟩
  · intro folder
    obtain ⟨entries, found⟩ := folder
    have tooLong (located : disk.locate true path = .error (refused path .nameTooLong)) :
        present = true := by
      rw [isFolder, entryAt, located] at told
      exact nomatch told
    rcases Nat.lt_or_ge longestPath (Text.utf8 path.text).length with long | short
    · refine tooLong ?_
      rw [locate, if_neg (by simpa using resolved.null_notMem_text), if_pos long]
    · have looked := locate_of_isTaken plain ⟨resolved.null_notMem_text, short⟩ true
      rw [resolved.startOf] at looked
      have way : disk.root.HasFolderAt ([] ++ path.names) := ⟨entries, found⟩
      rcases descend_of_hasFolderAt plain resolved.dots_notMem way false with arrived | refusal
      · rw [arrived, List.nil_append, found] at looked
        have yes := isFolder_eq_true_iff.mpr ⟨path.names, entries, looked⟩
        exact Except.ok.inj (told.symm.trans yes)
      · rw [refusal] at looked
        exact tooLong looked

end Disk

end LuauReference
