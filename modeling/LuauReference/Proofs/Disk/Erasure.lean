/-
This file treats disks that hold links. A disk without its links has an empty file in the place of
each of them, and is plain when no folder has two entries of one name. A path that meets no link
leads to the same on both disks, and every operation along it does the same to both.

No operation makes a link. So a path that meets none of the links of a disk meets none of those that
are left after any number of operations.
-/

import LuauReference.Proofs.Disk.Operation

namespace LuauReference

namespace Entry

/-- A tree in which the entries of every folder have distinct names. -/
inductive IsTree : Entry → Prop
  | file (bytes : List UInt8) : IsTree (file bytes)
  | link (target : Text) : IsTree (link target)
  | folder {entries : List (Text × Entry)} (distinct : (Named.names entries).Nodup)
      (inner : ∀ item ∈ entries, IsTree item.2) : IsTree (folder entries)

mutual

/-- A tree with an empty file in the place of every link. -/
def erased : Entry → Entry
  | file bytes => file bytes
  | link _ => file []
  | folder entries => folder (erasedOf entries)

/-- Entries with an empty file in the place of every link. -/
def erasedOf : List (Text × Entry) → List (Text × Entry)
  | [] => []
  | (name, entry) :: rest => (name, erased entry) :: erasedOf rest

end

@[simp] theorem erased_file (bytes : List UInt8) : (file bytes).erased = file bytes := by
  rw [erased]

@[simp] theorem erased_link (target : Text) : (link target).erased = file [] := by
  rw [erased]

@[simp] theorem erased_folder (entries : List (Text × Entry)) :
    (folder entries).erased = folder (erasedOf entries) := by
  rw [erased]

theorem erasedOf_eq_map (entries : List (Text × Entry)) :
    erasedOf entries = entries.map fun item => (item.1, item.2.erased) := by
  induction entries with
  | nil => rw [erasedOf, List.map_nil]
  | cons item rest inductionHypothesis =>
    rw [erasedOf, List.map_cons, inductionHypothesis]

theorem names_erasedOf (entries : List (Text × Entry)) :
    Named.names (erasedOf entries) = Named.names entries := by
  rw [erasedOf_eq_map, Named.names, List.map_map]
  rfl

theorem get?_erasedOf (entries : List (Text × Entry)) (name : Text) :
    Named.get? (erasedOf entries) name = (Named.get? entries name).map erased := by
  rw [erasedOf_eq_map]
  exact Named.get?_map erased entries name

theorem set_erasedOf (entries : List (Text × Entry)) (name : Text) (new : Entry) :
    Named.set (erasedOf entries) name new.erased = erasedOf (Named.set entries name new) := by
  rw [erasedOf_eq_map, erasedOf_eq_map]
  exact Named.set_map erased entries name new

/-! ### The tree without its links -/

@[simp] theorem isFolder_erased (entry : Entry) : entry.erased.isFolder = entry.isFolder := by
  cases entry with
  | file bytes | link target | folder entries => simp [isFolder]

/-- What stands at a place stands there without its links. -/
theorem at?_erased (root : Entry) (place : Place) :
    root.erased.at? place = (root.at? place).map erased := by
  induction place generalizing root with
  | nil => rw [at?_nil, at?_nil, Option.map_some]
  | cons name rest inductionHypothesis =>
    rw [at?_cons, at?_cons]
    cases root with
    | file bytes | link target => simp [entries]
    | folder entries =>
      rw [erased_folder, Entry.entries, Entry.entries, get?_erasedOf]
      cases Named.get? entries name with
      | none => rfl
      | some inner => exact inductionHypothesis inner

theorem hasFolderAt_erased {root : Entry} {place : Place} :
    root.erased.HasFolderAt place ↔ root.HasFolderAt place := by
  unfold HasFolderAt
  rw [at?_erased]
  rcases root.at? place with _ | ⟨_ | _ | entries⟩ <;> simp

theorem at?_erased_ne_link (root : Entry) (place : Place) (target : Text) :
    root.erased.at? place ≠ some (link target) := by
  rw [at?_erased]
  rcases root.at? place with _ | ⟨_ | _ | _⟩ <;> simp

theorem put_erased (root : Entry) (place : Place) (new : Entry) :
    root.erased.put place new.erased = (root.put place new).erased := by
  induction place generalizing root with
  | nil => rw [put, put]
  | cons name rest inductionHypothesis =>
    cases root with
    | file bytes | link target => simp [put]
    | folder entries =>
      have inner : ((Named.get? (erasedOf entries) name).getD (folder [])).put rest new.erased =
          (((Named.get? entries name).getD (folder [])).put rest new).erased := by
        rw [← inductionHypothesis, get?_erasedOf]
        cases Named.get? entries name <;> rfl
      rw [erased_folder, put_folder_cons, put_folder_cons, erased_folder, inner, set_erasedOf]

theorem remove_erased (root : Entry) (place : Place) :
    root.erased.remove place = (root.remove place).erased := by
  induction place generalizing root with
  | nil => rw [remove, remove]
  | cons name rest inductionHypothesis =>
    cases root with
    | file bytes | link target => simp [remove_of_ne_folder]
    | folder entries =>
      rw [erased_folder]
      cases rest with
      | nil =>
        rw [remove, remove, erased_folder, erasedOf_eq_map, erasedOf_eq_map, List.filter_map]
        rfl
      | cons next more =>
        rw [remove, remove, get?_erasedOf]
        cases Named.get? entries name with
        | none => simp
        | some inner =>
          rw [Option.map_some]
          dsimp only
          rw [inductionHypothesis, set_erasedOf, erased_folder]

mutual

theorem foldersUp_erased (entry : Entry) : entry.erased.foldersUp = entry.foldersUp := by
  cases entry with
  | file bytes | link target => simp [foldersUp]
  | folder entries =>
    rw [erased_folder, foldersUp, foldersUp, foldersBelow_erasedOf entries, erasedOf_eq_map,
      List.filter_map, List.map_map]
    simp [Function.comp_def]

theorem foldersBelow_erasedOf (entries : List (Text × Entry)) :
    foldersBelow (erasedOf entries) = foldersBelow entries := by
  match entries with
  | [] => rfl
  | (name, entry) :: rest =>
    rw [erasedOf, foldersBelow, foldersBelow, foldersUp_erased entry, foldersBelow_erasedOf rest]

end

theorem IsTree.isPlain_erased {root : Entry} (tree : root.IsTree) : root.erased.IsPlain := by
  induction tree with
  | file bytes =>
    rw [erased_file]
    exact .file bytes
  | link target =>
    rw [erased_link]
    exact .file []
  | folder distinct inner inductionHypothesis =>
    rw [erased_folder]
    refine .folder (by rwa [names_erasedOf]) fun item member => ?_
    rw [erasedOf_eq_map] at member
    obtain ⟨old, listed, rfl⟩ := List.mem_map.mp member
    exact inductionHypothesis old listed

theorem IsPlain.isTree {root : Entry} (plain : root.IsPlain) : root.IsTree := by
  induction plain with
  | file bytes => exact .file bytes
  | folder distinct _ inductionHypothesis => exact .folder distinct inductionHypothesis

/-- A plain tree has no links to take away. -/
theorem IsPlain.erased_eq {root : Entry} (plain : root.IsPlain) : root.erased = root := by
  induction plain with
  | file bytes => exact erased_file bytes
  | @folder entries distinct inner inductionHypothesis =>
    rw [erased_folder, erasedOf_eq_map]
    have same : (entries.map fun item => (item.1, item.2.erased)) = entries.map id :=
      List.map_congr_left fun item member => by rw [inductionHypothesis item member, id]
    rw [same, List.map_id]

/-- A tree without links that is plain without its links is plain. -/
theorem isPlain_of_erased {root : Entry} (plain : root.erased.IsPlain)
    (unlinked : ∀ place target, root.at? place ≠ some (link target)) : root.IsPlain := by
  generalize same : root.erased = other at plain
  induction plain generalizing root with
  | file bytes =>
    cases root with
    | file old => exact .file old
    | link target => exact absurd (at?_nil _) (unlinked [] target)
    | folder entries => simp at same
  | @folder others distinct inner inductionHypothesis =>
    cases root with
    | file bytes | link target => simp at same
    | folder entries =>
      obtain rfl : erasedOf entries = others := by simpa using same
      rw [names_erasedOf] at distinct
      refine .folder distinct fun item member => ?_
      have listed : (item.1, item.2.erased) ∈ erasedOf entries := by
        rw [erasedOf_eq_map]
        exact List.mem_map_of_mem member
      refine inductionHypothesis _ listed (fun place target found => ?_) rfl
      refine unlinked (item.1 :: place) target ?_
      rw [at?_cons, Entry.entries, Named.get?_of_mem distinct member]
      exact found

/-- Two trees without links are the same when they are the same without their links. -/
theorem eq_of_erased {one two : Entry} (plain : one.erased.IsPlain)
    (first : ∀ place target, one.at? place ≠ some (link target))
    (second : ∀ place target, two.at? place ≠ some (link target))
    (same : two.erased = one.erased) : two = one := by
  have plainOne := isPlain_of_erased plain first
  have plainTwo := isPlain_of_erased (same ▸ plain) second
  rw [← plainTwo.erased_eq, same, plainOne.erased_eq]

/-- Two trees hold the same at a place when they do so without their links and no link is there. -/
theorem at?_eq_of_erased {one two : Entry} {place : Place} (plain : one.erased.IsPlain)
    (first : ∀ inner target, one.at? (place ++ inner) ≠ some (link target))
    (second : ∀ inner target, two.at? (place ++ inner) ≠ some (link target))
    (same : two.erased.at? place = one.erased.at? place) : two.at? place = one.at? place := by
  have alone := at?_erased one place
  rw [at?_erased two, alone] at same
  cases found : one.at? place with
  | none => simpa [found] using same
  | some entry =>
    rw [found, Option.map_some] at same alone
    obtain ⟨other, here, equal⟩ := Option.map_eq_some_iff.mp same
    have below {root inner : Entry} (there : root.at? place = some inner) (rest : Place) :
        root.at? (place ++ rest) = inner.at? rest := by
      rw [at?_append, there, Option.bind_some]
    rw [here]
    refine congrArg some (eq_of_erased (plain.of_at? alone) (fun rest target => ?_)
      (fun rest target => ?_) equal)
    · exact below found rest ▸ first rest target
    · exact below here rest ▸ second rest target

/-! ### No new links -/

theorem at?_of_put_eq_link {root new : Entry} {place other : Place} {target : Text}
    (fresh : new.IsPlain) (found : (root.put place new).at? other = some (link target)) :
    root.at? other = some (link target) := by
  induction place generalizing root other with
  | nil =>
    rw [put] at found
    exact absurd found (fresh.at?_ne_link other target)
  | cons name rest inductionHypothesis =>
    cases root with
    | file bytes | link target => exact found
    | folder entries =>
      rw [put_folder_cons] at found
      cases other with
      | nil =>
        rw [at?_nil] at found
        cases found
      | cons first more =>
        rw [at?_cons, Entry.entries, Named.get?_set] at found
        rw [at?_cons, Entry.entries]
        split at found
        · next same =>
          have inner := inductionHypothesis found
          rw [← same]
          cases present : Named.get? entries name with
          | some entry => rwa [present] at inner
          | none =>
            rw [present, Option.getD_none] at inner
            exact absurd inner (isPlain_folder_nil.at?_ne_link more target)
        · exact found

theorem at?_of_remove_eq_link {root : Entry} {place other : Place} {target : Text}
    (found : (root.remove place).at? other = some (link target)) :
    root.at? other = some (link target) := by
  induction place generalizing root other with
  | nil => rwa [remove] at found
  | cons name rest inductionHypothesis =>
    cases root with
    | file bytes | link target => rwa [remove_of_ne_folder (by simp)] at found
    | folder entries =>
      cases other with
      | nil =>
        obtain ⟨left, same⟩ := exists_remove_folder entries (name :: rest)
        rw [same, at?_nil] at found
        cases found
      | cons first more =>
        rw [at?_cons, get?_remove_cons] at found
        rw [at?_cons, Entry.entries]
        by_cases same : name = first
        · rw [if_pos same] at found
          obtain ⟨inner, here, below⟩ := Option.bind_eq_some_iff.mp found
          obtain ⟨-, old⟩ := Option.ite_none_left_eq_some.mp here
          obtain ⟨entry, present, rfl⟩ := Option.map_eq_some_iff.mp old
          rw [← same, present]
          exact inductionHypothesis below
        · rwa [if_neg same] at found

end Entry

namespace Disk

/-- A disk with an empty file in the place of every link. -/
def erased (disk : Disk) : Disk :=
  { disk with root := disk.root.erased }

/-- Whether a disk has no links but those of an earlier one, and paths begin where they did. -/
structure HasLinksOf (origin disk : Disk) : Prop where
  start : disk.start = origin.start
  links : ∀ place target, disk.root.at? place = some (.link target) →
    origin.root.at? place = some (.link target)

/-- Whether there is no link at the places that a path passes and at the one it leads to. -/
def MeetsNoLink (disk : Disk) (path : Path) : Prop :=
  ∀ place ∈ disk.placesPassed path ++ [disk.placeOf path], ∀ target,
    disk.root.at? place ≠ some (.link target)

section

variable {origin disk after : Disk} {path : Path}

theorem HasLinksOf.refl (disk : Disk) : HasLinksOf disk disk :=
  ⟨rfl, fun _ _ found => found⟩

theorem HasLinksOf.trans {first second third : Disk} (early : HasLinksOf first second)
    (late : HasLinksOf second third) : HasLinksOf first third :=
  ⟨late.start.trans early.start,
    fun place target found => early.links place target (late.links place target found)⟩

theorem HasLinksOf.put {new : Entry} (fresh : new.IsPlain) (place : Place) :
    HasLinksOf disk { disk with root := disk.root.put place new } :=
  ⟨rfl, fun _ _ found => Entry.at?_of_put_eq_link fresh found⟩

theorem HasLinksOf.remove (place : Place) :
    HasLinksOf disk { disk with root := disk.root.remove place } :=
  ⟨rfl, fun _ _ found => Entry.at?_of_remove_eq_link found⟩

theorem MeetsNoLink.of_hasLinksOf (meets : origin.MeetsNoLink path)
    (linked : HasLinksOf origin disk) : disk.MeetsNoLink path := by
  have start : disk.startOf path = origin.startOf path := by
    rw [startOf, startOf, linked.start]
  intro place member target found
  rw [placesPassed, placeOf, start] at member
  exact meets place member target (linked.links place target found)

theorem MeetsNoLink.parent (meets : disk.MeetsNoLink path) : disk.MeetsNoLink path.parent :=
  fun place member => meets place (mem_way_of_parent member)

/-! ### Following paths -/

/-- Names that meet no link lead to the same place, or are refused alike, with the links and without
them. -/
theorem descend_erased {root : Entry} {place : Place} {names : List Text}
    (unlinked : ∀ other ∈ passed place names ++ [destination place names], ∀ target,
      root.at? other ≠ some (.link target)) (followLast : Bool) :
    (∃ cause, descend root followLast place names = .refused cause ∧
        descend root.erased followLast place names = .refused cause) ∨
      ∃ found, (∀ target, found ≠ some (Entry.link target)) ∧
        descend root followLast place names = .arrived ⟨destination place names, found⟩ ∧
        descend root.erased followLast place names =
          .arrived ⟨destination place names, found.map Entry.erased⟩ := by
  induction names generalizing place with
  | nil =>
    refine Or.inr ⟨root.at? place, unlinked place List.mem_cons_self, rfl, ?_⟩
    rw [descend_nil, Entry.at?_erased, destination_nil]
  | cons name rest inductionHypothesis =>
    have later : ∀ other ∈ passed (stepTo place name) rest ++
        [destination (stepTo place name) rest], ∀ target, root.at? other ≠ some (.link target) :=
      fun other member => unlinked other (List.mem_cons_of_mem _ member)
    have next := later _ (mem_passed_start _ rest)
    have onward := inductionHypothesis later
    rw [destination_cons]
    by_cases dots : name = "..".toList
    · rw [dots, stepTo_dots] at onward ⊢
      rw [descend_dots, descend_dots]
      exact onward
    · rw [stepTo_of_ne dots] at onward next ⊢
      rcases Nat.lt_or_ge longestName (Text.utf8 name).length with long | short
      · exact Or.inl ⟨_, descend_tooLong dots long _ _ _ _, descend_tooLong dots long _ _ _ _⟩
      · rw [descend_short dots short, descend_short dots short, Entry.at?_erased]
        cases found : root.at? (place ++ [name]) with
        | none =>
          by_cases last : rest = []
          · refine Or.inr ⟨none, fun _ => nofun, ?_, ?_⟩ <;> simp [last]
          · refine Or.inl ⟨.notFound, ?_, ?_⟩ <;> simp [last]
        | some entry =>
          cases entry with
          | link target => exact absurd found (next target)
          | folder entries =>
            rw [Option.map_some, Entry.erased_folder]
            exact onward
          | file bytes =>
            rw [Option.map_some, Entry.erased_file]
            by_cases last : rest = []
            · refine Or.inr ⟨some (.file bytes), fun _ => nofun, ?_, ?_⟩ <;> simp [last]
            · refine Or.inl ⟨.notDirectory, ?_, ?_⟩ <;> simp [last]

theorem follow_of_arrived {root : Entry} {followLast : Bool} {links : Nat} {place : Place}
    {names : List Text} {location : Location}
    (arrived : descend root followLast place names = .arrived location) :
    follow root followLast links place names = .ok location := by
  rw [follow.eq_def]
  dsimp only
  rw [arrived]

theorem follow_of_refused {root : Entry} {followLast : Bool} {links : Nat} {place : Place}
    {names : List Text} {cause : DiskCause}
    (refused : descend root followLast place names = .refused cause) :
    follow root followLast links place names = .error cause := by
  rw [follow.eq_def]
  dsimp only
  rw [refused]

/-- A path that meets no link leads to its place, or is refused alike, with the links and without
them. -/
theorem MeetsNoLink.locate_erased (meets : disk.MeetsNoLink path) (followLast : Bool) :
    (∃ failure, disk.locate followLast path = .error failure ∧
        disk.erased.locate followLast path = .error failure) ∨
      ∃ found, (∀ target, found ≠ some (Entry.link target)) ∧
        disk.locate followLast path = .ok ⟨disk.placeOf path, found⟩ ∧
        disk.erased.locate followLast path =
          .ok ⟨disk.placeOf path, found.map Entry.erased⟩ := by
  have start : disk.erased.startOf path = disk.startOf path := rfl
  unfold locate
  rw [start]
  split
  · exact Or.inl ⟨_, rfl, rfl⟩
  · split
    · exact Or.inl ⟨_, rfl, rfl⟩
    · rcases descend_erased meets followLast with
        ⟨cause, first, second⟩ | ⟨found, other, first, second⟩
      · rw [follow_of_refused first, erased, follow_of_refused second]
        exact Or.inl ⟨_, rfl, rfl⟩
      · rw [follow_of_arrived first, erased, follow_of_arrived second]
        exact Or.inr ⟨found, other, rfl, rfl⟩

/-! ### Questions -/

theorem MeetsNoLink.entryAt_erased (meets : disk.MeetsNoLink path) :
    (∃ failure, disk.entryAt path = .error failure ∧ disk.erased.entryAt path = .error failure) ∨
      ∃ found, (∀ target, found ≠ some (Entry.link target)) ∧ disk.entryAt path = .ok found ∧
        disk.erased.entryAt path = .ok (found.map Entry.erased) := by
  unfold entryAt
  rcases meets.locate_erased true with ⟨failure, first, second⟩ | ⟨found, other, first, second⟩
  · rw [first, second]
    split
    · contradiction
    · exact Or.inl ⟨_, rfl, rfl⟩
    · exact Or.inr ⟨none, fun _ => nofun, rfl, rfl⟩
  · rw [first, second]
    exact Or.inr ⟨found, other, rfl, rfl⟩

theorem MeetsNoLink.isFolder_erased (meets : disk.MeetsNoLink path) :
    disk.erased.isFolder path = disk.isFolder path := by
  unfold isFolder
  rcases meets.entryAt_erased with ⟨failure, first, second⟩ | ⟨found, -, first, second⟩
  · rw [first, second]
  · rw [first, second]
    cases found with
    | none => rfl
    | some entry => exact congrArg Except.ok entry.isFolder_erased

theorem MeetsNoLink.isFile_erased (meets : disk.MeetsNoLink path) :
    disk.erased.isFile path = disk.isFile path := by
  unfold isFile
  rcases meets.entryAt_erased with ⟨failure, first, second⟩ | ⟨found, other, first, second⟩
  · rw [first, second]
  · rw [first, second]
    rcases found with _ | ⟨bytes | target | entries⟩
    · rfl
    · simp
    · exact absurd rfl (other target)
    · simp [Entry.isFile]

theorem MeetsNoLink.readText_erased (meets : disk.MeetsNoLink path) :
    disk.erased.readText path = disk.readText path := by
  have bytes : disk.erased.readBytes path = disk.readBytes path := by
    unfold readBytes
    rcases meets.locate_erased true with ⟨failure, first, second⟩ | ⟨found, other, first, second⟩
    · rw [first, second]
    · rw [first, second]
      rcases found with _ | ⟨bytes | target | entries⟩
      · rfl
      · rw [Option.map_some, Entry.erased_file]
      · exact absurd rfl (other target)
      · rw [Option.map_some, Entry.erased_folder]
        rfl
  rw [readText, readText, bytes]

/-! ### Files -/

theorem put_erased (disk : Disk) (place : Place) {new : Entry} (fresh : new.IsPlain) :
    ({ disk.erased with root := disk.erased.root.put place new } : Disk) =
      ({ disk with root := disk.root.put place new } : Disk).erased := by
  have same := disk.root.put_erased place new
  rw [fresh.erased_eq] at same
  rw [erased, erased, same]

theorem remove_erased (disk : Disk) (place : Place) :
    ({ disk.erased with root := disk.erased.root.remove place } : Disk) =
      ({ disk with root := disk.root.remove place } : Disk).erased := by
  rw [erased, erased, disk.root.remove_erased]

theorem MeetsNoLink.writeBytes_erased (meets : disk.MeetsNoLink path) (bytes : List UInt8) :
    disk.erased.writeBytes path bytes = (disk.writeBytes path bytes).map erased := by
  unfold writeBytes
  rcases meets.locate_erased true with ⟨failure, first, second⟩ | ⟨found, other, first, second⟩
  · rw [first, second]
    rfl
  · rw [first, second]
    have put := disk.put_erased (disk.placeOf path) (.file bytes)
    rcases found with _ | ⟨old | target | entries⟩
    · exact congrArg Except.ok put
    · exact congrArg Except.ok put
    · exact absurd rfl (other target)
    · rfl

theorem MeetsNoLink.removeFile_erased (meets : disk.MeetsNoLink path) :
    disk.erased.removeFile path = (disk.removeFile path).map erased := by
  unfold removeFile
  rcases meets.locate_erased false with ⟨failure, first, second⟩ | ⟨found, other, first, second⟩
  · rw [first, second]
    rfl
  · rw [first, second]
    rcases found with _ | ⟨bytes | target | entries⟩
    · rfl
    · exact congrArg Except.ok (disk.remove_erased (disk.placeOf path))
    · exact absurd rfl (other target)
    · rfl

theorem hasLinksOf_writeBytes {bytes : List UInt8}
    (written : disk.writeBytes path bytes = .ok after) : HasLinksOf disk after := by
  unfold writeBytes at written
  obtain ⟨location, -, written⟩ := Failure.bind_eq_ok_iff.mp written
  split at written
  · exact nomatch written
  · rw [← Except.ok.inj written]
    exact .put (.file bytes) location.place

theorem hasLinksOf_removeFile (removed : disk.removeFile path = .ok after) :
    HasLinksOf disk after := by
  unfold removeFile at removed
  obtain ⟨location, -, removed⟩ := Failure.bind_eq_ok_iff.mp removed
  split at removed
  · exact nomatch removed
  · exact nomatch removed
  · rw [← Except.ok.inj removed]
    exact .remove location.place

/-! ### Folders -/

theorem MeetsNoLink.makeFolder_erased (meets : disk.MeetsNoLink path) :
    disk.erased.makeFolder path = (disk.makeFolder path).map erased := by
  unfold makeFolder
  rcases meets.locate_erased false with ⟨failure, first, second⟩ | ⟨found, -, first, second⟩
  · rw [first, second]
    rfl
  · rw [first, second]
    rcases found with _ | entry
    · exact congrArg Except.ok (disk.put_erased (disk.placeOf path) Entry.isPlain_folder_nil)
    · rfl

theorem MeetsNoLink.ensureFolder_erased (meets : disk.MeetsNoLink path) :
    disk.erased.ensureFolder path = (disk.ensureFolder path).map erased := by
  unfold ensureFolder
  rw [meets.makeFolder_erased, meets.isFolder_erased]
  cases disk.makeFolder path with
  | ok made => rfl
  | error failure =>
    cases failure with
    | disk fault =>
      obtain ⟨cause, text⟩ := fault
      cases disk.isFolder path with
      | ok present => cases cause <;> cases present <;> rfl
      | error other => cases cause <;> rfl
    | _ => rfl

theorem hasLinksOf_ensureFolder (made : disk.ensureFolder path = .ok after) :
    HasLinksOf disk after := by
  unfold ensureFolder at made
  split at made
  · next upper fresh =>
    unfold makeFolder at fresh
    obtain ⟨location, -, fresh⟩ := Failure.bind_eq_ok_iff.mp fresh
    split at fresh
    · rw [← Except.ok.inj made, ← Except.ok.inj fresh]
      exact .put Entry.isPlain_folder_nil location.place
    · exact nomatch fresh
  · exact nomatch made
  · obtain ⟨present, -, made⟩ := Failure.bind_eq_ok_iff.mp made
    split at made
    · rw [← Except.ok.inj made]
      exact .refl disk
    · exact nomatch made
  · exact nomatch made

theorem hasLinksOf_ensureFolders (disk : Disk) (above : Nat) (path : Path) :
    HasLinksOf disk (disk.ensureFolders above path).2 :=
  ensureFolders_keeps (HasLinksOf disk) (fun _ => True) (fun _ => trivial)
    (fun linked _ made => linked.trans (hasLinksOf_ensureFolder made)) (.refl disk) trivial above

theorem MeetsNoLink.ensureFolders_erased (meets : disk.MeetsNoLink path) (above : Nat) :
    disk.erased.ensureFolders above path =
      ((disk.ensureFolders above path).1, (disk.ensureFolders above path).2.erased) := by
  have both := ensureFolders_in_step
    (fun one two => two = one.erased ∧ HasLinksOf disk one) disk.MeetsNoLink MeetsNoLink.parent
    (fun {one two path} related meets => ?_) ⟨rfl, .refl disk⟩ meets above
  · exact Prod.ext both.1 both.2.1
  obtain ⟨rfl, linked⟩ := related
  rw [(meets.of_hasLinksOf linked).ensureFolder_erased]
  cases made : one.ensureFolder path with
  | ok left =>
    have later := linked.trans (hasLinksOf_ensureFolder made)
    exact Or.inl ⟨left, left.erased, rfl, rfl, rfl, later⟩
  | error failure => exact Or.inr ⟨failure, rfl, rfl⟩

theorem MeetsNoLink.removeFolder_erased (meets : disk.MeetsNoLink path) :
    disk.erased.removeFolder path = (disk.removeFolder path).map erased := by
  unfold removeFolder
  rcases meets.locate_erased false with ⟨failure, first, second⟩ | ⟨found, other, first, second⟩
  · rw [first, second]
    rfl
  · rw [first, second]
    rcases found with _ | ⟨bytes | target | _ | ⟨item, entries⟩⟩
    · rfl
    · rfl
    · exact absurd rfl (other target)
    · have removed := disk.remove_erased (disk.placeOf path)
      rw [Option.map_some, Entry.erased_folder, Entry.erasedOf]
      dsimp only [bind, Except.bind]
      split
      · exact congrArg Except.ok removed
      · rfl
    · rfl

theorem hasLinksOf_removeFolder (removed : disk.removeFolder path = .ok after) :
    HasLinksOf disk after := by
  unfold removeFolder at removed
  obtain ⟨location, -, removed⟩ := Failure.bind_eq_ok_iff.mp removed
  split at removed
  · exact nomatch removed
  · split at removed
    · rw [← Except.ok.inj removed]
      exact .remove location.place
    · exact nomatch removed
  · exact nomatch removed
  · exact nomatch removed

/-! ### Empty folders -/

theorem MeetsNoLink.removeIfEmpty_erased (meets : disk.MeetsNoLink path) (inner : Place) :
    removeIfEmpty path disk.erased inner = (removeIfEmpty path disk inner).erased := by
  unfold removeIfEmpty
  rcases meets.locate_erased true with ⟨failure, first, second⟩ | ⟨found, other, first, second⟩
  · rw [first, second]
  · have below : disk.erased.root.at? (disk.placeOf path ++ inner) =
        (disk.root.at? (disk.placeOf path ++ inner)).map Entry.erased := disk.root.at?_erased _
    rw [first, second]
    dsimp only
    rw [below]
    rcases disk.root.at? (disk.placeOf path ++ inner) with _ | ⟨_ | _ | _ | _⟩
    case some.folder.nil => exact disk.remove_erased _
    all_goals rfl

theorem hasLinksOf_removeIfEmpty (disk : Disk) (path : Path) (inner : Place) :
    HasLinksOf disk (removeIfEmpty path disk inner) := by
  unfold removeIfEmpty
  split
  · split
    · exact .remove _
    · exact .refl disk
  · exact .refl disk

theorem hasLinksOf_sweep (disk : Disk) (path : Path) (places : List Place) :
    HasLinksOf disk (disk.sweep path places) := by
  induction places generalizing disk with
  | nil => exact .refl disk
  | cons inner places inductionHypothesis =>
    exact (hasLinksOf_removeIfEmpty disk path inner).trans (inductionHypothesis _)

theorem MeetsNoLink.sweep_erased (meets : disk.MeetsNoLink path) (places : List Place) :
    disk.erased.sweep path places = (disk.sweep path places).erased := by
  induction places generalizing disk with
  | nil => rfl
  | cons inner places inductionHypothesis =>
    have next := meets.of_hasLinksOf (hasLinksOf_removeIfEmpty disk path inner)
    rw [sweep, List.foldl_cons, meets.removeIfEmpty_erased]
    exact inductionHypothesis next

theorem hasLinksOf_prune {gone : Bool} (pruned : disk.prune path = .ok (gone, after)) :
    HasLinksOf disk after := by
  obtain ⟨present, -, pruned⟩ := Failure.bind_eq_ok_iff.mp pruned
  split at pruned
  · rw [← (Prod.mk.inj (Except.ok.inj pruned)).2]
    exact .refl disk
  · obtain ⟨location, -, pruned⟩ := Failure.bind_eq_ok_iff.mp pruned
    have swept := hasLinksOf_sweep disk path (location.found.getD (.folder [])).foldersUp
    dsimp only at pruned
    split at pruned
    · next removed =>
      rw [← (Prod.mk.inj (Except.ok.inj pruned)).2]
      exact swept.trans (hasLinksOf_removeFolder removed)
    · rw [← (Prod.mk.inj (Except.ok.inj pruned)).2]
      exact swept

theorem MeetsNoLink.prune_erased (meets : disk.MeetsNoLink path) :
    disk.erased.prune path =
      (disk.prune path).map fun pruned => (pruned.1, pruned.2.erased) := by
  unfold prune
  rw [meets.isFolder_erased]
  cases disk.isFolder path with
  | error failure => rfl
  | ok present =>
    cases present with
    | false => rfl
    | true =>
      rcases meets.locate_erased true with ⟨failure, first, second⟩ | ⟨found, -, first, second⟩
      · rw [first, second]
        rfl
      · have folders : ((found.map Entry.erased).getD (.folder [])).foldersUp =
            (found.getD (.folder [])).foldersUp := by
          cases found with
          | none => rfl
          | some entry => exact entry.foldersUp_erased
        have swept := hasLinksOf_sweep disk path (found.getD (.folder [])).foldersUp
        have removed := (meets.of_hasLinksOf swept).removeFolder_erased
        rw [first, second]
        dsimp only [bind, Except.bind]
        rw [folders, meets.sweep_erased, removed]
        cases (disk.sweep path (found.getD (.folder [])).foldersUp).removeFolder path <;> rfl

end

end Disk

end LuauReference
