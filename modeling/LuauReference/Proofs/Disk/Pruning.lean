/-
This file proves that pruning takes away exactly the folders without a file beneath them. A folder
becomes empty only because the folders in it have gone, so what counts about the walk is its order:
the folders in a folder come before it. When it is the turn of a folder, a file lies beneath each of
those that are left in it, and so it is empty exactly when no file lies beneath it.

The path of the folder is looked up again for every removal. One that climbs down into an inner
folder and up again leads nowhere once this folder is gone, and one that ends in two dots does not
call the folder by its name. Both leave folders behind.
-/

import LuauReference.Proofs.Disk.Operation
import LuauReference.Proofs.Disk.Subtree

namespace LuauReference

namespace Entry

/-! ### Files beneath a place -/

/-- Whether there is a file beneath a place, however deep. -/
def HasFileBeneath (root : Entry) (place : Place) : Prop :=
  ∃ name rest bytes, root.fileAt? (place ++ name :: rest) = some bytes

section

variable {root : Entry} {place : Place}

theorem HasFileBeneath.hasFolderAt (filled : root.HasFileBeneath place) :
    root.HasFolderAt place := by
  obtain ⟨name, rest, bytes, found⟩ := filled
  exact hasFolderAt_of_at?_append (fileAt?_eq_some_iff.mp found)

theorem HasFileBeneath.of_append {inner : Place} (filled : root.HasFileBeneath (place ++ inner)) :
    root.HasFileBeneath place := by
  obtain ⟨name, rest, bytes, found⟩ := filled
  rw [List.append_assoc] at found
  cases inner with
  | nil => exact ⟨name, rest, bytes, found⟩
  | cons first more => exact ⟨first, more ++ name :: rest, bytes, found⟩

/-- In a folder that is not empty there is a file or a folder. -/
theorem hasFileBeneath_or_hasFolderAt (plain : root.IsPlain) {item : Text × Entry}
    {items : List (Text × Entry)} (found : root.at? place = some (folder (item :: items))) :
    root.HasFileBeneath place ∨ root.HasFolderAt (place ++ [item.1]) := by
  obtain ⟨name, entry⟩ := item
  have there : root.at? (place ++ [name]) = some entry := by
    rw [at?_append, found, Option.bind_some, at?_cons, Entry.entries, Named.get?_cons, if_pos rfl,
      Option.bind_some, at?_nil]
  cases entry with
  | file bytes => exact Or.inl ⟨name, [], bytes, fileAt?_eq_some_iff.mpr there⟩
  | link target => exact absurd there (plain.at?_ne_link _ target)
  | folder entries => exact Or.inr ⟨entries, there⟩

theorem not_hasFileBeneath_of_empty (empty : root.at? place = some (folder [])) :
    ¬ root.HasFileBeneath place := by
  rintro ⟨name, rest, bytes, found⟩
  rw [fileAt?_eq_some_iff, at?_append, empty] at found
  exact nomatch found

end

/-! ### The order of the walk -/

theorem foldersBelow_eq_flatMap (entries : List (Text × Entry)) :
    foldersBelow entries = entries.flatMap fun (name, entry) =>
      entry.foldersUp.map (name :: ·) := by
  induction entries with
  | nil => rw [foldersBelow, List.flatMap_nil]
  | cons item entries inductionHypothesis =>
    rw [foldersBelow, List.flatMap_cons, inductionHypothesis]

/-- The walk meets every folder. -/
theorem mem_foldersUp {root : Entry} {name : Text} {rest : Place}
    (present : root.HasFolderAt (name :: rest)) :
    name :: rest ∈ root.foldersUp := by
  induction rest generalizing root name with
  | nil =>
    obtain ⟨inner, found, entries, here⟩ := hasFolderAt_cons.mp present
    cases root with
    | file bytes | link target => exact nomatch found
    | folder others =>
      obtain rfl := Option.some.inj (inner.at?_nil.symm.trans here)
      have member := Named.mem_of_get?_eq_some found
      rw [foldersUp]
      exact List.mem_append_right _ (List.mem_map.mpr ⟨_, List.mem_filter.mpr ⟨member, rfl⟩, rfl⟩)
  | cons next rest inductionHypothesis =>
    obtain ⟨inner, found, below⟩ := hasFolderAt_cons.mp present
    cases root with
    | file bytes | link target => exact nomatch found
    | folder others =>
      rw [foldersUp, foldersBelow_eq_flatMap]
      exact List.mem_append_left _ (List.mem_flatMap.mpr
        ⟨_, Named.mem_of_get?_eq_some found, List.mem_map_of_mem (inductionHypothesis below)⟩)

theorem ne_nil_of_mem_foldersUp {root : Entry} {place : Place} (member : place ∈ root.foldersUp) :
    place ≠ [] := by
  rintro rfl
  cases root with
  | file bytes | link target => exact nomatch member
  | folder entries =>
    rw [foldersUp, foldersBelow_eq_flatMap] at member
    simp at member

/-- No folder comes before one that is inside of it. -/
theorem pairwise_foldersUp {root : Entry} (plain : root.IsPlain) :
    root.foldersUp.Pairwise fun early late => early <+: late → early = late := by
  induction plain with
  | file bytes => exact List.Pairwise.nil
  | @folder entries distinct inner inductionHypothesis =>
    have single {early : Place} {name : Text} (proper : early ≠ []) (below : early <+: [name]) :
        early = [name] := below.eq_of_length_le (List.length_pos_of_ne_nil proper)
    rw [foldersUp, foldersBelow_eq_flatMap, List.pairwise_append, List.pairwise_flatMap,
      List.pairwise_map]
    refine ⟨⟨fun item member => ?_, ?_⟩, ?_, fun early member late other below => ?_⟩
    · refine List.pairwise_map.mpr ((inductionHypothesis item member).imp fun ordered below => ?_)
      rw [ordered (List.cons_prefix_cons.mp below).2]
    · -- What is in different entries differs in the first name.
      refine (List.pairwise_map.mp distinct).imp fun differ early one late two below => ?_
      obtain ⟨_, _, rfl⟩ := List.mem_map.mp one
      obtain ⟨_, _, rfl⟩ := List.mem_map.mp two
      exact absurd (List.cons_prefix_cons.mp below).1 differ
    · exact List.pairwise_of_forall fun one two => single (List.cons_ne_nil _ _)
    · obtain ⟨item, _, rfl⟩ := List.mem_map.mp other
      obtain ⟨_, _, inside⟩ := List.mem_flatMap.mp member
      obtain ⟨_, _, rfl⟩ := List.mem_map.mp inside
      exact single (List.cons_ne_nil _ _) below

/-- The walk meets a folder after the folders in it. -/
theorem mem_of_foldersUp_eq {root : Entry} (plain : root.IsPlain) {done rest : List Place}
    {place : Place}
    {name : Text} (whole : root.foldersUp = done ++ place :: rest)
    (present : root.HasFolderAt (place ++ [name])) : place ++ [name] ∈ done := by
  have differ : place ++ [name] ≠ place := fun same =>
    List.cons_ne_nil name [] (List.append_right_eq_self.mp same)
  have met : place ++ [name] ∈ root.foldersUp := by
    obtain ⟨first, more, same⟩ :=
      List.exists_cons_of_ne_nil (List.append_ne_nil_of_right_ne_nil place
      (List.cons_ne_nil name []))
    rw [same] at present ⊢
    exact mem_foldersUp present
  have ordered := pairwise_foldersUp plain
  rw [whole] at met ordered
  rcases List.mem_append.mp met with early | late
  · exact early
  · rcases List.mem_cons.mp late with same | later
    · exact absurd same differ
    · have above := (List.pairwise_cons.mp (List.pairwise_append.mp ordered).2.1).1 _ later
      exact absurd (above (List.prefix_append _ _)).symm differ

end Entry

namespace Disk

/-! ### One folder after the other -/

/-- The condition that the places satisfy that are not strictly inside of a place. -/
def besides (out : Place) : Place → Prop := fun place => out <+: place → place = out

/-- Whether a path passes no place strictly inside of the one it leads to. -/
def IsDirect (disk : Disk) (path : Path) : Prop :=
  ∀ place ∈ disk.placesPassed path, besides (disk.placeOf path) place

/-- What holds between a disk and what is left of it when the folders at some places inside of
another one have had their turn. -/
structure HasSwept (before now : Disk) (out : Place) (done : List Place) : Prop where
  keeps : Keeps (besides out) before now
  files : now.files = before.files
  fewer : ∀ place, now.root.HasFolderAt place → before.root.HasFolderAt place
  filled : ∀ inner ∈ done, now.root.HasFolderAt (out ++ inner) →
    before.root.HasFileBeneath (out ++ inner)

section

variable {before now : Disk} {path : Path} {done : List Place}

theorem hasFileBeneath_iff_of_files (same : now.files = before.files) {place : Place} :
    now.root.HasFileBeneath place ↔ before.root.HasFileBeneath place := by
  have each (other : Place) : now.root.fileAt? other = before.root.fileAt? other :=
    congrFun same other
  simp only [Entry.HasFileBeneath, each]

theorem HasSwept.refl (plain : before.root.IsPlain) (out : Place) : HasSwept before before out [] :=
  ⟨.refl plain _, rfl, fun _ present => present, List.forall_mem_nil _⟩

/-- The folders that have had their turn and are left are those with a file beneath them. -/
theorem HasSwept.hasFolderAt_iff {out inner : Place} (swept : HasSwept before now out done)
    (met : before.root.HasFolderAt (out ++ inner) → inner ∈ done) :
    now.root.HasFolderAt (out ++ inner) ↔ before.root.HasFileBeneath (out ++ inner) :=
  ⟨fun left => swept.filled inner (met (swept.fewer _ left)) left,
    fun filled => ((hasFileBeneath_iff_of_files swept.files).mpr filled).hasFolderAt⟩

/-- A direct path is followed as before when folders inside of the one it leads to are gone. -/
theorem CanFollow.of_hasSwept (can : before.CanFollow path) (direct : before.IsDirect path)
    (swept : HasSwept before now (before.placeOf path) done) : now.CanFollow path where
  usable := can.usable
  way place member := by
    rw [swept.keeps.placesPassed] at member
    exact swept.keeps.folders place (direct place member) (can.way place member)

theorem removeIfEmpty_of_empty {disk : Disk} (plain : disk.root.IsPlain) (can : disk.CanFollow path)
    {inner : Place} (empty : disk.root.at? (disk.placeOf path ++ inner) = some (.folder [])) :
    removeIfEmpty path disk inner =
      { disk with root := disk.root.remove (disk.placeOf path ++ inner) } := by
  simp only [removeIfEmpty, can.locate_eq plain true, empty]

/-- An empty folder whose turn it is may go. -/
theorem HasSwept.remove {out inner : Place} (swept : HasSwept before now out done)
    (proper : inner ≠ [])
    (empty : now.root.at? (out ++ inner) = some (.folder [])) :
    HasSwept before { now with root := now.root.remove (out ++ inner) } out (done ++ [inner]) := by
  obtain ⟨keeps, same⟩ := keeps_removeEmpty swept.keeps.plain empty
  refine ⟨swept.keeps.trans
    ⟨keeps.start, keeps.plain, fun place here => keeps.folders place fun below => ?_⟩,
    same.trans swept.files,
    fun place present => swept.fewer place (Entry.hasFolderAt_of_remove present),
    List.forall_mem_append.mpr ⟨fun other member present => ?_, List.forall_mem_singleton.mpr ?_⟩⟩
  · have up := here ((List.prefix_append out inner).trans below)
    exact proper (List.append_right_eq_self.mp ((up ▸ below).eq_of_length_le (by simp)))
  · exact swept.filled other member (Entry.hasFolderAt_of_remove present)
  · rintro ⟨entries, found⟩
    have below : out ++ inner ≠ [] := List.append_ne_nil_of_right_ne_nil out proper
    exact nomatch (Entry.at?_remove_self below).symm.trans found

/-- There is a file beneath a folder that is not empty after the folders in it have had their
turn. -/
theorem HasSwept.stay {out inner : Place} (swept : HasSwept before now out done)
    (earlier : ∀ name, before.root.HasFolderAt (out ++ (inner ++ [name])) → inner ++ [name] ∈ done)
    (full : now.root.at? (out ++ inner) ≠ some (.folder [])) :
    HasSwept before now out (done ++ [inner]) := by
  refine ⟨swept.keeps, swept.files, swept.fewer,
    List.forall_mem_append.mpr ⟨swept.filled, List.forall_mem_singleton.mpr ?_⟩⟩
  rintro ⟨entries, found⟩
  cases entries with
  | nil => exact absurd found full
  | cons item items =>
    rcases Entry.hasFileBeneath_or_hasFolderAt swept.keeps.plain found with filled | folder
    · exact (hasFileBeneath_iff_of_files swept.files).mp filled
    · rw [List.append_assoc] at folder
      have filled := swept.filled _ (earlier item.1 (swept.fewer _ folder)) folder
      rw [← List.append_assoc] at filled
      exact filled.of_append

/-- When it is the turn of a folder after those in it, it goes or there is a file beneath it. -/
theorem HasSwept.step (swept : HasSwept before now (before.placeOf path) done)
    (can : before.CanFollow path)
    (direct : before.IsDirect path) {inner : Place} (proper : inner ≠ [])
    (earlier : ∀ name, before.root.HasFolderAt (before.placeOf path ++ (inner ++ [name])) →
      inner ++ [name] ∈ done) :
    HasSwept before (removeIfEmpty path now inner) (before.placeOf path) (done ++ [inner]) := by
  have here := swept.keeps.placeOf path
  by_cases empty : now.root.at? (now.placeOf path ++ inner) = some (.folder [])
  · rw [removeIfEmpty_of_empty swept.keeps.plain (can.of_hasSwept direct swept) empty, here]
    exact swept.remove proper (here ▸ empty)
  · have stays :=
      (removeIfEmpty_cases swept.keeps.plain path inner).resolve_right fun found => empty found.1
    rw [stays]
    exact swept.stay earlier (here ▸ empty)

/-- After any part of the walk, each folder that had its turn is gone or has a file beneath it. -/
theorem hasSwept_sweep {disk : Disk} (plain : disk.root.IsPlain) (can : disk.CanFollow path)
    (direct : disk.IsDirect path) {entry : Entry}
    (found : disk.root.at? (disk.placeOf path) = some entry)
    {rest : List Place} (whole : entry.foldersUp = done ++ rest) :
    HasSwept disk (disk.sweep path done) (disk.placeOf path) done := by
  induction done using List.reverseRecOn generalizing rest with
  | nil => exact .refl plain _
  | append_singleton done inner inductionHypothesis =>
    rw [List.append_assoc, List.singleton_append] at whole
    have member : inner ∈ entry.foldersUp := whole ▸ List.mem_append_right done List.mem_cons_self
    rw [sweep, List.foldl_concat]
    refine (inductionHypothesis whole).step can direct (Entry.ne_nil_of_mem_foldersUp member) ?_
    rintro name ⟨entries, present⟩
    rw [Entry.at?_append, found] at present
    exact Entry.mem_of_foldersUp_eq (plain.of_at? found) whole ⟨entries, present⟩

/-! ### The folder itself -/

theorem placeOf_ne_nil_of_isNamed {disk : Disk} (named : path.isNamed = true) :
    disk.placeOf path ≠ [] := by
  obtain ⟨name, last, ordinary⟩ := (Option.any_eq_true _ _).mp named
  obtain ⟨front, names⟩ := List.getLast?_eq_some_iff.mp last
  rw [placeOf, names, destination_append, destination_cons, destination_nil,
    stepTo_of_ne (by simpa using ordinary)]
  exact List.append_ne_nil_of_right_ne_nil _ (List.cons_ne_nil name [])

/-- What pruning a folder leaves of a disk: of the folder and of those in it the ones with a file
beneath them, and all that is elsewhere. The folder itself stays also when the path does not call it
by its name. -/
structure HasPruned (disk : Disk) (path : Path) (gone : Bool) (after : Disk) : Prop where
  files : after.files = disk.files
  whether : gone = true ↔ path.isNamed = true ∧ ¬ disk.root.HasFileBeneath (disk.placeOf path)
  inside : ∀ inner, after.root.HasFolderAt (disk.placeOf path ++ inner) ↔
    disk.root.HasFileBeneath (disk.placeOf path ++ inner) ∨ (inner = [] ∧ path.isNamed = false)
  elsewhere : ∀ other, ¬ disk.placeOf path <+: other →
    (after.root.HasFolderAt other ↔ disk.root.HasFolderAt other)

/-- After the whole walk, the folders in a folder are those with a file beneath them. -/
theorem HasSwept.hasFolderAt_inside {out : Place} {items : List (Text × Entry)}
    (found : before.root.at? out = some (.folder items))
    (swept : HasSwept before now out (Entry.folder items).foldersUp) (name : Text) (rest : Place) :
    now.root.HasFolderAt (out ++ name :: rest) ↔
      before.root.HasFileBeneath (out ++ name :: rest) := by
  refine swept.hasFolderAt_iff fun ⟨entries, present⟩ => Entry.mem_foldersUp ?_
  rw [Entry.at?_append, found] at present
  exact ⟨entries, present⟩

theorem HasSwept.hasFolderAt_elsewhere {out other : Place} (swept : HasSwept before now out done)
    (away : ¬ out <+: other) : now.root.HasFolderAt other ↔ before.root.HasFolderAt other :=
  ⟨swept.fewer other, swept.keeps.folders other fun below => absurd below away⟩

/-- A folder that is empty after the walk goes under its name, and there was no file beneath it. -/
theorem HasSwept.hasPruned_of_empty (swept : HasSwept before now (before.placeOf path) done)
    (named : path.isNamed = true) (empty : now.root.at? (before.placeOf path) = some (.folder [])) :
    HasPruned before path true
      { now with root := now.root.remove (before.placeOf path) } := by
  have bare : ¬ before.root.HasFileBeneath (before.placeOf path) := fun filled =>
    Entry.not_hasFileBeneath_of_empty empty ((hasFileBeneath_iff_of_files swept.files).mpr filled)
  obtain ⟨keeps, same⟩ := keeps_removeEmpty swept.keeps.plain empty
  refine ⟨same.trans swept.files, iff_of_true rfl ⟨named, bare⟩, fun inner => ?_,
    fun other away => ?_⟩
  · refine iff_of_false (fun left => ?_) ?_
    · obtain ⟨_, left⟩ := Entry.hasFolderAt_of_isPrefix left (List.prefix_append _ inner)
      exact nomatch (Entry.at?_remove_self (placeOf_ne_nil_of_isNamed named)).symm.trans left
    · rintro (filled | ⟨-, unnamed⟩)
      · exact bare filled.of_append
      · exact Bool.false_ne_true (unnamed.symm.trans named)
  · rw [← swept.hasFolderAt_elsewhere away]
    exact ⟨Entry.hasFolderAt_of_remove, keeps.folders other away⟩

/-- A folder that stays after the walk has a file beneath it or is not called by its name. -/
theorem HasSwept.hasPruned_of_kept {items : List (Text × Entry)}
    (found : before.root.at? (before.placeOf path) = some (.folder items))
    (swept : HasSwept before now (before.placeOf path) (Entry.folder items).foldersUp)
    (stays : before.root.HasFileBeneath (before.placeOf path) ∨ path.isNamed = false) :
    HasPruned before path false now := by
  have refuses : ¬ (path.isNamed = true ∧ ¬ before.root.HasFileBeneath (before.placeOf path)) :=
    fun ⟨named, bare⟩ => stays.elim bare fun unnamed =>
      Bool.false_ne_true (unnamed.symm.trans named)
  refine ⟨swept.files, iff_of_false Bool.false_ne_true refuses, fun inner => ?_,
    fun _ => swept.hasFolderAt_elsewhere⟩
  cases inner with
  | nil =>
    rw [List.append_nil]
    refine iff_of_true ?_ (stays.imp_right fun unnamed => ⟨rfl, unnamed⟩)
    exact swept.keeps.folders (before.placeOf path) (fun _ => rfl) ⟨items, found⟩
  | cons name rest =>
    exact (swept.hasFolderAt_inside found name rest).trans
      ⟨Or.inl, fun other => other.resolve_right nofun⟩

end

section

variable {disk : Disk} {path : Path} (plain : disk.root.IsPlain) (can : disk.CanFollow path)

include plain can

theorem removeFolder_of_empty (named : path.isNamed = true)
    (empty : disk.root.at? (disk.placeOf path) = some (.folder [])) :
    disk.removeFolder path = .ok { disk with root := disk.root.remove (disk.placeOf path) } := by
  rw [removeFolder, can.locate_eq plain false, empty]
  exact if_pos named

/-- Pruning a folder leaves of it and of the folders in it those with a file beneath them. The
folder itself stays also when the path does not call it by its name. -/
theorem prune_of_direct (direct : disk.IsDirect path) (present : disk.isFolder path = .ok true) :
    ∃ gone after, disk.prune path = .ok (gone, after) ∧ HasPruned disk path gone after := by
  obtain ⟨place, items, located⟩ := isFolder_eq_true_iff.mp present
  have found := (Location.mk.inj (locate_eq_ok plain located).1).2.symm
  have walk : disk.innerFolders path = (Entry.folder items).foldersUp := by
    rw [innerFolders, found]
    rfl
  have swept := hasSwept_sweep plain can direct found (List.append_nil _).symm
  have followed := can.of_hasSwept direct swept
  have place := swept.keeps.placeOf path
  rw [prune_of_isFolder plain present, walk]
  generalize disk.sweep path (Entry.folder items).foldersUp = now at swept followed place
  cases removed : now.removeFolder path with
  | ok after =>
    obtain ⟨named, empty, rfl⟩ := exists_of_removeFolder swept.keeps.plain removed
    rw [place] at empty ⊢
    exact ⟨true, _, rfl, swept.hasPruned_of_empty named empty⟩
  | error failure =>
    refine ⟨false, now, rfl, swept.hasPruned_of_kept found ?_⟩
    -- Under its name, only a folder that is not empty is refused.
    refine or_iff_not_imp_right.mpr fun unnamed => ?_
    have named : path.isNamed = true := Bool.not_eq_false _ ▸ unnamed
    obtain ⟨entries, here⟩ := swept.keeps.folders (disk.placeOf path) (fun _ => rfl) ⟨items, found⟩
    cases entries with
    | nil =>
      have goes := removeFolder_of_empty swept.keeps.plain followed named (place ▸ here)
      exact nomatch removed.symm.trans goes
    | cons item others =>
      rcases Entry.hasFileBeneath_or_hasFolderAt swept.keeps.plain here with filled | folder
      · exact (hasFileBeneath_iff_of_files swept.files).mp filled
      · exact ((swept.hasFolderAt_inside found item.1 []).mp folder).of_append

end

/-- Pruning takes away exactly the folders without a file beneath them. Of the folder of the path
and of the folders inside of it those stay that have one, all files stay as they are, nothing
changes elsewhere, and the result says whether the folder of the path went away. This one stays also
when the path does not call it by its name. A path that leads to no folder changes nothing. Paths
that are not absolute begin in a folder, as those of every program do. -/
theorem prune_leaves_filled {disk : Disk} (plain : disk.root.IsPlain)
    (begins : disk.root.HasFolderAt disk.start) {path : Path} (direct : disk.IsDirect path) :
    (path.IsUsable → ∃ present, disk.isFolder path = .ok present) ∧
      ∀ present, disk.isFolder path = .ok present →
        ∃ gone after, disk.prune path = .ok (gone, after) ∧ after.files = disk.files ∧
          (gone = true ↔ present = true ∧ path.isNamed = true ∧
            ¬ disk.root.HasFileBeneath (disk.placeOf path)) ∧
          (present = true → ∀ inner, after.root.HasFolderAt (disk.placeOf path ++ inner) ↔
            disk.root.HasFileBeneath (disk.placeOf path ++ inner) ∨
            (inner = [] ∧ path.isNamed = false)) ∧
          (present = false → after = disk) ∧
          ∀ other, ¬ disk.placeOf path <+: other →
            (after.root.HasFolderAt other ↔ disk.root.HasFolderAt other) := by
  refine ⟨exists_isFolder plain, fun present asked => ?_⟩
  cases present with
  | false =>
    have unchanged : disk.prune path = .ok (false, disk) := by
      rw [prune, asked]
      rfl
    exact ⟨false, disk, unchanged, rfl, by simp, nofun, fun _ => rfl, fun _ _ => Iff.rfl⟩
  | true =>
    obtain ⟨place, entries, located⟩ := isFolder_eq_true_iff.mp asked
    have followed := (locate_eq_ok plain located).2
    have can : disk.CanFollow path :=
      ⟨followed.usable, fun above member => (followed.way above member).elim id
      fun below => Entry.hasFolderAt_of_isPrefix (hasFolderAt_startOf begins path) below⟩
    obtain ⟨gone, after, pruned, left⟩ := prune_of_direct plain can direct asked
    exact ⟨gone, after, pruned, left.files, by simpa using left.whether, fun _ => left.inside,
      nofun, left.elsewhere⟩

/-- A disk with a folder `out` that holds some entries. -/
def outDisk (entries : List (Text × Entry)) : Disk :=
  ⟨.folder [("out".toList, .folder entries)], []⟩

theorem isPlain_single (name : Text) {entry : Entry} (plain : entry.IsPlain) :
    (Entry.folder [(name, entry)]).IsPlain :=
  .folder (List.nodup_singleton _) (List.forall_mem_singleton.mpr plain)

theorem not_hasFileBeneath_of_nested {root : Entry} {place : Place} {name : Text}
    (found : root.at? place = some (.folder [(name, .folder [])])) :
    ¬ root.HasFileBeneath place := by
  rintro ⟨other, rest, bytes, below⟩
  rw [Entry.fileAt?_eq_some_iff, Entry.at?_append, found, Option.bind_some, Entry.at?_cons,
    Option.bind_eq_some_iff] at below
  obtain ⟨inner, here, below⟩ := below
  obtain ⟨-, rfl⟩ := Prod.mk.inj (List.mem_singleton.mp (Named.mem_of_get?_eq_some here))
  cases rest <;> exact nomatch below

/-- Of two folders, one of which holds a file and the other one an empty folder, the first is
left. -/
theorem prune_leaves_filled_nested :
    ∃ after, (outDisk [("a".toList, .folder [("b".toList, .folder [])]),
        ("c".toList, .folder [("f".toList, .file [])])]).prune ⟨0, ["out".toList]⟩ =
          .ok (false, after) ∧
      ¬ after.root.HasFolderAt ["out".toList, "a".toList] ∧
      after.root.HasFolderAt ["out".toList, "c".toList] := by
  have first := isPlain_single "b".toList Entry.isPlain_folder_nil
  have second := isPlain_single "f".toList (.file [])
  have both : (Entry.folder [("a".toList, .folder [("b".toList, .folder [])]),
      ("c".toList, .folder [("f".toList, .file [])])]).IsPlain :=
    .folder (by decide) (List.forall_mem_cons.mpr ⟨first, List.forall_mem_singleton.mpr second⟩)
  have direct : (outDisk [("a".toList, .folder [("b".toList, .folder [])]),
      ("c".toList, .folder [("f".toList, .file [])])]).IsDirect ⟨0, ["out".toList]⟩ :=
    List.forall_mem_singleton.mpr fun below => absurd below (by decide)
  obtain ⟨-, holds⟩ := prune_leaves_filled (isPlain_single "out".toList both) ⟨_, rfl⟩ direct
  obtain ⟨gone, after, pruned, -, whether, inside, -, -⟩ := holds true rfl
  cases gone with
  | true => exact absurd ⟨"c".toList, ["f".toList], [], rfl⟩ (whether.mp rfl).2.2
  | false =>
    refine ⟨after, pruned, fun left => ?_,
      (inside rfl ["c".toList]).mpr (Or.inl ⟨"f".toList, [], [], rfl⟩)⟩
    exact not_hasFileBeneath_of_nested rfl (((inside rfl ["a".toList]).mp left).resolve_right nofun)

/-- Whether the folder of a path is removed exactly when there is no file beneath it. -/
def GoesIfBare (disk : Disk) (path : Path) : Prop :=
  ∃ gone after, disk.prune path = .ok (gone, after) ∧
    (gone = true ↔ disk.isFolder path = .ok true ∧ ¬ disk.root.HasFileBeneath (disk.placeOf path))

/-- Both conditions on the path are needed. One that climbs down into an inner folder and up again
is not followed any more when this folder is gone, and a single dot is no name to remove a folder
under. The folder stays, though nothing is in it. -/
theorem not_prune_leaves_filled :
    (¬ ∀ (disk : Disk) (path : Path), disk.root.IsPlain → disk.root.HasFolderAt disk.start →
      path.isNamed = true → disk.GoesIfBare path) ∧
    ¬ ∀ (disk : Disk) (path : Path), disk.root.IsPlain → disk.root.HasFolderAt disk.start →
      disk.IsDirect path → disk.GoesIfBare path := by
  refine ⟨fun claim => ?_, fun claim => ?_⟩
  · have plain := isPlain_single "out".toList (isPlain_single "x".toList Entry.isPlain_folder_nil)
    obtain ⟨gone, after, pruned, whether⟩ := claim (outDisk [("x".toList, .folder [])])
      ⟨0, ["out".toList, "x".toList, "..".toList, "..".toList, "out".toList]⟩ plain ⟨_, rfl⟩ rfl
    have stays : (outDisk [("x".toList, .folder [])]).prune
        ⟨0, ["out".toList, "x".toList, "..".toList, "..".toList, "out".toList]⟩ =
          .ok (false, outDisk []) := rfl
    obtain ⟨rfl, -⟩ := Prod.mk.inj (Except.ok.inj (stays.symm.trans pruned))
    exact Bool.false_ne_true (whether.mpr ⟨rfl, not_hasFileBeneath_of_nested rfl⟩)
  · obtain ⟨gone, after, pruned, whether⟩ :=
      claim { outDisk [] with start := ["out".toList] } ⟨0, []⟩
      (isPlain_single "out".toList Entry.isPlain_folder_nil) ⟨_, rfl⟩ (List.forall_mem_nil _)
    have stays : ({ outDisk [] with start := ["out".toList] } : Disk).prune ⟨0, []⟩ =
        .ok (false, { outDisk [] with start := ["out".toList] }) := rfl
    obtain ⟨rfl, -⟩ := Prod.mk.inj (Except.ok.inj (stays.symm.trans pruned))
    exact Bool.false_ne_true (whether.mpr ⟨rfl, Entry.not_hasFileBeneath_of_empty rfl⟩)

end Disk

end LuauReference
