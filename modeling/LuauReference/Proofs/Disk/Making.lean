/-
This file proves that two disks which are alike stay alike when folders are made on the way to a
path, and that the folders are made on both disks or on none.

Where the path begins in a folder that stays, the folders on its way need not be the same before.
They are followed from the top down, and after each of them the next one is there on both disks or
can be made on neither. Where the path begins in the compared place itself, everything on its way is
known, and the two disks answer in the same words.
-/

import LuauReference.Proofs.Disk.Likeness

namespace LuauReference

namespace Disk

section

variable {view : View} {one two : Disk}

/-! ### Folders on the way -/

/-- Where the way is there, a folder is made or found unless a file is in its place. -/
theorem CanFollow.ensureFolder_cases {disk : Disk} {path : Path} (can : disk.CanFollow path)
    (plain : disk.root.IsPlain) :
    (∃ bytes failure, disk.files (disk.placeOf path) = some bytes ∧
        disk.ensureFolder path = .error failure) ∨
      disk.files (disk.placeOf path) = none ∧
        (disk.root.HasFolderAt (disk.placeOf path) ∧ disk.ensureFolder path = .ok disk ∨
          disk.root.at? (disk.placeOf path) = none ∧ disk.ensureFolder path =
            .ok { disk with root := disk.root.put (disk.placeOf path) (.folder []) }) := by
  have made := ensureFolder_eq plain can.usable.isTaken
  have arrived : descend disk.root false (disk.startOf path) path.names =
      .arrived ⟨disk.placeOf path, disk.root.at? (disk.placeOf path)⟩ :=
    descend_of_way plain can.usable.names can.way false
  rw [arrived] at made
  cases found : disk.root.at? (disk.placeOf path) with
  | none =>
    rw [found] at made
    exact Or.inr ⟨Entry.fileAt?_of_at?_eq_none found, Or.inr ⟨rfl, made⟩⟩
  | some entry =>
    rw [found] at made
    cases entry with
    | file bytes => exact Or.inl ⟨bytes, _, Entry.fileAt?_eq_some_iff.mpr found, made⟩
    | link target => exact absurd found (plain.at?_ne_link _ target)
    | folder entries =>
      exact Or.inr ⟨Entry.fileAt?_of_hasFolderAt ⟨entries, found⟩, Or.inl ⟨⟨entries, found⟩, made⟩⟩

theorem hasFolderAt_of_ensureFolder {disk made : Disk} (plain : disk.root.IsPlain) {path : Path}
    (begins : disk.root.HasFolderAt (disk.startOf path))
    (way : ∀ place ∈ disk.placesPassed path, disk.root.HasFolderAt place)
    (done : disk.ensureFolder path = .ok made) : made.root.HasFolderAt (disk.placeOf path) := by
  have can : disk.CanFollow path := ⟨(exists_of_ensureFolder plain done).1.usable, way⟩
  rcases can.ensureFolder_cases plain with ⟨bytes, failure, -, refused⟩ |
    ⟨-, ⟨present, same⟩ | ⟨-, same⟩⟩
  · exact nomatch refused.symm.trans done
  · exact Except.ok.inj (same.symm.trans done) ▸ present
  · rw [← Except.ok.inj (same.symm.trans done)]
    have clear := isClear_destination (fun place member => Or.inl (way place member))
      (.of_hasFolderAt begins)
    have found := Entry.at?_put_append (.folder []) [] clear
    rw [List.append_nil] at found
    exact ⟨[], found⟩

theorem exists_ensureFolder_eq_error {disk : Disk} (plain : disk.root.IsPlain) {path : Path}
    (unusable : ¬ path.IsUsable) : ∃ failure, disk.ensureFolder path = .error failure := by
  cases result : disk.ensureFolder path with
  | ok made => exact absurd (exists_of_ensureFolder plain result).1.usable unusable
  | error failure => exact ⟨failure, rfl⟩

/-- Where the disks have the same entry, both make the folder or none has to. -/
theorem Alike.ensureFolder_below (alike : Alike view one two) {path : Path}
    (begins : view.kept (one.startOf path)) (canOne : one.CanFollow path)
    (canTwo : two.CanFollow path) (below : view.here <+: one.placeOf path)
    (noFile : one.files (one.placeOf path) = none) :
    ∃ left right, one.ensureFolder path = .ok left ∧ two.ensureFolder path = .ok right ∧
      Alike view left right := by
  have same := alike.at?_eq below
  obtain ⟨-, first⟩ := (canOne.ensureFolder_cases alike.plain.1).resolve_left fun ⟨_, _, file, _⟩ =>
    nomatch file.symm.trans noFile
  have second := canTwo.ensureFolder_cases alike.plain.2
  rw [alike.placeOf] at second
  obtain ⟨-, second⟩ := second.resolve_left fun ⟨_, _, file, _⟩ =>
    nomatch file.symm.trans ((Entry.fileAt?_of_at? same).trans noFile)
  have unmade {disk : Disk} {place : Place} (present : disk.root.HasFolderAt place) :
      disk.root.at? place ≠ none := fun absent => nomatch present.choose_spec.symm.trans absent
  rcases first with ⟨present, made⟩ | ⟨absent, made⟩
  · rcases second with ⟨-, again⟩ | ⟨missing, -⟩
    · exact ⟨one, two, made, again, alike⟩
    · exact absurd (same.symm.trans missing) (unmade present)
  · rcases second with ⟨present, -⟩ | ⟨-, again⟩
    · exact absurd (same.trans absent) (unmade present)
    · have start := alike.folders _ begins
      have clearOne := isClear_destination (fun place member => Or.inl (canOne.way place member))
        (.of_hasFolderAt start.1)
      have clearTwo := isClear_destination (fun place member => Or.inl (canTwo.way place member))
        (.of_hasFolderAt (alike.startOf path ▸ start.2))
      rw [alike.startOf] at clearTwo
      exact ⟨_, _, made, again, alike.put below Entry.isPlain_folder_nil
        (clearOne.of_isPrefix (isPrefix_dropLast below))
        (clearTwo.of_isPrefix (isPrefix_dropLast below))⟩

/-- Folders that are made elsewhere are not compared. -/
theorem Alike.ensureFolder_beside (alike : Alike view one two) {path : Path} {left right : Disk}
    (beside : ¬ view.here <+: one.placeOf path) (made : one.ensureFolder path = .ok left)
    (again : two.ensureFolder path = .ok right) : Alike view left right := by
  have half := alike.spared (spares_ensureFolder alike.plain.1 beside made) fun _ _ => trivial
  rw [← alike.placeOf] at beside
  exact (half.symm.spared (spares_ensureFolder alike.plain.2 beside again) fun _ _ => trivial).symm

/-- A folder whose way is there on both disks is made on both or on none. -/
theorem Alike.ensureFolder_cases (alike : Alike view one two) {path : Path}
    (begins : view.kept (one.startOf path))
    (way : ∀ place ∈ one.placesPassed path, one.root.HasFolderAt place ∧ two.root.HasFolderAt place)
    (sees : view.Sees (one.placeOf path)) :
    (∃ left right, one.ensureFolder path = .ok left ∧ two.ensureFolder path = .ok right ∧
        Alike view left right) ∨
      (∃ failure, one.ensureFolder path = .error failure) ∧
        ∃ failure, two.ensureFolder path = .error failure := by
  by_cases usable : path.IsUsable
  · have canOne : one.CanFollow path := ⟨usable, fun place member => (way place member).1⟩
    have canTwo : two.CanFollow path := by
      refine ⟨usable, fun place member => (way place ?_).2⟩
      rwa [alike.placesPassed] at member
    have files := alike.files_of_sees sees
    have second := canTwo.ensureFolder_cases alike.plain.2
    rw [alike.placeOf] at second
    rcases canOne.ensureFolder_cases alike.plain.1 with ⟨bytes, failure, file, refused⟩ |
      ⟨noFile, first⟩
    · obtain ⟨other, message, -, again⟩ := second.resolve_right fun none =>
        nomatch (file.symm.trans files.symm).trans none.1
      exact Or.inr ⟨⟨failure, refused⟩, message, again⟩
    · refine Or.inl ?_
      by_cases below : view.here <+: one.placeOf path
      · exact alike.ensureFolder_below begins canOne canTwo below noFile
      · obtain ⟨-, second⟩ := second.resolve_left fun ⟨_, _, file, _⟩ =>
          nomatch (file.symm.trans files).trans noFile
        obtain ⟨left, made⟩ : ∃ left, one.ensureFolder path = .ok left :=
          first.elim (fun found => ⟨_, found.2⟩) fun missing => ⟨_, missing.2⟩
        obtain ⟨right, again⟩ : ∃ right, two.ensureFolder path = .ok right :=
          second.elim (fun found => ⟨_, found.2⟩) fun missing => ⟨_, missing.2⟩
        exact ⟨left, right, made, again, alike.ensureFolder_beside below made again⟩
  · exact Or.inr ⟨exists_ensureFolder_eq_error alike.plain.1 usable,
      exists_ensureFolder_eq_error alike.plain.2 usable⟩

/-- When a folder is made on both disks, all folders on its way and the folder itself are there. -/
theorem Alike.hasFolderAt_passed (alike : Alike view one two) {path : Path} {left right : Disk}
    (begins : view.kept (one.startOf path))
    (way : ∀ place ∈ one.placesPassed path, one.root.HasFolderAt place ∧ two.root.HasFolderAt place)
    (made : one.ensureFolder path = .ok left) (again : two.ensureFolder path = .ok right) :
    ∀ place ∈ one.placesPassed path ++ [one.placeOf path],
      left.root.HasFolderAt place ∧ right.root.HasFolderAt place := by
  refine List.forall_mem_append.mpr ⟨fun above member => ?_, List.forall_mem_singleton.mpr ⟨?_, ?_⟩⟩
  · exact ⟨(ensureFolder_eq_ok alike.plain.1 made).1.folders above trivial (way above member).1,
      (ensureFolder_eq_ok alike.plain.2 again).1.folders above trivial (way above member).2⟩
  · exact hasFolderAt_of_ensureFolder alike.plain.1 (alike.folders _ begins).1
      (fun above member => (way above member).1) made
  · rw [← alike.placeOf]
    refine hasFolderAt_of_ensureFolder alike.plain.2
      (alike.startOf path ▸ (alike.folders _ begins).2) (fun above member => (way above ?_).2) again
    rwa [alike.placesPassed] at member

/-- Folders for a path that is not taken are made on no disk. -/
theorem exists_ensureFolders_eq_error {path : Path} (unfit : ¬ path.IsTaken) :
    ∃ failure, ∀ (disk : Disk) (above : Nat), disk.ensureFolders above path =
      (.error failure, disk) := by
  obtain ⟨failure, known, refusal⟩ := exists_locate_eq_error unfit
  refine ⟨failure, fun disk above => ?_⟩
  have made : disk.makeFolder path = .error failure := by
    rw [makeFolder, refusal]
    rfl
  have unmade : disk.ensureFolder path = .error failure := by
    rw [ensureFolder, made]
    rcases known with rfl | rfl
    · rfl
    · rw [isFolder, entryAt, refusal]
      rfl
  rw [ensureFolders.eq_def]
  dsimp only
  rw [unmade]
  rcases known with rfl | rfl <;> rfl

/-- The folder where paths begin is there already. -/
theorem ensured_start {disk : Disk} (plain : disk.root.IsPlain) {slashes : Nat}
    (begins : disk.root.HasFolderAt (disk.startOf ⟨slashes, []⟩))
    (taken : (⟨slashes, []⟩ : Path).IsTaken) :
    disk.ensured 0 ⟨slashes, []⟩ = (true, disk) := by
  have can : disk.CanFollow ⟨slashes, []⟩ :=
    ⟨⟨taken.noNull, taken.short, List.forall_mem_nil _⟩, List.forall_mem_nil _⟩
  rw [Disk.ensured, can.ensureFolders_eq plain begins]
  rfl

/-- Whether folders were made on both disks or on none, where they begin as on an earlier disk. What
is left behind is alike either way, and what was made is there. -/
structure BothEnsured (view : View) (origin : Disk) (path : Path) (first second : Bool × Disk) :
    Prop where
  same : second.1 = first.1
  after : Alike view first.2 second.2
  folders : first.1 = true → ∀ place ∈ origin.placesPassed path ++ [origin.placeOf path],
    first.2.root.HasFolderAt place ∧ second.2.root.HasFolderAt place

/-- One folder more is made on both disks or on none. -/
theorem BothEnsured.below {origin : Disk} (begins : origin.start = view.start) {slashes : Nat}
    {outer : List Text} {name : Text} {first second : Bool × Disk}
    (both : BothEnsured view origin ⟨slashes, outer⟩ first second)
    (start : view.kept (origin.startOf ⟨slashes, outer ++ [name]⟩))
    (sees : view.Sees (origin.placeOf ⟨slashes, outer ++ [name]⟩)) :
    BothEnsured view origin ⟨slashes, outer ++ [name]⟩
      (ensuredBelow ⟨slashes, outer ++ [name]⟩ first)
      (ensuredBelow ⟨slashes, outer ++ [name]⟩ second) := by
  obtain ⟨done, left⟩ := first
  obtain ⟨again, right⟩ := second
  obtain ⟨same, upper, folders⟩ := both
  obtain rfl : again = done := same
  cases again with
  | false => exact ⟨rfl, upper, fun wrong => absurd wrong Bool.false_ne_true⟩
  | true =>
    dsimp only at upper folders
    have same (path : Path) : left.startOf path = origin.startOf path := by
      rw [Disk.startOf, Disk.startOf, upper.starts.1, begins]
    have passes : left.placesPassed ⟨slashes, outer ++ [name]⟩ =
        origin.placesPassed ⟨slashes, outer⟩ ++ [origin.placeOf ⟨slashes, outer⟩] := by
      rw [Disk.placesPassed, same]
      exact passed_append _ _ _
    have place : left.placeOf ⟨slashes, outer ++ [name]⟩ = origin.placeOf
        ⟨slashes, outer ++ [name]⟩ := by
      rw [Disk.placeOf, same, Disk.placeOf]
    rw [← same] at start
    have way := folders rfl
    rw [← passes] at way
    rw [← place] at sees
    rcases upper.ensureFolder_cases start way sees with
      ⟨last, other, made, remade, after⟩ | ⟨⟨failure, refused⟩, message, rerefused⟩
    · rw [ensuredBelow_of_ok made, ensuredBelow_of_ok remade]
      refine ⟨rfl, after, fun _ => ?_⟩
      have there := upper.hasFolderAt_passed start way made remade
      rwa [place, Disk.placesPassed, same, ← Disk.placesPassed] at there
    · rw [ensuredBelow_of_error refused, ensuredBelow_of_error rerefused]
      exact ⟨rfl, upper, fun wrong => absurd wrong Bool.false_ne_true⟩

/-- Folders are made on both disks or on none, given that all places on their way are compared. -/
theorem Alike.ensured (alike : Alike view one two) {path : Path} (taken : path.IsTaken)
    (begins : view.kept (one.startOf path))
    (sees : ∀ place ∈ one.placesPassed path ++ [one.placeOf path], view.Sees place) :
    BothEnsured view one path (one.ensured path.names.length path)
      (two.ensured path.names.length path) := by
  obtain ⟨slashes, names⟩ := path
  induction names using List.reverseRecOn with
  | nil =>
    have start := alike.folders _ begins
    rw [List.length_nil, ensured_start alike.plain.1 start.1 taken,
      ensured_start alike.plain.2 (alike.startOf ⟨slashes, []⟩ ▸ start.2) taken]
    refine ⟨rfl, alike, fun _ place member => ?_⟩
    obtain rfl : place = one.startOf ⟨slashes, []⟩ := List.mem_singleton.mp member
    exact start
  | append_singleton outer name inductionHypothesis =>
    have parent : Path.parent ⟨slashes, outer ++ [name]⟩ = ⟨slashes, outer⟩ := by
      rw [Path.parent, List.dropLast_concat]
    have passes : one.placesPassed ⟨slashes, outer ++ [name]⟩ =
        one.placesPassed ⟨slashes, outer⟩ ++ [one.placeOf ⟨slashes, outer⟩] := passed_append _ _ _
    have proper : (⟨slashes, outer ++ [name]⟩ : Path).names ≠ [] :=
      List.append_ne_nil_of_right_ne_nil outer (List.cons_ne_nil name [])
    rw [passes] at sees
    have start := alike.folders _ begins
    have upper := inductionHypothesis (parent ▸ taken.parent) begins
      fun place member => sees place (List.mem_append_left _ member)
    rw [List.length_append, List.length_singleton, ensured_succ alike.plain.1 taken start.1 proper,
      ensured_succ alike.plain.2 taken (alike.startOf ⟨slashes, outer ++ [name]⟩ ▸ start.2) proper,
      parent]
    exact upper.below alike.starts.1 begins (sees _ (List.mem_append_right _ List.mem_cons_self))

/-- Folders that are made on one disk are made on the other. -/
theorem Alike.exists_ensureFolders (alike : Alike view one two) {path : Path}
    (taken : path.IsTaken) (begins : view.kept (one.startOf path))
    (sees : ∀ place ∈ one.placesPassed path ++ [one.placeOf path], view.Sees place) {left : Disk}
    (made : one.ensureFolders path.names.length path = (.ok (), left)) :
    ∃ right, two.ensureFolders path.names.length path = (.ok (), right) ∧ Alike view left right ∧
      ∀ place ∈ one.placesPassed path ++ [one.placeOf path],
        left.root.HasFolderAt place ∧ right.root.HasFolderAt place := by
  obtain ⟨same, after, folders⟩ := alike.ensured taken begins sees
  unfold Disk.ensured at same after folders
  rw [made] at same after folders
  rcases again : two.ensureFolders path.names.length path with ⟨failure | _, right⟩
  · rw [again] at same
    exact nomatch same
  · rw [again] at after folders
    exact ⟨right, rfl, after, folders rfl⟩

/-! ### Folders on a known way -/

/-- Where all places on the way of a path are known, both disks make the folder or both refuse it
in the same words. -/
theorem Alike.ensureFolder_level (alike : Alike view one two) (firm : view.IsFirm) {path : Path}
    (taken : path.IsTaken)
    (known : ∀ place ∈ one.placesPassed path ++ [one.placeOf path], view.Knows place) :
    (∃ left right, one.ensureFolder path = .ok left ∧ two.ensureFolder path = .ok right ∧
        Alike view left right) ∨
      ∃ failure, one.ensureFolder path = .error failure ∧
        two.ensureFolder path = .error failure := by
  rw [ensureFolder_eq alike.plain.1 taken, ensureFolder_eq alike.plain.2 taken, alike.startOf]
  rcases alike.descend_cases known with same | ⟨entries, others, first, second⟩
  · rw [same]
    cases found : descend one.root false (one.startOf path) path.names with
    | refused cause => exact Or.inr ⟨_, rfl, rfl⟩
    | link folder target rest => exact Or.inr ⟨_, rfl, rfl⟩
    | arrived location =>
      obtain ⟨place, _ | _ | _ | entries⟩ := location
      · obtain ⟨rfl, absent⟩ := Location.mk.inj (descend_eq_arrived alike.plain.1 found).1
        -- A folder that stays is not missing, so the place is known as one inside of the view.
        have below := (known _ (List.mem_append_right _ List.mem_cons_self)).resolve_right
          fun kept => nomatch absent.trans (alike.folders _ kept).1.choose_spec
        have clear := alike.folders _ firm.kept_dropLast
        exact Or.inl ⟨_, _, rfl, rfl, alike.put below Entry.isPlain_folder_nil
          (.of_hasFolderAt clear.1) (.of_hasFolderAt clear.2)⟩
      · exact Or.inr ⟨_, rfl, rfl⟩
      · exact Or.inr ⟨_, rfl, rfl⟩
      · exact Or.inl ⟨_, _, rfl, rfl, alike⟩
  · rw [first, second]
    exact Or.inl ⟨_, _, rfl, rfl, alike⟩

/-- Folders on a known way are made on both disks, or both refuse the same. -/
theorem Alike.ensureFolders_level (alike : Alike view one two) (firm : view.IsFirm) {path : Path}
    (taken : path.IsTaken) (above : Nat)
    (known : ∀ place ∈ one.placesPassed path ++ [one.placeOf path], view.Knows place) :
    (two.ensureFolders above path).1 = (one.ensureFolders above path).1 ∧
      Alike view (one.ensureFolders above path).2 (two.ensureFolders above path).2 := by
  let within (path : Path) : Prop :=
    path.IsTaken ∧ ∀ place ∈ one.placesPassed path ++ [one.placeOf path], view.Knows place
  have parent {path : Path} (inside : within path) : within path.parent :=
    ⟨inside.1.parent, fun place member => inside.2 place (mem_way_of_parent member)⟩
  refine ensureFolders_in_step (Alike view) within parent
    (fun {left right path} upper inside => ?_) alike ⟨taken, known⟩ above
  have start : left.startOf path = one.startOf path := by
    rw [Disk.startOf, Disk.startOf, upper.starts.1, alike.starts.1]
  refine upper.ensureFolder_level firm inside.1 ?_
  rw [Disk.placesPassed, Disk.placeOf, start]
  exact inside.2

end

end Disk

end LuauReference
