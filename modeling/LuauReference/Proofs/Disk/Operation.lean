/-
This file says what the operations of a plain disk do, once for each of them: which files there are
afterwards, and that folders stay. Later proofs know the operations by these statements only.
Removing and writing a file change the files at the place the path leads to and nowhere else; making
folders and pruning change no file.

That a file is there once it was written needs that the way to the place where the path begins is
clear. On a real disk it always is, since a program begins in a folder; here it says that this
folder was not replaced by a file. Without it, writing still changes no other file.
-/

import LuauReference.Proofs.Disk.Refusal
import LuauReference.Proofs.Run
import LuauReference.Proofs.Text.Line
import LuauReference.Proofs.Text.Utf8

namespace LuauReference

theorem Entry.isClear_iff {root : Entry} (plain : root.IsPlain) {place : Place} :
    root.IsClear place ↔ ∀ above, above <+: place → root.fileAt? above = none := by
  constructor
  · intro clear above below
    cases found : root.fileAt? above with
    | none => rfl
    | some bytes =>
      obtain ⟨entries, same⟩ := clear above below _ (fileAt?_eq_some_iff.mp found)
      exact nomatch same
  · intro absent above below entry found
    cases entry with
    | folder entries => exact ⟨entries, rfl⟩
    | file bytes => exact nomatch (fileAt?_eq_some_iff.mpr found).symm.trans (absent above below)
    | link target => exact absurd found (plain.at?_ne_link above target)

namespace Disk

/-- The files of a disk. -/
def files (disk : Disk) : Place → Option (List UInt8) :=
  disk.root.fileAt?

/-- With the same files the same places are clear. -/
theorem isClear_iff_of_files {disk after : Disk} (plain : disk.root.IsPlain)
    (stillPlain : after.root.IsPlain)
    (same : after.files = disk.files) {place : Place} :
    after.root.IsClear place ↔ disk.root.IsClear place := by
  have each (above : Place) : after.root.fileAt? above = disk.root.fileAt? above :=
    congrFun same above
  simp only [Entry.isClear_iff plain, Entry.isClear_iff stillPlain, each]

/-- What every operation leaves as it is: a plain disk stays plain, paths begin where they did, and
of the folders at least those stay that satisfy a condition. -/
structure Keeps (kept : Place → Prop) (before after : Disk) : Prop where
  start : after.start = before.start
  plain : after.root.IsPlain
  folders : ∀ place, kept place → before.root.HasFolderAt place → after.root.HasFolderAt place

/-- The condition that all folders satisfy. -/
def anywhere : Place → Prop := fun _ => True

/-- The condition that the folders outside of a place satisfy. -/
def outside (out : Place) : Place → Prop := fun place => ¬ out <+: place

theorem Keeps.refl {disk : Disk} (plain : disk.root.IsPlain) (kept : Place → Prop) :
    Keeps kept disk disk :=
  ⟨rfl, plain, fun _ _ present => present⟩

theorem Keeps.trans {kept : Place → Prop} {first second third : Disk}
    (early : Keeps kept first second)
    (late : Keeps kept second third) : Keeps kept first third :=
  ⟨late.start.trans early.start, late.plain,
    fun place here present => late.folders place here (early.folders place here present)⟩

theorem Keeps.weaken {before after : Disk} (keeps : Keeps anywhere before after)
    (kept : Place → Prop) : Keeps kept before after :=
  ⟨keeps.start, keeps.plain, fun place _ present => keeps.folders place trivial present⟩

theorem Keeps.startOf {kept : Place → Prop} {before after : Disk} (keeps : Keeps kept before after)
    (path : Path) : after.startOf path = before.startOf path := by
  rw [Disk.startOf, Disk.startOf, keeps.start]

theorem Keeps.placeOf {kept : Place → Prop} {before after : Disk} (keeps : Keeps kept before after)
    (path : Path) : after.placeOf path = before.placeOf path := by
  rw [Disk.placeOf, Disk.placeOf, keeps.startOf]

theorem Keeps.placesPassed {kept : Place → Prop} {before after : Disk}
    (keeps : Keeps kept before after) (path : Path) :
    after.placesPassed path = before.placesPassed path := by
  rw [Disk.placesPassed, Disk.placesPassed, keeps.startOf]

/-- A path that was followed once still can be when no folder has gone. -/
theorem HasFollowed.of_keeps {before after : Disk} {path : Path}
    (followed : before.HasFollowed path)
    (keeps : Keeps anywhere before after) : after.HasFollowed path := by
  refine ⟨followed.usable, fun place member => ?_⟩
  rw [keeps.placesPassed] at member
  rw [keeps.startOf]
  exact (followed.way place member).imp_left (keeps.folders place trivial)

/-! ### Files -/

/-- Removing a file takes away what its path leads to, unless that is a folder. -/
theorem exists_of_removeFile {disk after : Disk} (plain : disk.root.IsPlain) {path : Path}
    (removed : disk.removeFile path = .ok after) :
    disk.HasFollowed path ∧ ¬ disk.root.HasFolderAt (disk.placeOf path) ∧
      after = { disk with root := disk.root.remove (disk.placeOf path) } := by
  unfold removeFile at removed
  obtain ⟨location, located, removed⟩ := Failure.bind_eq_ok_iff.mp removed
  obtain ⟨rfl, followed⟩ := locate_eq_ok plain located
  dsimp only at removed
  split at removed
  · exact nomatch removed
  · exact nomatch removed
  · next entry noFolder found =>
    refine ⟨followed, ?_, (Except.ok.inj removed).symm⟩
    rintro ⟨entries, here⟩
    exact noFolder entries (Option.some.inj (found.symm.trans here))

theorem keeps_removeFile {disk after : Disk} (plain : disk.root.IsPlain) {path : Path}
    (removed : disk.removeFile path = .ok after) : Keeps anywhere disk after := by
  obtain ⟨-, vacant, rfl⟩ := exists_of_removeFile plain removed
  exact ⟨rfl, plain.remove _, fun _ _ present => Entry.hasFolderAt_remove vacant present⟩

/-- Removing a file takes it away and nothing else. -/
theorem removeFile_eq_ok {disk after : Disk} (plain : disk.root.IsPlain) {path : Path}
    (proper : disk.placeOf path ≠ []) (removed : disk.removeFile path = .ok after) :
    Keeps anywhere disk after ∧
    after.files = Function.update disk.files (disk.placeOf path) none := by
  refine ⟨keeps_removeFile plain removed, ?_⟩
  obtain ⟨-, vacant, rfl⟩ := exists_of_removeFile plain removed
  exact Entry.fileAt?_remove_file proper vacant

/-- Removing a file changes no file elsewhere, also where the path leads to the root of the disk. -/
theorem files_removeFile {disk after : Disk} (plain : disk.root.IsPlain) {path : Path}
    (removed : disk.removeFile path = .ok after) :
    Keeps anywhere disk after ∧ ∀ place, after.files place = disk.files place ∨
      place = disk.placeOf path ∧ after.files place = none := by
  refine ⟨keeps_removeFile plain removed, fun place => ?_⟩
  by_cases proper : disk.placeOf path = []
  · obtain ⟨-, -, rfl⟩ := exists_of_removeFile plain removed
    rw [proper, Entry.remove]
    exact Or.inl rfl
  · obtain ⟨-, changed⟩ := removeFile_eq_ok plain proper removed
    by_cases here : place = disk.placeOf path
    · exact Or.inr ⟨here, by rw [changed, here, Function.update_self]⟩
    · exact Or.inl (by rw [changed, Function.update_of_ne here])

/-- A file that is said to be missing is missing, given that its path can be followed. -/
theorem fileAt?_of_removeFile_notFound {disk : Disk} (plain : disk.root.IsPlain) {path : Path}
    (usable : path.IsUsable) (way : ∀ place ∈ disk.placesPassed path, disk.root.HasFolderAt place)
    {text : Text} (missing : disk.removeFile path = .error (.disk ⟨.notFound, text⟩)) :
    disk.files (disk.placeOf path) = none := by
  unfold removeFile at missing
  rw [locate_of_way plain usable way] at missing
  dsimp only [bind, Except.bind] at missing
  split at missing
  · next absent => exact Entry.fileAt?_of_at?_eq_none absent
  · exact nomatch missing
  · exact nomatch missing

/-- Writing a file puts it where its path leads, unless a folder is there. -/
theorem exists_of_writeBytes {disk after : Disk} (plain : disk.root.IsPlain) {path : Path}
    {bytes : List UInt8} (written : disk.writeBytes path bytes = .ok after) :
    disk.HasFollowed path ∧ ¬ disk.root.HasFolderAt (disk.placeOf path) ∧
      after = { disk with root := disk.root.put (disk.placeOf path) (.file bytes) } := by
  unfold writeBytes at written
  obtain ⟨location, located, written⟩ := Failure.bind_eq_ok_iff.mp written
  obtain ⟨rfl, followed⟩ := locate_eq_ok plain located
  dsimp only at written
  split at written
  · exact nomatch written
  · next noFolder =>
    exact ⟨followed, fun ⟨entries, here⟩ => noFolder entries here, (Except.ok.inj written).symm⟩

theorem keeps_writeBytes {disk after : Disk} (plain : disk.root.IsPlain) {path : Path}
    {bytes : List UInt8} (written : disk.writeBytes path bytes = .ok after) :
    Keeps anywhere disk after := by
  obtain ⟨-, vacant, rfl⟩ := exists_of_writeBytes plain written
  exact ⟨rfl, plain.put (.file bytes) _, fun _ _ present => Entry.hasFolderAt_put _ vacant present⟩

/-- Writing a file changes the files at its place only. -/
theorem writeBytes_eq_ok {disk after : Disk} (plain : disk.root.IsPlain) {path : Path}
    (clear : disk.root.IsClear (disk.startOf path)) {bytes : List UInt8}
    (written : disk.writeBytes path bytes = .ok after) :
    Keeps anywhere disk after ∧ disk.HasFollowed path ∧
      after.files = Function.update disk.files (disk.placeOf path) (some bytes) := by
  refine ⟨keeps_writeBytes plain written, ?_⟩
  obtain ⟨followed, vacant, rfl⟩ := exists_of_writeBytes plain written
  exact ⟨followed, Entry.fileAt?_put_file bytes (followed.isClear clear) vacant⟩

/-- Writing a file changes no file elsewhere, however its path begins. -/
theorem files_writeBytes {disk after : Disk} (plain : disk.root.IsPlain) {path : Path}
    {bytes : List UInt8} (written : disk.writeBytes path bytes = .ok after) (place : Place) :
    after.files place = disk.files place ∨
      place = disk.placeOf path ∧ after.files place = some bytes := by
  obtain ⟨-, vacant, rfl⟩ := exists_of_writeBytes plain written
  refine Entry.fileAt?_put_file_or bytes (fun name rest => ?_) place
  refine Entry.fileAt?_of_at?_eq_none
    (Entry.at?_eq_none_of_strictPrefix vacant (List.prefix_append _ _) ?_)
  exact fun same => List.cons_ne_nil name rest (List.self_eq_append_right.mp same)

/-- Bytes that were read are those of the file at the place of the path. -/
theorem readBytes_eq_ok {disk : Disk} (plain : disk.root.IsPlain) {path : Path} {bytes : List UInt8}
    (read : disk.readBytes path = .ok bytes) :
    disk.HasFollowed path ∧ disk.files (disk.placeOf path) = some bytes := by
  obtain ⟨place, located⟩ := readBytes_eq_ok_iff.mp read
  obtain ⟨here, followed⟩ := locate_eq_ok plain located
  exact ⟨followed, Entry.fileAt?_eq_some_iff.mpr (congrArg Location.found here).symm⟩

/-- A text that was read is that of the file at its place. -/
theorem readText_eq_ok {disk : Disk} (plain : disk.root.IsPlain) {path : Path} {text : Text}
    (read : disk.readText path = .ok text) :
    disk.HasFollowed path ∧ ∃ bytes raw, disk.files (disk.placeOf path) = some bytes ∧
      Text.ofUtf8? bytes = some raw ∧ text = Text.plainNewlines raw := by
  obtain ⟨bytes, raw, found, decoded, same⟩ := readText_eq_ok_iff.mp read
  obtain ⟨followed, present⟩ := readBytes_eq_ok plain found
  exact ⟨followed, bytes, raw, present, decoded, same⟩

theorem readText_of_readBytes {disk : Disk} {path : Path} {text : Text}
    (bytes : disk.readBytes path = .ok (Text.utf8 text)) (unbroken : '\r' ∉ text) :
    disk.readText path = .ok text :=
  readText_eq_ok_iff.mpr ⟨_, text, bytes, Text.ofUtf8?_utf8 text,
    (Text.plainNewlines_of_notMem unbroken).symm⟩

theorem CanFollow.readBytes_eq {disk : Disk} {path : Path} (can : disk.CanFollow path)
    (plain : disk.root.IsPlain) {bytes : List UInt8}
    (present : disk.files (disk.placeOf path) = some bytes) : disk.readBytes path = .ok bytes := by
  refine Failure.bind_eq_ok_iff.mpr ⟨_, can.locate_eq plain true, ?_⟩
  dsimp only
  rw [Entry.fileAt?_eq_some_iff.mp present]
  rfl

/-- A text without carriage returns is read back from the file that holds it. -/
theorem readText_of_way {disk : Disk} (plain : disk.root.IsPlain) {path : Path}
    (usable : path.IsUsable) (way : ∀ place ∈ disk.placesPassed path, disk.root.HasFolderAt place)
    {text : Text} (present : disk.files (disk.placeOf path) = some (Text.utf8 text))
    (unbroken : '\r' ∉ text) : disk.readText path = .ok text :=
  readText_of_readBytes (CanFollow.readBytes_eq ⟨usable, way⟩ plain present) unbroken

/-- Where the way is there, a text can be written unless there is a folder in the place of the
file. -/
theorem CanFollow.writeText_of_vacant {disk : Disk} {path : Path} (can : disk.CanFollow path)
    (plain : disk.root.IsPlain) (vacant : ¬ disk.root.HasFolderAt (disk.placeOf path))
    (text : Text) :
    disk.writeText path text =
      .ok { disk with root := disk.root.put (disk.placeOf path) (.file (Text.utf8 text)) } := by
  refine Failure.bind_eq_ok_iff.mpr ⟨_, can.locate_eq plain true, ?_⟩
  dsimp only
  split
  · next entries found => exact absurd ⟨entries, found⟩ vacant
  · rfl

/-- A text that a file holds already can be written to it, and that changes nothing. -/
theorem CanFollow.writeText_eq {disk : Disk} {path : Path} (can : disk.CanFollow path)
    (plain : disk.root.IsPlain) {text : Text}
    (present : disk.files (disk.placeOf path) = some (Text.utf8 text)) :
    disk.writeText path text = .ok disk := by
  have found := Entry.fileAt?_eq_some_iff.mp present
  have vacant : ¬ disk.root.HasFolderAt (disk.placeOf path) := fun ⟨_, folder⟩ =>
    nomatch found.symm.trans folder
  rw [can.writeText_of_vacant plain vacant, Entry.put_of_at? found]

/-! ### Folders -/

/-- An empty folder in a place where nothing was changes no file. -/
theorem keeps_putEmpty {disk : Disk} (plain : disk.root.IsPlain) {place : Place}
    (absent : disk.root.at? place = none) :
    Keeps anywhere disk { disk with root := disk.root.put place (.folder []) } ∧
      ({ disk with root := disk.root.put place (.folder []) } : Disk).files = disk.files := by
  have vacant : ¬ disk.root.HasFolderAt place := fun ⟨entries, here⟩ =>
    nomatch absent.symm.trans here
  refine ⟨⟨rfl, plain.put Entry.isPlain_folder_nil _, fun other _ present => ?_⟩, ?_⟩
  · exact Entry.hasFolderAt_put _ vacant present
  · refine Entry.fileAt?_put_of_same fun inner => ?_
    have below : disk.root.fileAt? (place ++ inner) = none := by
      refine Entry.fileAt?_of_at?_eq_none ?_
      rw [Entry.at?_append, absent, Option.bind_none]
    rw [below]
    cases inner <;> rfl

/-- A folder that was made is an empty one where nothing was, unless there was a folder already. -/
theorem exists_of_ensureFolder {disk after : Disk} (plain : disk.root.IsPlain) {path : Path}
    (made : disk.ensureFolder path = .ok after) :
    disk.HasFollowed path ∧ (after = disk ∨ disk.root.at? (disk.placeOf path) = none ∧
      after = { disk with root := disk.root.put (disk.placeOf path) (.folder []) }) := by
  unfold ensureFolder at made
  split at made
  · next upper fresh =>
    obtain ⟨location, located, fresh⟩ := Failure.bind_eq_ok_iff.mp fresh
    obtain ⟨rfl, followed⟩ := locate_eq_ok plain located
    dsimp only at fresh
    split at fresh
    · next absent =>
      exact ⟨followed, Or.inr ⟨absent, (Except.ok.inj made).symm.trans (Except.ok.inj fresh).symm⟩⟩
    · exact nomatch fresh
  · exact nomatch made
  · obtain ⟨present, asked, made⟩ := Failure.bind_eq_ok_iff.mp made
    split at made
    · next yes =>
      rw [yes] at asked
      obtain ⟨place, entries, located⟩ := isFolder_eq_true_iff.mp asked
      exact ⟨(locate_eq_ok plain located).2, Or.inl (Except.ok.inj made).symm⟩
    · exact nomatch made
  · exact nomatch made

/-- Making a folder changes no file. -/
theorem ensureFolder_eq_ok {disk after : Disk} (plain : disk.root.IsPlain) {path : Path}
    (made : disk.ensureFolder path = .ok after) :
    Keeps anywhere disk after ∧ after.files = disk.files := by
  obtain ⟨-, rfl | ⟨absent, rfl⟩⟩ := exists_of_ensureFolder plain made
  · exact ⟨.refl plain anywhere, rfl⟩
  · exact keeps_putEmpty plain absent

/-- Folders on the way to a path are made in step on two disks that stay alike, when each of them is
made on both or is refused by both in the same words. -/
theorem ensureFolders_in_step (like : Disk → Disk → Prop) (within : Path → Prop)
    (parent : ∀ {path : Path}, within path → within path.parent)
    (step : ∀ {one two : Disk} {path : Path}, like one two → within path →
      (∃ left right, one.ensureFolder path = .ok left ∧ two.ensureFolder path = .ok right ∧
        like left right) ∨
        ∃ failure, one.ensureFolder path = .error failure ∧
          two.ensureFolder path = .error failure)
    {one two : Disk} (alike : like one two) {path : Path} (inside : within path) (above : Nat) :
    (two.ensureFolders above path).1 = (one.ensureFolders above path).1 ∧
      like (one.ensureFolders above path).2 (two.ensureFolders above path).2 := by
  induction above generalizing path with
  | zero =>
    rw [ensureFolders.eq_def one, ensureFolders.eq_def two]
    dsimp only
    rcases step alike inside with ⟨left, right, made, again, after⟩ | ⟨failure, refused, again⟩
    · rw [made, again]
      exact ⟨rfl, after⟩
    · rw [refused, again]
      split <;> first | contradiction | exact ⟨rfl, alike⟩
  | succ above inductionHypothesis =>
    have outer := inductionHypothesis (parent inside)
    rw [ensureFolders.eq_def one, ensureFolders.eq_def two]
    dsimp only
    rcases step alike inside with ⟨left, right, made, again, after⟩ | ⟨failure, refused, again⟩
    · rw [made, again]
      exact ⟨rfl, after⟩
    · rw [refused, again]
      generalize one.ensureFolders above path.parent = first,
        two.ensureFolders above path.parent = second at outer ⊢
      obtain ⟨result, left⟩ := first
      obtain ⟨other, right⟩ := second
      obtain ⟨same, upper⟩ := outer
      obtain rfl : other = result := same
      split
      · contradiction
      · rcases other with refusal | done
        · exact ⟨rfl, upper⟩
        · -- the folders above are there on both disks, so the path itself is tried once more
          dsimp only at upper ⊢
          rcases step upper inside with ⟨last, finish, made, again, after⟩ |
            ⟨failure, refused, again⟩
          · rw [made, again]
            exact ⟨rfl, after⟩
          · rw [refused, again]
            exact ⟨rfl, upper⟩
      · exact ⟨rfl, alike⟩

/-- What making a single folder keeps of a disk holds after the folders on the way to a path were
made, also when one of them was refused. -/
theorem ensureFolders_keeps (motive : Disk → Prop) (within : Path → Prop)
    (parent : ∀ {path : Path}, within path → within path.parent)
    (step : ∀ {disk made : Disk} {path : Path}, motive disk → within path →
      disk.ensureFolder path = .ok made → motive made)
    {disk : Disk} (start : motive disk) {path : Path} (inside : within path) (above : Nat) :
    motive (disk.ensureFolders above path).2 := by
  refine (ensureFolders_in_step (fun one two => two = one ∧ motive one) within parent ?_
    ⟨rfl, start⟩ inside above).2.2
  rintro one two path ⟨rfl, holds⟩ inside
  cases made : two.ensureFolder path with
  | ok left => exact Or.inl ⟨left, left, rfl, rfl, rfl, step holds inside made⟩
  | error failure => exact Or.inr ⟨failure, rfl, rfl⟩

/-- Making a folder with those above it changes no file, also when it is refused halfway. -/
theorem files_ensureFolders {disk : Disk} (plain : disk.root.IsPlain) (above : Nat) (path : Path) :
    Keeps anywhere disk (disk.ensureFolders above path).2 ∧
      (disk.ensureFolders above path).2.files = disk.files := by
  refine ensureFolders_keeps (fun now => Keeps anywhere disk now ∧ now.files = disk.files)
    (fun _ => True) (fun _ => trivial) ?_ ⟨.refl plain anywhere, rfl⟩ trivial above
  rintro now made path ⟨kept, same⟩ - done
  obtain ⟨again, still⟩ := ensureFolder_eq_ok kept.plain done
  exact ⟨kept.trans again, still.trans same⟩

theorem ensureFolders_eq_ok {disk after : Disk} (plain : disk.root.IsPlain) {above : Nat}
    {path : Path} (made : disk.ensureFolders above path = (.ok (), after)) :
    Keeps anywhere disk after ∧ after.files = disk.files := by
  have kept := files_ensureFolders plain above path
  rwa [made] at kept

/-! ### Folders from the top down -/

/-- Whether a folder was made with those above it, and what is left behind. -/
def ensured (disk : Disk) (above : Nat) (path : Path) : Bool × Disk :=
  ((disk.ensureFolders above path).1.isOk, (disk.ensureFolders above path).2)

theorem ensured_of_ok {disk made : Disk} {path : Path} (ok : disk.ensureFolder path = .ok made)
    {above : Nat} : disk.ensured above path = (true, made) := by
  rw [ensured, ensureFolders.eq_def]
  dsimp only
  rw [ok]
  rfl

theorem ensured_of_refused {disk : Disk} {path other : Path} {cause : DiskCause}
    (present : cause ≠ .notFound)
    (refusal : disk.ensureFolder path = .error (refused other cause)) {above : Nat} :
    disk.ensured above path = (false, disk) := by
  rw [ensured, ensureFolders.eq_def]
  dsimp only
  rw [refusal, refused]
  cases cause
  case notFound => exact absurd rfl present
  all_goals rfl

/-- A folder that is made after those above it, if these were made. Otherwise it is not tried. -/
def ensuredBelow (path : Path) : Bool × Disk → Bool × Disk
  | (true, upper) =>
    match upper.ensureFolder path with
    | .ok made => (true, made)
    | .error _ => (false, upper)
  | (false, upper) => (false, upper)

theorem ensuredBelow_of_ok {upper made : Disk} {path : Path}
    (ok : upper.ensureFolder path = .ok made) :
    ensuredBelow path (true, upper) = (true, made) := by
  rw [ensuredBelow, ok]

theorem ensuredBelow_of_error {upper : Disk} {path : Path} {failure : Failure}
    (refusal : upper.ensureFolder path = .error failure) :
    ensuredBelow path (true, upper) = (false, upper) := by
  rw [ensuredBelow, refusal]

/-- A folder whose way is missing is made after those above it. -/
theorem ensured_of_notFound {disk : Disk} {path : Path}
    (absent : disk.ensureFolder path = .error (refused path .notFound)) {above : Nat} :
    disk.ensured (above + 1) path = ensuredBelow path (disk.ensured above path.parent) := by
  rw [ensured, ensureFolders.eq_def, ensured]
  dsimp only
  rw [absent, refused]
  dsimp only
  rcases disk.ensureFolders above path.parent with ⟨failure | done, upper⟩
  · rfl
  · dsimp only [Except.isOk, Except.toBool]
    cases result : upper.ensureFolder path with
    | ok made => rw [ensuredBelow_of_ok result]
    | error failure => rw [ensuredBelow_of_error result]

section

variable {disk : Disk} (plain : disk.root.IsPlain) {path : Path} (taken : path.IsTaken)

include plain taken

/-- What becomes of a folder that is to be made depends on where its names lead. -/
theorem ensureFolder_eq :
    disk.ensureFolder path =
      match descend disk.root false (disk.startOf path) path.names with
      | .arrived ⟨place, none⟩ => .ok { disk with root := disk.root.put place (.folder []) }
      | .arrived ⟨_, some (.folder _)⟩ => .ok disk
      | .arrived ⟨_, some _⟩ => .error (refused path .alreadyExists)
      | .refused cause => .error (refused path cause)
      | .link _ _ _ => .error (refused path .tooManyLinks) := by
  unfold ensureFolder makeFolder isFolder entryAt
  rw [locate_of_isTaken plain taken, locate_of_isTaken plain taken]
  cases descend disk.root false (disk.startOf path) path.names with
  | arrived location =>
    obtain ⟨place, _ | ⟨_ | _ | _⟩⟩ := location <;> rfl
  | refused cause => cases cause <;> rfl
  | link folder target rest => rfl

theorem exists_of_ensureFolder_eq_error {failure : Failure}
    (failed : disk.ensureFolder path = .error failure) : ∃ cause, failure = refused path cause := by
  rw [ensureFolder_eq plain taken] at failed
  split at failed
  · exact nomatch failed
  · exact nomatch failed
  all_goals exact ⟨_, (Except.error.inj failed).symm⟩

/-- Making a folder with those above it is making those above first. What is left behind is the
same, and whether it was made. -/
theorem ensured_succ (begins : disk.root.HasFolderAt (disk.startOf path)) (proper : path.names ≠ [])
    (above : Nat) : disk.ensured (above + 1) path = ensuredBelow path
    (disk.ensured above path.parent) := by
  obtain ⟨slashes, names⟩ := path
  obtain ⟨outer, name, rfl⟩ := (List.eq_nil_or_concat names).resolve_left proper
  rw [List.concat_eq_append] at taken begins ⊢
  have whole := ensureFolder_eq plain taken
  have upper := ensureFolder_eq plain taken.parent
  have parent : Path.parent ⟨slashes, outer ++ [name]⟩ = ⟨slashes, outer⟩ := by
    rw [Path.parent, List.dropLast_concat]
  rw [descend_append plain begins outer (List.cons_ne_nil name []) false] at whole
  rw [parent] at upper
  -- Where the names above lead decides both sides; only a missing folder makes the disk go up by
  -- itself.
  generalize begun : disk.startOf ⟨slashes, outer ++ [name]⟩ = start at whole
  have same : disk.startOf ⟨slashes, outer⟩ = start := begun
  rw [same] at upper
  dsimp only at whole upper
  cases found : descend disk.root false start outer with
  | link folder target rest => exact absurd found (descend_ne_link plain _ _ _ _ _ _)
  | refused cause =>
    rw [found] at whole upper
    dsimp only at whole upper
    by_cases absent : cause = .notFound
    · exact ensured_of_notFound (absent ▸ whole)
    · rw [ensured_of_refused absent whole, parent, ensured_of_refused absent upper, ensuredBelow]
  | arrived location =>
    rw [found] at whole upper
    obtain ⟨place, _ | ⟨_ | _ | _⟩⟩ := location
    · exact ensured_of_notFound whole
    · rw [ensured_of_refused (by decide) whole, parent, ensured_of_refused (by decide) upper,
        ensuredBelow]
    · rw [ensured_of_refused (by decide) whole, parent, ensured_of_refused (by decide) upper,
        ensuredBelow]
    · cases result : disk.ensureFolder ⟨slashes, outer ++ [name]⟩ with
      | ok made => rw [ensured_of_ok result, parent, ensured_of_ok upper, ensuredBelow_of_ok result]
      | error failure =>
        obtain ⟨cause, rfl⟩ := exists_of_ensureFolder_eq_error plain taken result
        by_cases absent : cause = .notFound
        · exact ensured_of_notFound (absent ▸ result)
        · rw [ensured_of_refused absent result, parent, ensured_of_ok upper,
            ensuredBelow_of_error result]

end

/-- A folder that is there already is not made again. -/
theorem CanFollow.ensureFolders_eq {disk : Disk} {path : Path} (can : disk.CanFollow path)
    (plain : disk.root.IsPlain) (present : disk.root.HasFolderAt (disk.placeOf path))
    (above : Nat) :
    disk.ensureFolders above path = (.ok (), disk) := by
  obtain ⟨entries, found⟩ := present
  have made : disk.makeFolder path = .error (refused path .alreadyExists) := by
    rw [makeFolder, can.locate_eq plain false, found]
    rfl
  have asked : disk.isFolder path = .ok true :=
    isFolder_eq_true_iff.mpr ⟨_, entries, found ▸ can.locate_eq plain true⟩
  have kept : disk.ensureFolder path = .ok disk := by
    rw [ensureFolder, made]
    dsimp only [refused]
    rw [asked]
    rfl
  rw [ensureFolders.eq_def]
  dsimp only
  rw [kept]

/-- A disk tells of every path that it takes whether there is a folder. -/
theorem exists_isFolder {disk : Disk} (plain : disk.root.IsPlain) {path : Path}
    (usable : path.IsUsable) : ∃ present, disk.isFolder path = .ok present := by
  have asked : ∃ found, disk.entryAt path = .ok found := by
    unfold entryAt
    split
    · exact ⟨_, rfl⟩
    · next tooLong => exact absurd tooLong (locate_ne_tooLong plain usable true _)
    · exact ⟨_, rfl⟩
  obtain ⟨found, asked⟩ := asked
  exact ⟨_, Failure.bind_eq_ok_iff.mpr ⟨found, asked, rfl⟩⟩

/-! ### Empty folders -/

/-- Removing an empty folder changes no file and takes no folder away outside of it. -/
theorem keeps_removeEmpty {disk : Disk} (plain : disk.root.IsPlain) {place : Place}
    (empty : disk.root.at? place = some (.folder [])) :
    Keeps (outside place) disk { disk with root := disk.root.remove place } ∧
      ({ disk with root := disk.root.remove place } : Disk).files = disk.files :=
  ⟨⟨rfl, plain.remove _,
    fun _ away present => Entry.hasFolderAt_remove_of_not_isPrefix away present⟩,
    Entry.fileAt?_remove_empty empty⟩

/-- Only an empty folder is removed as a folder, and only by its name. -/
theorem exists_of_removeFolder {disk after : Disk} (plain : disk.root.IsPlain) {path : Path}
    (removed : disk.removeFolder path = .ok after) :
    path.isNamed = true ∧ disk.root.at? (disk.placeOf path) = some (.folder []) ∧
      after = { disk with root := disk.root.remove (disk.placeOf path) } := by
  unfold removeFolder at removed
  obtain ⟨location, located, removed⟩ := Failure.bind_eq_ok_iff.mp removed
  obtain ⟨rfl, -⟩ := locate_eq_ok plain located
  dsimp only at removed
  split at removed
  · exact nomatch removed
  · next empty =>
    split at removed
    · next named => exact ⟨named, empty, (Except.ok.inj removed).symm⟩
    · exact nomatch removed
  · exact nomatch removed
  · exact nomatch removed

theorem removeFolder_eq_ok {disk after : Disk} (plain : disk.root.IsPlain) {path : Path}
    (removed : disk.removeFolder path = .ok after) :
    Keeps (outside (disk.placeOf path)) disk after ∧ after.files = disk.files := by
  obtain ⟨-, empty, rfl⟩ := exists_of_removeFolder plain removed
  exact keeps_removeEmpty plain empty

/-- A folder inside of another one is empty and goes, or nothing happens. -/
theorem removeIfEmpty_cases {disk : Disk} (plain : disk.root.IsPlain) (path : Path)
    (inner : Place) :
    removeIfEmpty path disk inner = disk ∨
      disk.root.at? (disk.placeOf path ++ inner) = some (.folder []) ∧
        removeIfEmpty path disk inner =
          { disk with root := disk.root.remove (disk.placeOf path ++ inner) } := by
  unfold removeIfEmpty
  split
  · next location located =>
    obtain ⟨rfl, -⟩ := locate_eq_ok plain located
    dsimp only
    split
    · next empty => exact Or.inr ⟨empty, rfl⟩
    · exact Or.inl rfl
  · exact Or.inl rfl

theorem keeps_removeIfEmpty {disk : Disk} (plain : disk.root.IsPlain) (path : Path)
    (inner : Place) :
    Keeps (outside (disk.placeOf path)) disk (removeIfEmpty path disk inner) ∧
      (removeIfEmpty path disk inner).files = disk.files := by
  rcases removeIfEmpty_cases plain path inner with same | ⟨empty, same⟩
  · rw [same]
    exact ⟨.refl plain _, rfl⟩
  · rw [same]
    obtain ⟨keeps, unchanged⟩ := keeps_removeEmpty plain empty
    exact ⟨⟨keeps.start, keeps.plain, fun place away =>
      keeps.folders place fun below => away ((List.prefix_append _ _).trans below)⟩, unchanged⟩

/-- Removing empty folders inside of another one changes no file and takes no folder away outside of
it. -/
theorem keeps_sweep {disk : Disk} (plain : disk.root.IsPlain) (path : Path) (places : List Place) :
    Keeps (outside (disk.placeOf path)) disk (disk.sweep path places) ∧
      (disk.sweep path places).files = disk.files := by
  induction places generalizing disk with
  | nil => exact ⟨.refl plain _, rfl⟩
  | cons inner places inductionHypothesis =>
    obtain ⟨keeps, same⟩ := keeps_removeIfEmpty plain path inner
    obtain ⟨again, unchanged⟩ := inductionHypothesis keeps.plain
    rw [keeps.placeOf] at again
    exact ⟨keeps.trans again, unchanged.trans same⟩

/-- The places inside of the folder at a path from the bottom up. -/
def innerFolders (disk : Disk) (path : Path) : List Place :=
  ((disk.root.at? (disk.placeOf path)).getD (.folder [])).foldersUp

/-- Pruning removes the empty folders inside of a folder and then this one if it has become
empty. -/
theorem prune_of_isFolder {disk : Disk} (plain : disk.root.IsPlain) {path : Path}
    (present : disk.isFolder path = .ok true) :
    disk.prune path =
      match (disk.sweep path (disk.innerFolders path)).removeFolder path with
      | .ok after => .ok (true, after)
      | .error _ => .ok (false, disk.sweep path (disk.innerFolders path)) := by
  obtain ⟨place, entries, located⟩ := isFolder_eq_true_iff.mp present
  have found := (locate_eq_ok plain located).1
  rw [found] at located
  unfold prune
  rw [present, located]
  rfl

theorem exists_of_prune {disk after : Disk} (plain : disk.root.IsPlain) {path : Path} {gone : Bool}
    (pruned : disk.prune path = .ok (gone, after)) :
    ∃ places, after = disk.sweep path places ∨
      (disk.sweep path places).removeFolder path = .ok after := by
  obtain ⟨present, looked, rest⟩ := Failure.bind_eq_ok_iff.mp pruned
  cases present with
  | false => exact ⟨[], Or.inl (Prod.mk.inj (Except.ok.inj rest)).2.symm⟩
  | true =>
    rw [prune_of_isFolder plain looked] at pruned
    refine ⟨disk.innerFolders path, ?_⟩
    split at pruned
    · next removed =>
      rw [(Prod.mk.inj (Except.ok.inj pruned)).2] at removed
      exact Or.inr removed
    · exact Or.inl (Prod.mk.inj (Except.ok.inj pruned)).2.symm

/-- Pruning changes no file and takes no folder away outside of the one that is pruned. -/
theorem prune_eq_ok {disk after : Disk} (plain : disk.root.IsPlain) {path : Path} {gone : Bool}
    (pruned : disk.prune path = .ok (gone, after)) :
    Keeps (outside (disk.placeOf path)) disk after ∧ after.files = disk.files := by
  obtain ⟨places, swept⟩ := exists_of_prune plain pruned
  obtain ⟨keeps, same⟩ := keeps_sweep plain path places
  rcases swept with rfl | removed
  · exact ⟨keeps, same⟩
  · obtain ⟨again, unchanged⟩ := removeFolder_eq_ok keeps.plain removed
    rw [keeps.placeOf] at again
    exact ⟨keeps.trans again, unchanged.trans same⟩

end Disk

end LuauReference
