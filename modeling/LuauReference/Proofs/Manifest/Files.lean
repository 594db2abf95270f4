/-
This file follows the files in a folder of pages through the steps of a run. They are the files of
the user, which were there at the beginning, and pages. Deleting and writing change the pages and
never the files of the user, since no page has the place of one.

A page is taken for gone when its path leads nowhere, so deleting needs that the path can be
followed, and that in turn needs that nothing has removed a folder on the way. Pruning removes
folders inside of the folder of pages. This is why no path may pass such a folder: it would be one
that climbs down into it and up again by two dots.
-/

import LuauReference.Proofs.Manifest.Reconcile

namespace LuauReference

namespace Manifest

open Disk (Keeps HasFollowed anywhere outside)
open Run (Returns)

/-! ### The folder of pages -/

/-- Whether a place lies in the folder at another place, and is not that folder itself. -/
def IsInside (out place : Place) : Prop :=
  out <+: place ∧ place ≠ out

instance (out place : Place) : Decidable (IsInside out place) :=
  inferInstanceAs (Decidable (_ ∧ _))

/-- The disk at the beginning and the two paths of all runs. The manifest lies outside of the folder
of pages, and neither path passes a place inside of that folder. -/
structure Setting (origin : Disk) (file folder : Path) : Prop where
  plain : origin.root.IsPlain
  start : origin.root.HasFolderAt origin.start
  apart : ¬ origin.placeOf folder <+: origin.placeOf file
  folderWay : ∀ place ∈ origin.placesPassed folder, ¬ IsInside (origin.placeOf folder) place
  fileWay : ∀ place ∈ origin.placesPassed file, ¬ IsInside (origin.placeOf folder) place

/-- Texts under distinct canonical paths, none of which has a carriage return or stands where a file
is already. -/
structure ArePages (origin : Disk) (out : Place) (texts : Named Text) : Prop where
  distinct : (Named.names texts).Nodup
  canonical : ∀ page ∈ texts, Path.IsCanonical page.1
  unbroken : ∀ page ∈ texts, '\r' ∉ page.2
  vacant : ∀ page ∈ texts, origin.files (out ++ Text.pieces '/' page.1) = none

/-- Whether one of the given texts belongs at a place in the folder of pages. -/
def IsPageAt (texts : Named Text) (inner : Place) (bytes : List UInt8) : Prop :=
  ∃ page ∈ texts, Text.pieces '/' page.1 = inner ∧ Text.utf8 page.2 = bytes

/-- Whether the files in a folder are those of the beginning and the given texts. -/
def Holds (origin : Disk) (out : Place) (texts : Named Text) (disk : Disk) : Prop :=
  ∀ inner bytes, disk.files (out ++ inner) = some bytes ↔
    origin.files (out ++ inner) = some bytes ∨ IsPageAt texts inner bytes

/-! ### Files of the user and pages -/

variable {origin disk after : Disk} {out : Place} {texts others : Named Text}

theorem isPageAt_filter {path : Text} {inner : Place} {bytes : List UInt8} :
    IsPageAt (texts.filter fun page => page.1 ≠ path) inner bytes ↔
      IsPageAt texts inner bytes ∧ inner ≠ Text.pieces '/' path := by
  constructor
  · rintro ⟨page, member, rfl, utf8⟩
    obtain ⟨present, other⟩ := List.mem_filter.mp member
    refine ⟨⟨page, present, rfl, utf8⟩, fun same => ?_⟩
    exact absurd (Text.pieces_injective '/' same) (by simpa using other)
  · rintro ⟨⟨page, present, rfl, utf8⟩, elsewhere⟩
    have other : page.1 ≠ path := fun same => elsewhere (congrArg _ same)
    exact ⟨page, List.mem_filter.mpr ⟨present, by simpa using other⟩, rfl, utf8⟩

theorem isPageAt_cons {path text : Text} {inner : Place} {bytes : List UInt8} :
    IsPageAt ((path, text) :: texts) inner bytes ↔
      (Text.pieces '/' path = inner ∧ Text.utf8 text = bytes) ∨ IsPageAt texts inner bytes := by
  unfold IsPageAt
  simp only [List.mem_cons, exists_eq_or_imp]

theorem Holds.congr (holds : Holds origin out texts disk)
    (same : ∀ page, page ∈ texts ↔ page ∈ others) :
    Holds origin out others disk := by
  intro inner bytes
  rw [holds inner bytes]
  unfold IsPageAt
  simp only [same]

/-- A file at the path of a page is that page. -/
theorem Holds.isPageAt (holds : Holds origin out texts disk) {path : Text} {bytes : List UInt8}
    (vacant : origin.files (out ++ Text.pieces '/' path) = none)
    (present : disk.files (out ++ Text.pieces '/' path) = some bytes) :
    IsPageAt texts (Text.pieces '/' path) bytes := by
  rcases (holds _ bytes).mp present with old | page
  · exact nomatch vacant.symm.trans old
  · exact page

/-- Deleting a page leaves the others. -/
theorem Holds.delete (holds : Holds origin out texts disk) {path : Text}
    (vacant : origin.files (out ++ Text.pieces '/' path) = none)
    (changed : after.files = Function.update disk.files (out ++ Text.pieces '/' path) none) :
    Holds origin out (texts.filter fun page => page.1 ≠ path) after := by
  intro inner bytes
  rw [changed, isPageAt_filter]
  by_cases here : inner = Text.pieces '/' path
  · rw [here, Function.update_self, vacant]
    simp
  · have elsewhere : out ++ inner ≠ out ++ Text.pieces '/' path := fun same =>
      here (List.append_cancel_left same)
    rw [Function.update_of_ne elsewhere, holds inner bytes]
    exact or_congr_right (and_iff_left here).symm

/-- Writing a page puts it in the place of the one under its path. -/
theorem Holds.write (holds : Holds origin out texts disk) {path text : Text}
    (vacant : origin.files (out ++ Text.pieces '/' path) = none)
    (changed : after.files =
      Function.update disk.files (out ++ Text.pieces '/' path) (some (Text.utf8 text))) :
    Holds origin out ((path, text) :: texts.filter fun page => page.1 ≠ path) after := by
  intro inner bytes
  rw [changed, isPageAt_cons, isPageAt_filter]
  by_cases here : inner = Text.pieces '/' path
  · rw [here, Function.update_self, vacant]
    simp
  · have elsewhere : out ++ inner ≠ out ++ Text.pieces '/' path := fun same =>
      here (List.append_cancel_left same)
    rw [Function.update_of_ne elsewhere, holds inner bytes]
    simp [here, Ne.symm here]

/-- As long as there are pages, their folder is there. -/
theorem Holds.hasFolderAt (holds : Holds origin out texts disk) (present : texts ≠ []) :
    disk.root.HasFolderAt out := by
  obtain ⟨page, rest, rfl⟩ := List.exists_cons_of_ne_nil present
  obtain ⟨name, more, cut⟩ := List.exists_cons_of_ne_nil (Text.pieces_ne_nil '/' page.1)
  have found : disk.files (out ++ name :: more) = some (Text.utf8 page.2) :=
    (holds _ _).mpr (Or.inr ⟨page, List.mem_cons_self, cut, rfl⟩)
  exact Entry.hasFolderAt_of_at?_append (Entry.fileAt?_eq_some_iff.mp found)

/-- Changing a file outside of the folder changes nothing in it. -/
theorem Holds.update (holds : Holds origin out texts disk) {place : Place}
    (apart : outside out place)
    {bytes : Option (List UInt8)} (changed : after.files = Function.update disk.files place bytes) :
    Holds origin out texts after := by
  intro inner content
  have elsewhere : out ++ inner ≠ place := by
    rintro rfl
    exact apart (List.prefix_append out inner)
  rw [changed, Function.update_of_ne elsewhere]
  exact holds inner content

/-! ### Paths that can be followed -/

section Ways

variable {file folder path : Path}

theorem Setting.hasFolderAt_startOf (setting : Setting origin file folder) (path : Path) :
    origin.root.HasFolderAt (origin.startOf path) :=
  Disk.hasFolderAt_startOf setting.start path

/-- A path begins where it leads to or at a place it passes. -/
theorem startOf_mem_or_eq (disk : Disk) (path : Path) :
    disk.startOf path ∈ disk.placesPassed path ∨ disk.startOf path = disk.placeOf path := by
  obtain ⟨slashes, names⟩ := path
  cases names with
  | nil => exact Or.inr rfl
  | cons name rest => exact Or.inl List.mem_cons_self

theorem Setting.folder_startOf (setting : Setting origin file folder) :
    ¬ IsInside (origin.placeOf folder) (origin.startOf folder) := by
  rcases startOf_mem_or_eq origin folder with passed | same
  · exact setting.folderWay _ passed
  · exact fun inside => inside.2 same

theorem Setting.file_startOf (setting : Setting origin file folder) :
    ¬ IsInside (origin.placeOf folder) (origin.startOf file) := by
  rcases startOf_mem_or_eq origin file with passed | same
  · exact setting.fileWay _ passed
  · exact fun inside => setting.apart (same ▸ inside.1)

/-- A place that is not inside of the folder of pages is that folder or lies outside. -/
theorem eq_or_outside {place : Place} (notInside : ¬ IsInside out place) :
    place = out ∨ outside out place := by
  by_cases same : place = out
  · exact Or.inl same
  · exact Or.inr fun below => notInside ⟨below, same⟩

/-- No file stands in the way to the place where a path begins. -/
theorem Setting.isClear (setting : Setting origin file folder)
    (keeps : Keeps (outside (origin.placeOf folder)) origin disk)
    (holds : Holds origin (origin.placeOf folder) texts disk)
    (away : ¬ IsInside (origin.placeOf folder) (origin.startOf path)) :
    disk.root.IsClear (disk.startOf path) := by
  rw [Entry.isClear_iff keeps.plain, keeps.startOf]
  intro above below
  have folderBefore := Entry.hasFolderAt_of_isPrefix (setting.hasFolderAt_startOf path) below
  have notInside : ¬ IsInside (origin.placeOf folder) above := by
    rintro ⟨deep, strict⟩
    refine away ⟨deep.trans below, ?_⟩
    rintro same
    exact strict (below.eq_of_length_le (by rw [same]; exact deep.length_le) |>.trans same)
  rcases eq_or_outside notInside with here | apart
  · cases present : disk.files above with
    | none => exact present
    | some bytes =>
      rw [here, ← List.append_nil (origin.placeOf folder)] at present
      rcases (holds [] bytes).mp present with old | ⟨page, _, empty, _⟩
      · rw [List.append_nil, ← here] at old
        exact nomatch (Entry.fileAt?_of_hasFolderAt folderBefore).symm.trans old
      · exact absurd empty (Text.pieces_ne_nil '/' page.1)
  · exact Entry.fileAt?_of_hasFolderAt (keeps.folders above apart folderBefore)

/-- A path that was followed at some time passes folders as long as the folder of pages is there. -/
theorem Setting.way (setting : Setting origin file folder)
    (away : ∀ place ∈ origin.placesPassed path, ¬ IsInside (origin.placeOf folder) place)
    (early : Keeps (outside (origin.placeOf folder)) origin disk)
    (followed : ∀ place ∈ origin.placesPassed path,
      disk.root.HasFolderAt place ∨ place <+: origin.startOf path)
    (late : Keeps (outside (origin.placeOf folder)) disk after)
    (present : after.root.HasFolderAt (origin.placeOf folder)) :
    ∀ place ∈ origin.placesPassed path, after.root.HasFolderAt place := by
  intro place member
  rcases eq_or_outside (away place member) with here | apart
  · rw [here]
    exact present
  · rcases followed place member with folder | below
    · exact late.folders place apart folder
    · have before := Entry.hasFolderAt_of_isPrefix (setting.hasFolderAt_startOf path) below
      exact late.folders place apart (early.folders place apart before)

end Ways

/-! ### The loops of a run -/

section Loops

variable {file folder : Path} {world later : World} {changes : Changes}

/-- Deleting stale pages leaves the pages that are not stale. The paths of all pages so far can be
followed, so a page that is not found is not there. -/
theorem files_deleted
    (keeps : Keeps (outside (origin.placeOf folder)) origin world.disk)
    (holds : Holds origin (origin.placeOf folder) texts world.disk)
    (pages : ArePages origin (origin.placeOf folder) texts)
    (usable : ∀ page ∈ texts, (folder.child page.1).IsUsable)
    (way : texts ≠ [] → ∀ place ∈ origin.placesPassed folder, world.disk.root.HasFolderAt place)
    {stale : List Text} (listed : ∀ path ∈ stale, path ∈ Named.names texts)
    (returned : Returns (inTurn (deleteStale folder) stale) world changes later)
    (quiet : changes.diagnostics = []) :
    Keeps anywhere world.disk later.disk ∧
      Holds origin (origin.placeOf folder) (texts.filter fun page => page.1 ∉ stale) later.disk ∧
      ∀ place, outside (origin.placeOf folder) place →
        later.disk.files place = world.disk.files place := by
  refine inTurn_returns (motive := fun done disk => Keeps anywhere world.disk disk ∧
    Holds origin (origin.placeOf folder) (texts.filter fun page => page.1 ∉ done) disk ∧
    ∀ place, outside (origin.placeOf folder) place → disk.files place = world.disk.files place)
    returned quiet ?_ ?_
  · intro done path left whole before result next stepped silent ⟨kept, held, same⟩
    obtain ⟨page, member, rfl⟩ : ∃ page ∈ texts, page.1 = path := by
      have present := listed path (by rw [whole]; simp)
      exact List.mem_map.mp present
    have place : before.disk.placeOf folder = origin.placeOf folder := by
      rw [kept.placeOf, keeps.placeOf]
    obtain ⟨step, changed⟩ := files_deleteStale (pages.canonical page member) kept.plain stepped
      silent fun _ => by
        refine ⟨usable page member, fun above passed => kept.folders above trivial ?_⟩
        rw [kept.placesPassed, keeps.placesPassed] at passed
        exact way (List.ne_nil_of_mem member) above passed
    rw [place] at changed
    refine ⟨kept.trans step, ?_, fun other apart => ?_⟩
    · refine (held.delete (pages.vacant page member) changed).congr fun other => ?_
      simp only [List.mem_filter, List.mem_append, List.mem_singleton, decide_eq_true_eq, not_or,
        and_assoc, ne_eq]
    · have elsewhere : other ≠ origin.placeOf folder ++ Text.pieces '/' page.1 := by
        rintro rfl
        exact apart (List.prefix_append _ _)
      rw [changed, Function.update_of_ne elsewhere, same other apart]
  · refine ⟨.refl keeps.plain _, holds.congr fun page => ?_, fun _ _ => rfl⟩
    simp

/-- The pages after writing one whose path is not among those written so far. -/
theorem mem_write {done : Named Text} {path text : Text} (fresh : path ∉ Named.names done)
    (page : Text × Text) :
    page ∈ (path, text) :: (done ++ others.filter fun page => page.1 ∉ Named.names done).filter
        (fun page => page.1 ≠ path) ↔
      page ∈ (done ++ [(path, text)]) ++
        others.filter fun page => page.1 ∉ Named.names (done ++ [(path, text)]) := by
  have differs : page ∈ done → page.1 ≠ path := fun member same =>
    fresh (same ▸ List.mem_map_of_mem member)
  simp only [List.mem_cons, List.mem_filter, List.mem_append, List.not_mem_nil, or_false,
    Named.names_append, Named.names_cons, Named.names_nil, decide_eq_true_eq, ne_eq, not_or]
  tauto

/-- Writing the pages puts them in the place of those under their paths, and afterwards their paths
can be followed. -/
theorem Setting.files_written (setting : Setting origin file folder)
    (keeps : Keeps (outside (origin.placeOf folder)) origin world.disk)
    (holds : Holds origin (origin.placeOf folder) others world.disk)
    (unbroken : ∀ page ∈ others, '\r' ∉ page.2)
    (pages : ArePages origin (origin.placeOf folder) texts)
    (returned : Returns (inTurn (fun (path, text) => writePage folder path text) texts)
      world changes
      later) (quiet : changes.diagnostics = []) :
    Keeps anywhere world.disk later.disk ∧
      Holds origin (origin.placeOf folder)
        (texts ++ others.filter fun page => page.1 ∉ Named.names texts) later.disk ∧
      (∀ page ∈ texts, later.disk.HasFollowed (folder.child page.1)) ∧
      ∀ place, outside (origin.placeOf folder) place →
        later.disk.files place = world.disk.files place := by
  refine inTurn_returns (motive := fun done disk => Keeps anywhere world.disk disk ∧
    Holds origin (origin.placeOf folder)
      (done ++ others.filter fun page => page.1 ∉ Named.names done) disk ∧
    (∀ page ∈ done, disk.HasFollowed (folder.child page.1)) ∧
    ∀ place, outside (origin.placeOf folder) place → disk.files place = world.disk.files place)
    returned quiet ?_ ?_
  · rintro done ⟨path, text⟩ left whole before result next stepped silent ⟨kept, held, way, same⟩
    have member : (path, text) ∈ texts := by rw [whole]; simp
    have fresh : path ∉ Named.names done := by
      have distinct := pages.distinct
      rw [whole, Named.names_append, Named.names_cons, List.nodup_middle, List.nodup_cons]
        at distinct
      exact fun present => distinct.1 (List.mem_append_left _ present)
    have place : before.disk.placeOf folder = origin.placeOf folder := by
      rw [kept.placeOf, keeps.placeOf]
    have vacant := pages.vacant _ member
    have clear := setting.isClear (keeps.trans (kept.weaken _)) held setting.folder_startOf
    obtain ⟨step, followed, changed⟩ := files_writePage (pages.canonical _ member) kept.plain clear
      stepped silent fun bytes present => by
        rw [place] at present
        obtain ⟨old, listed, _, utf8⟩ := held.isPageAt vacant present
        refine ⟨old.2, utf8.symm, ?_⟩
        rcases List.mem_append.mp listed with early | kept
        · exact pages.unbroken old (by rw [whole]; exact List.mem_append_left _ early)
        · exact unbroken old (List.mem_of_mem_filter kept)
    rw [place] at changed
    refine ⟨kept.trans step, ?_, ?_, fun other apart => ?_⟩
    · exact (held.write vacant changed).congr (mem_write fresh)
    · intro page here
      rcases List.mem_append.mp here with early | last
      · exact (way page early).of_keeps step
      · rw [List.mem_singleton.mp last]
        exact followed
    · have elsewhere : other ≠ origin.placeOf folder ++ Text.pieces '/' path := by
        rintro rfl
        exact apart (List.prefix_append _ _)
      rw [changed, Function.update_of_ne elsewhere, same other apart]
  · refine ⟨.refl keeps.plain _, holds.congr fun page => ?_, List.forall_mem_nil _, fun _ _ => rfl⟩
    simp

end Loops

end Manifest

end LuauReference
