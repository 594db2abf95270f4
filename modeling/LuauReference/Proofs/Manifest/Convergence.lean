/-
This file proves that a run settles the folder of pages at once. After a run that has nothing to
report, the same run deletes nothing, reports nothing and leaves every file as it is, the manifest
among them, whatever else has been in the folder before.

It does not find every page unchanged. A page is compared with what is read from its file, and
reading turns each carriage return into a line feed. So a page with a carriage return is never found
and is written again and again, and a file with carriage returns is taken for the page that has line
feeds in their place. The history at the end shows the first of these.
-/

import LuauReference.Proofs.Manifest.Account

namespace LuauReference

namespace Manifest

open Disk (Keeps HasFollowed CanFollow anywhere outside)
open Run (Returns returns_bind_iff returns_pure_iff returns_look_iff returns_change_iff
  returns_ensureFolders_iff returns_orRefused_ok_iff)

/-! ### Pages that are in place -/

/-- Whether the file of a page can be reached and holds its text or is read as it. -/
structure IsInPlace (disk : Disk) (folder : Path) (page : Text × Text) : Prop where
  reach : disk.CanFollow (folder.child page.1)
  reads : ∃ raw, disk.files (disk.placeOf (folder.child page.1)) = some (Text.utf8 raw) ∧
    (raw = page.2 ∨ Text.plainNewlines raw = page.2)

/-- What a run reports of pages that are in place: those with a carriage return are written
again. -/
def rewritten (texts : Named Text) : Changes :=
  { written := Named.names (texts.filter fun page => '\r' ∈ page.2)
    unchanged := Named.names (texts.filter fun page => '\r' ∉ page.2) }

theorem rewritten_cons (page : Text × Text) (rest : Named Text) :
    rewritten (page :: rest) = rewritten [page] ++ rewritten rest := by
  unfold rewritten
  by_cases broken : '\r' ∈ page.2
  · simp only [List.filter_cons, List.filter_nil, broken, decide_true, decide_false, not_true,
      if_true, Bool.false_eq_true, if_false]
    rfl
  · simp only
      [List.filter_cons, List.filter_nil, broken, decide_true, decide_false, not_false_eq_true,
      if_true, Bool.false_eq_true, if_false]
    rfl

/-- Without carriage returns all pages are found. -/
theorem rewritten_of_unbroken {texts : Named Text} (unbroken : ∀ page ∈ texts, '\r' ∉ page.2) :
    rewritten texts = { unchanged := Named.names texts } := by
  have none : (texts.filter fun page => '\r' ∈ page.2) = [] :=
    List.filter_eq_nil_iff.mpr fun page member => by simpa using unbroken page member
  have all : (texts.filter fun page => '\r' ∉ page.2) = texts :=
    List.filter_eq_self.mpr fun page member => by simpa using unbroken page member
  rw [rewritten, none, all]
  rfl

section

variable {folder : Path} {world : World}

/-- Whether the text is held is told by what is read from the file. -/
theorem returns_holdsText {path : Path} {raw text : Text}
    (found : world.disk.readBytes path = .ok (Text.utf8 raw)) :
    Returns (holdsText path text) world (Text.plainNewlines raw == text) world := by
  have read : world.disk.readText path = .ok (Text.plainNewlines raw) :=
    Disk.readText_eq_ok_iff.mpr ⟨_, raw, found, Text.ofUtf8?_utf8 raw, rfl⟩
  refine returns_bind_iff.mpr ⟨true, world, returns_look_iff.mpr
    ⟨Disk.isFile_eq_true_iff.mpr ⟨_, found⟩, rfl⟩, ?_⟩
  exact returns_bind_iff.mpr ⟨_, world, returns_look_iff.mpr ⟨read, rfl⟩, rfl⟩

/-- A text with a carriage return is put in its file again. What is read from the file has none and
so is not taken for the text. -/
theorem returns_putPage_broken {path : Path} {text : Text} (plain : world.disk.root.IsPlain)
    (reach : world.disk.CanFollow path) (proper : path.names ≠ [])
    (present : world.disk.files (world.disk.placeOf path) = some (Text.utf8 text))
    (broken : '\r' ∈ text) :
    Returns (putPage path text) world true world := by
  have differs : Text.plainNewlines text ≠ text := by
    intro equal
    refine Text.return_notMem_plainNewlines text ?_
    rwa [equal]
  obtain ⟨upper, above⟩ := reach.parent proper reach.usable.parent
  refine returns_bind_iff.mpr ⟨_, world, returns_holdsText (reach.readBytes_eq plain present), ?_⟩
  rw [beq_false_of_ne differs]
  exact returns_bind_iff.mpr ⟨(), world, returns_bind_iff.mpr ⟨(), world,
    returns_ensureFolders_iff.mpr ⟨_, upper.ensureFolders_eq plain above _, rfl⟩,
    returns_change_iff.mpr ⟨_, reach.writeText_eq plain present, rfl⟩⟩, rfl⟩

/-- A text that is read from its file is not put there. -/
theorem returns_putPage_held {path : Path} {raw text : Text}
    (found : world.disk.readBytes path = .ok (Text.utf8 raw))
    (reads : Text.plainNewlines raw = text) :
    Returns (putPage path text) world false world := by
  refine returns_bind_iff.mpr ⟨_, world, returns_holdsText found, ?_⟩
  rw [reads, beq_self_eq_true]
  rfl

/-- A page that is in place is found when it has no carriage return, and else written again, which
changes nothing. -/
theorem returns_writePage_again {page : Text × Text} (canonical : Path.IsCanonical page.1)
    (plain : world.disk.root.IsPlain) (inPlace : IsInPlace world.disk folder page) :
    Returns (writePage folder page.1 page.2) world (rewritten [page]) world := by
  obtain ⟨path, text⟩ := page
  obtain ⟨reach, raw, present, same⟩ := inPlace
  dsimp only at canonical reach present same
  by_cases broken : '\r' ∈ text
  · have differs : Text.plainNewlines raw ≠ text := fun equal =>
      Text.return_notMem_plainNewlines raw (equal ▸ broken)
    obtain rfl := same.resolve_right differs
    have proper : (folder.child path).names ≠ [] := by
      rw [Path.child_of_isCanonical folder canonical]
      exact List.append_ne_nil_of_right_ne_nil _ (Text.pieces_ne_nil '/' path)
    have reported : rewritten [(path, raw)] = { written := [path] } := by
      simp [rewritten, broken]
    rw [reported, writePage, normalize_of_isCanonical canonical]
    exact returns_bind_iff.mpr ⟨_, world,
      returns_orRefused_ok_iff.mpr (returns_putPage_broken plain reach proper present broken), rfl⟩
  · have reads : Text.plainNewlines raw = text := by
      rcases same with rfl | equal
      · exact Text.plainNewlines_of_notMem broken
      · exact equal
    have reported : rewritten [(path, text)] = { unchanged := [path] } := by
      simp [rewritten, broken]
    rw [reported, writePage, normalize_of_isCanonical canonical]
    exact returns_bind_iff.mpr ⟨_, world, returns_orRefused_ok_iff.mpr
      (returns_putPage_held (reach.readBytes_eq plain present) reads), rfl⟩

theorem returns_writing_again {texts : Named Text}
    (canonical : ∀ page ∈ texts, Path.IsCanonical page.1)
    (plain : world.disk.root.IsPlain) (inPlace : ∀ page ∈ texts, IsInPlace world.disk folder page) :
    Returns (inTurn (fun (path, text) => writePage folder path text) texts) world (rewritten texts)
      world := by
  induction texts with
  | nil => exact returns_pure_iff.mpr ⟨rfl, rfl⟩
  | cons page rest inductionHypothesis =>
    obtain ⟨own, others⟩ := List.forall_mem_cons.mp canonical
    obtain ⟨here, elsewhere⟩ := List.forall_mem_cons.mp inPlace
    exact returns_inTurn_cons_iff.mpr ⟨_, world, _, returns_writePage_again own plain here,
      inductionHypothesis others elsewhere, rewritten_cons page rest⟩

end

/-! ### The run after -/

/-- What a disk is like when a run would find everything as it leaves it: the manifest says already
what the run would take down, and the pages are in place. -/
structure IsConverged (file : Path) (given : Pages) (disk : Disk) : Prop where
  plain : disk.root.IsPlain
  usable : given.folder.IsUsable
  recorded : ∃ text value, disk.readText file = .ok text ∧ Json.read text = .ok value ∧
    (ofJson value).isCurrent given.lang given.paths given.input = true
  inPlace : ∀ page ∈ given.texts, IsInPlace disk given.folder page

theorem stale_of_isCurrent {manifest : Manifest} {given : Pages}
    (current : manifest.isCurrent given.lang given.paths given.input = true) :
    stale manifest given = [] := by
  rw [stale, outputsFor_of_isCurrent current]
  split
  · exact List.filter_eq_nil_iff.mpr fun path member => by simpa using member
  · rfl

/-- Such a run changes no file. -/
theorem IsConverged.session {file : Path} {given : Pages} {world : World}
    (converged : IsConverged file given world.disk)
    (canonical : ∀ page ∈ given.texts, Path.IsCanonical page.1) :
    ∃ later, Returns (session file given) world (rewritten (Text.sortOn (·.1) given.texts)) later ∧
      later.disk.files = world.disk.files := by
  obtain ⟨text, value, read, parsed, current⟩ := converged.recorded
  have order := Text.sortOn_perm (fun page : Text × Text => page.1) given.texts
  have deletes : Returns (deleting ⟨some file, ofJson value, false⟩ given) world {} world := by
    rw [deleting, stale_of_isCurrent current]
    exact returns_pure_iff.mpr ⟨rfl, rfl⟩
  have writes : Returns (writing given) world (rewritten (Text.sortOn (·.1) given.texts)) world :=
    returns_writing_again (fun page member => canonical page (order.mem_iff.mp member))
      converged.plain
      fun page member => converged.inPlace page (order.mem_iff.mp member)
  obtain ⟨⟨gone, swept⟩, pruned⟩ :=
    Disk.exists_prune_iff.mpr (Disk.exists_isFolder converged.plain converged.usable)
  have recording : Returns (Store.record ⟨some file, ofJson value, false⟩ given.lang given.paths
      given.input) { world with disk := swept } ⟨some file, ofJson value, false⟩
      { world with disk := swept } := by
    rw [Store.record, if_pos current]
    exact returns_pure_iff.mpr ⟨rfl, rfl⟩
  have applying : Returns (Store.apply ⟨some file, ofJson value, false⟩ given) world
      (rewritten (Text.sortOn (·.1) given.texts), ⟨some file, ofJson value, false⟩)
      { world with disk := swept } :=
    returns_bind_iff.mpr ⟨_, _, deletes, returns_bind_iff.mpr ⟨_, _, writes,
      returns_bind_iff.mpr
        ⟨(), _, returns_bind_iff.mpr ⟨_, _, returns_look_iff.mpr ⟨pruned, rfl⟩, rfl⟩,
        returns_bind_iff.mpr ⟨_, _, recording, returns_pure_iff.mpr ⟨rfl, rfl⟩⟩⟩⟩⟩
  have saving : Returns (Store.save ⟨some file, ofJson value, false⟩) { world with disk := swept }
      ⟨some file, ofJson value, false⟩ { world with disk := swept } :=
        returns_pure_iff.mpr ⟨rfl, rfl⟩
  obtain ⟨later, returned, same⟩ := session_of_steps (load_of_read read parsed) applying saving
  exact ⟨later, returned, same ▸ (Disk.prune_eq_ok converged.plain pruned).2⟩

/-! ### What a run leaves behind -/

/-- What the disk and the pages of a run have to be like: no page belongs in the place of the
manifest, the path of the folder passes no place inside of it, that of the manifest passes none
unless the manifest is below, and a manifest that is there already comes back from its text, as
those of the program do. -/
structure IsSteady (origin : Disk) (file : Path) (given : Pages) : Prop where
  plain : origin.root.IsPlain
  start : origin.root.HasFolderAt origin.start
  clean : given.clean = true
  distinct : (Named.names given.texts).Nodup
  canonical : ∀ page ∈ given.texts, Path.IsCanonical page.1
  usable : given.folder.IsUsable
  apart : ∀ page ∈ given.texts,
    origin.placeOf given.folder ++ Text.pieces '/' page.1 ≠ origin.placeOf file
  folderWay : ∀ place ∈ origin.placesPassed given.folder,
    ¬ IsInside (origin.placeOf given.folder) place
  fileWay : ∀ place ∈ origin.placesPassed file, origin.placeOf given.folder <+: place →
    place <+: origin.placeOf file ∧ place ≠ origin.placeOf file
  legible : ∀ text value, origin.readText file = .ok text → Json.read text = .ok value →
    value.IsPlain

/-- Whether the file at a place holds a text, or was there before with carriage returns and is read
as the text. -/
def StandsFor (before disk : Disk) (place : Place) (text : Text) : Prop :=
  disk.files place = some (Text.utf8 text) ∨
    ∃ raw, '\r' ∈ raw ∧ Text.plainNewlines raw = text ∧
      before.files place = some (Text.utf8 raw) ∧ disk.files place = some (Text.utf8 raw)

section

variable {origin disk after : Disk} {folder path : Path} {out : Place} {world later : World}
  {changes : Changes}

theorem StandsFor.congr {place : Place} {text : Text} (stands : StandsFor origin disk place text)
    (same : after.files place = disk.files place) : StandsFor origin after place text := by
  unfold StandsFor at stands ⊢
  rwa [same]

/-- A file that was there with carriage returns was there earlier, when files have only been deleted
before. -/
theorem StandsFor.earlier {place : Place} {text : Text} (stands : StandsFor disk after place text)
    (deleted : disk.files place = origin.files place ∨ disk.files place = none) :
    StandsFor origin after place text := by
  rcases stands with holds | ⟨raw, broken, reads, old, present⟩
  · exact Or.inl holds
  · rcases deleted with same | gone
    · exact Or.inr ⟨raw, broken, reads, same ▸ old, present⟩
    · exact nomatch gone.symm.trans old

theorem StandsFor.reads {place : Place} {text : Text} (stands : StandsFor origin disk place text) :
    ∃ raw, disk.files place = some (Text.utf8 raw) ∧
      (raw = text ∨ Text.plainNewlines raw = text) := by
  rcases stands with holds | ⟨raw, -, reads, -, present⟩
  · exact ⟨text, holds, Or.inl rfl⟩
  · exact ⟨raw, present, Or.inr reads⟩

/-- Deleting files leaves the others, whatever the paths are. -/
theorem files_deleting {paths : List Text} (plain : world.disk.root.IsPlain)
    (returned : Returns (inTurn (deleteStale folder) paths) world changes later)
    (quiet : changes.diagnostics = []) :
    Keeps anywhere world.disk later.disk ∧
      ∀ place, later.disk.files place = world.disk.files place ∨ later.disk.files place = none := by
  refine inTurn_returns (motive := fun _ disk => Keeps anywhere world.disk disk ∧
    ∀ place, disk.files place = world.disk.files place ∨ disk.files place = none) returned
      quiet ?_ ?_
  · intro done path left whole before result next stepped silent ⟨kept, same⟩
    rcases deleteStale_returns stepped silent with removed | ⟨-, unchanged⟩
    · obtain ⟨step, changed⟩ := Disk.files_removeFile kept.plain removed
      refine ⟨kept.trans step, fun place => ?_⟩
      rcases changed place with still | ⟨-, gone⟩
      · rw [still]
        exact same place
      · exact Or.inr gone
    · rw [unchanged]
      exact ⟨kept, same⟩
  · exact ⟨.refl plain _, fun _ => Or.inl rfl⟩

/-- After a page was written its path was followed, its file stands for its text, and no other file
has changed. -/
theorem standsFor_of_writePage {text : Text} {name : Text} (canonical : Path.IsCanonical name)
    (plain : world.disk.root.IsPlain)
    (start : world.disk.root.HasFolderAt (world.disk.startOf folder))
    (returned : Returns (writePage folder name text) world changes later)
    (quiet : changes.diagnostics = []) :
    Keeps anywhere world.disk later.disk ∧ later.disk.HasFollowed (folder.child name) ∧
      StandsFor world.disk later.disk (world.disk.placeOf (folder.child name)) text ∧
      ∀ place, place ≠ world.disk.placeOf (folder.child name) →
        later.disk.files place = world.disk.files place := by
  have outcome := writePage_returns returned quiet
  rw [normalize_of_isCanonical canonical] at outcome
  rcases outcome with ⟨read, unchanged⟩ | ⟨above, middle, ensured, written⟩
  · obtain ⟨followed, bytes, raw, present, decoded, same⟩ := Disk.readText_eq_ok plain read
    rw [unchanged]
    refine ⟨.refl plain _, followed, ?_, fun _ _ => rfl⟩
    rw [← Text.utf8_of_ofUtf8? decoded] at present
    by_cases broken : '\r' ∈ raw
    · exact Or.inr ⟨raw, broken, same.symm, present, present⟩
    · rw [Text.plainNewlines_of_notMem broken] at same
      exact Or.inl (same ▸ present)
  · have clear : world.disk.root.IsClear (world.disk.startOf (folder.child name)) := by
      rw [Disk.startOf_child world.disk folder canonical]
      exact .of_hasFolderAt start
    obtain ⟨kept, followed, changed⟩ := files_writeText plain clear ensured written
    refine ⟨kept, followed, Or.inl ?_, fun place other => ?_⟩
    · rw [changed, Function.update_self]
    · rw [changed, Function.update_of_ne other]

/-- After writing pages the path of each was followed, its file stands for its text, and no file
elsewhere has changed. -/
theorem standsFor_of_writing {texts : Named Text} (distinct : (Named.names texts).Nodup)
    (canonical : ∀ page ∈ texts, Path.IsCanonical page.1) (plain : world.disk.root.IsPlain)
    (start : world.disk.root.HasFolderAt (world.disk.startOf folder))
    (returned : Returns (inTurn (fun (path, text) => writePage folder path text) texts)
      world changes
      later) (quiet : changes.diagnostics = []) :
    Keeps anywhere world.disk later.disk ∧
      (∀ page ∈ texts, later.disk.HasFollowed (folder.child page.1) ∧
        StandsFor world.disk later.disk (world.disk.placeOf (folder.child page.1)) page.2) ∧
      ∀ place, (∀ page ∈ texts, place ≠ world.disk.placeOf (folder.child page.1)) →
        later.disk.files place = world.disk.files place := by
  refine inTurn_returns (motive := fun done disk => Keeps anywhere world.disk disk ∧
    (∀ page ∈ done, disk.HasFollowed (folder.child page.1) ∧
      StandsFor world.disk disk (world.disk.placeOf (folder.child page.1)) page.2) ∧
    ∀ place, (∀ page ∈ done, place ≠ world.disk.placeOf (folder.child page.1)) →
      disk.files place = world.disk.files place) returned quiet ?_ ?_
  · rintro done ⟨path, text⟩ left whole before result next stepped silent ⟨kept, stands, same⟩
    have member : (path, text) ∈ texts := by rw [whole]; simp
    have earlier : ∀ page ∈ done, page ∈ texts := fun page here => by
      rw [whole]
      exact List.mem_append_left _ here
    -- Distinct paths have distinct places, so writing one page leaves those before it alone.
    have elsewhere : ∀ page ∈ done, world.disk.placeOf (folder.child page.1) ≠
        world.disk.placeOf (folder.child path) := by
      intro page here same
      rw [world.disk.placeOf_child folder (canonical page (earlier page here)),
        world.disk.placeOf_child folder (canonical _ member)] at same
      have equal := Text.pieces_injective '/' (List.append_cancel_left same)
      rw [whole, Named.names_append, Named.names_cons, List.nodup_middle, List.nodup_cons]
        at distinct
      exact distinct.1 (List.mem_append_left _ (List.mem_map.mpr ⟨page, here, equal⟩))
    have began : before.disk.root.HasFolderAt (before.disk.startOf folder) := by
      rw [kept.startOf]
      exact kept.folders _ trivial start
    obtain ⟨step, followed, own, others⟩ :=
      standsFor_of_writePage (canonical _ member) kept.plain began stepped silent
    rw [kept.placeOf] at own others
    refine ⟨kept.trans step, fun page here => ?_, fun place apart => ?_⟩
    · rcases List.mem_append.mp here with early | last
      · obtain ⟨followed, stands⟩ := stands page early
        exact ⟨followed.of_keeps step, stands.congr (others _ (elsewhere page early))⟩
      · obtain rfl := List.mem_singleton.mp last
        exact ⟨followed, own.earlier (Or.inl (same _ fun page here => (elsewhere page here).symm))⟩
    · rw [others place (apart _ (List.mem_append_right _ List.mem_cons_self)),
        same place fun page here => apart page (List.mem_append_left _ here)]
  · exact ⟨.refl plain _, List.forall_mem_nil _, fun _ _ => rfl⟩

/-- A path that was followed at some time can be followed as long as the folders outside of the
folder of pages stay and there is a file below the places that the path passes in it. -/
theorem canFollow_of_hasFollowed {bytes : List UInt8}
    (start : origin.root.HasFolderAt (origin.startOf path)) (followed : disk.HasFollowed path)
    (early : Keeps (outside out) origin disk) (late : Keeps (outside out) disk after)
    (present : after.files (origin.placeOf path) = some bytes)
    (below : ∀ place ∈ origin.placesPassed path, out <+: place →
      place <+: origin.placeOf path ∧ place ≠ origin.placeOf path) : after.CanFollow path := by
  refine ⟨followed.usable, fun place member => ?_⟩
  rw [late.placesPassed, early.placesPassed] at member
  by_cases inside : out <+: place
  · obtain ⟨above, strict⟩ := below place member inside
    exact Entry.hasFolderAt_of_strictPrefix (Entry.fileAt?_eq_some_iff.mp present) above strict
  · rw [← early.placesPassed] at member
    rcases followed.way place member with folder | before
    · exact late.folders place inside folder
    · rw [early.startOf] at before
      have first := Entry.hasFolderAt_of_isPrefix start before
      exact late.folders place inside (early.folders place inside first)

end

section

variable {origin : Disk} {file : Path} {given : Pages} {world loaded swept later : World}
  {store noted saved : Store} {changes : Changes}

/-- The places that the path of a page passes in the folder of pages are above the page. -/
theorem IsSteady.pageWay (steady : IsSteady origin file given) (page : Text × Text)
    (here : page ∈ given.texts) :
    ∀ place ∈ origin.placesPassed (given.folder.child page.1),
      origin.placeOf given.folder <+: place →
      place <+: origin.placeOf (given.folder.child page.1) ∧
        place ≠ origin.placeOf (given.folder.child page.1) := by
  intro place passed inside
  have canonical := steady.canonical page here
  rw [origin.placeOf_child given.folder canonical]
  rw [origin.placesPassed_child given.folder canonical] at passed
  rcases List.mem_append.mp passed with early | late
  · rcases eq_or_outside (steady.folderWay place early) with rfl | apart
    · refine ⟨List.prefix_append _ _, fun same => ?_⟩
      exact Text.pieces_ne_nil '/' page.1 (List.self_eq_append_right.mp same)
    · exact absurd inside apart
  · obtain ⟨rest, proper, same⟩ := Disk.passed_of_ordinary canonical.dots_notMem late
    rw [← same]
    exact ⟨List.prefix_append place rest, fun equal => proper (List.self_eq_append_right.mp equal)⟩

/-- A manifest that is opened can be written. -/
theorem IsSteady.isLegible (steady : IsSteady world.disk file given)
    (loading : Returns (Store.load (some file)) world store loaded) : store.manifest.IsLegible := by
  obtain ⟨-, -, -, ⟨text, value, found, parsed, same⟩ | ⟨empty, -⟩⟩ := load_returns loading
  · exact same ▸ isLegible_ofJson (steady.legible text value found parsed)
  · exact empty ▸ isRegular_empty.isLegible

/-- After saving, the manifest in the file says what the run took down, and its path was
followed. -/
theorem IsSteady.recorded (steady : IsSteady world.disk file given)
    (loading : Returns (Store.load (some file)) world store loaded) {time : Text}
    (timed : time ≠ [])
    (recorded :
      (store.manifest.isCurrent given.lang given.paths given.input = true ∧ noted = store) ∨
      noted = { store with
        manifest := store.manifest.recordAt given.lang given.paths given.input time,
        isUnsaved := true })
    (kept : Keeps (outside (world.disk.placeOf given.folder)) world.disk swept.disk)
    (clear : swept.disk.root.IsClear (swept.disk.startOf file))
    (still : store.manifest.isCurrent given.lang given.paths given.input = true →
      swept.disk.files (world.disk.placeOf file) = world.disk.files (world.disk.placeOf file))
    (returned : Returns noted.save swept saved later) :
    Keeps anywhere swept.disk later.disk ∧
      (∀ place, place ≠ world.disk.placeOf file → later.disk.files place = swept.disk.files place) ∧
      (∃ followed, Keeps (outside (world.disk.placeOf given.folder)) world.disk followed ∧
        followed.HasFollowed file ∧
        Keeps (outside (world.disk.placeOf given.folder)) followed later.disk) ∧
      ∃ bytes raw value, later.disk.files (world.disk.placeOf file) = some bytes ∧
        Text.ofUtf8? bytes = some raw ∧ Json.read (Text.plainNewlines raw) = .ok value ∧
        (ofJson value).isCurrent given.lang given.paths given.input = true := by
  obtain ⟨-, path, upToDate, read⟩ := load_returns loading
  rcases recorded with ⟨current, rfl⟩ | rfl
  · -- Nothing is written: the file has the manifest that was opened.
    rcases save_returns returned path with ⟨-, unchanged⟩ | ⟨wrong, -⟩
    · rcases read with ⟨text, value, found, parsed, same⟩ | ⟨empty, -⟩
      · obtain ⟨followed, bytes, raw, present, decoded, rfl⟩ :=
          Disk.readText_eq_ok steady.plain found
        rw [unchanged]
        refine ⟨.refl kept.plain _, fun _ _ => rfl,
          ⟨world.disk, .refl steady.plain _, followed, kept⟩,
          bytes, raw, value, (still current).trans present, decoded, parsed, same ▸ current⟩
      · rw [empty] at current
        exact absurd current (not_isCurrent_empty _ _ _)
    · exact nomatch upToDate.symm.trans wrong
  · have legible := steady.isLegible loading
    have normal : ∀ path ∈ given.paths, normalize path = path := fun path member =>
      normalize_of_isCanonical (isCanonical_of_mem_paths steady.canonical path member)
    rcases save_returns returned path with ⟨wrong, -⟩ | ⟨-, above, middle, ensured, written⟩
    · exact nomatch wrong
    · obtain ⟨step, followed, changed⟩ := files_writeText kept.plain clear ensured written
      rw [kept.placeOf] at changed
      refine ⟨step, fun place other => ?_,
        ⟨later.disk, kept.trans (step.weaken _), followed, .refl step.plain _⟩,
        _, (store.manifest.recordAt given.lang given.paths given.input time).write, _, ?_,
        Text.ofUtf8?_utf8 _, ?_, isCurrent_ofJson legible normal given.lang given.input timed⟩
      · rw [changed, Function.update_of_ne other]
      · rw [changed, Function.update_self]
      · rw [Text.plainNewlines_of_notMem (unbroken_write _)]
        exact read_written (legible.recordAt normal given.lang given.input time)

/-- The places of the pages are not that of the manifest. -/
theorem IsSteady.placeOf_ne (steady : IsSteady origin file given) (page : Text × Text)
    (here : page ∈ given.texts) :
    origin.placeOf (given.folder.child page.1) ≠ origin.placeOf file := by
  rw [origin.placeOf_child given.folder (steady.canonical page here)]
  exact steady.apart page here

/-- After deleting and writing, the path of each page was followed and its file stands for its text.
The manifest is there as before when it was up to date, since nothing is deleted then. -/
theorem IsSteady.placed (steady : IsSteady world.disk file given) {deleted written : Changes}
    (deletes : Returns (deleting store given) world deleted swept)
    (writes : Returns (writing given) swept written later)
    (quiet : (deleted ++ written).diagnostics = []) :
    Keeps anywhere world.disk later.disk ∧
      (∀ page ∈ given.texts, later.disk.HasFollowed (given.folder.child page.1) ∧
        StandsFor world.disk later.disk (world.disk.placeOf (given.folder.child page.1)) page.2) ∧
      (store.manifest.isCurrent given.lang given.paths given.input = true →
        later.disk.files (world.disk.placeOf file) = world.disk.files
          (world.disk.placeOf file)) := by
  rw [diagnostics_append, List.append_eq_nil_iff] at quiet
  have order := Text.sortOn_perm (fun page : Text × Text => page.1) given.texts
  obtain ⟨kept, rest⟩ := files_deleting steady.plain deletes quiet.1
  have start : swept.disk.root.HasFolderAt (swept.disk.startOf given.folder) := by
    rw [kept.startOf]
    exact kept.folders _ trivial (Disk.hasFolderAt_startOf steady.start given.folder)
  obtain ⟨keptAgain, stands, others⟩ := standsFor_of_writing
    ((order.map Prod.fst).nodup_iff.mpr steady.distinct)
    (fun page here => steady.canonical page (order.mem_iff.mp here)) kept.plain start writes quiet.2
  simp only [order.mem_iff, kept.placeOf] at stands others
  refine ⟨kept.trans keptAgain, fun page here => ?_, fun current => ?_⟩
  · obtain ⟨followed, stands⟩ := stands page here
    exact ⟨followed, stands.earlier (rest _)⟩
  · rw [deleting, stale_of_isCurrent current] at deletes
    obtain ⟨-, rfl⟩ := returns_pure_iff.mp deletes
    exact others _ fun page here => (steady.placeOf_ne page here).symm

/-- After a run that has nothing to report, the same run would find everything as it leaves it. The
file of each page stands for its text. -/
theorem IsSteady.session (steady : IsSteady world.disk file given)
    (timed : world.clock (world.readings + 1) ≠ [])
    (returned : Returns (session file given) world changes later)
    (quiet : changes.diagnostics = []) :
    IsConverged file given later.disk ∧ ∀ page ∈ given.texts,
      StandsFor world.disk later.disk (world.disk.placeOf (given.folder.child page.1)) page.2 := by
  obtain ⟨store, noted, saved, loaded, swept, after, loading, applying, saving, left⟩ :=
    session_steps returned
  obtain ⟨deleted, written, first, second, deletes, writes, rfl, ⟨gone, pruned⟩, recorded⟩ :=
    apply_cases applying
  obtain ⟨unchanged, -⟩ := load_returns loading
  have clock := isTimeless_load (some file) world
  rw [loading.worldAfter_eq] at clock
  rw [clock.1, clock.2] at recorded
  rw [left]
  obtain ⟨early, stands, still⟩ := IsSteady.placed (unchanged ▸ steady) deletes writes quiet
  rw [unchanged] at early stands still
  -- Pruning and saving leave the pages alone.
  obtain ⟨pruning, same⟩ := Disk.prune_eq_ok early.plain pruned
  rw [early.placeOf] at pruning
  have kept := (early.weaken _).trans pruning
  have start (path : Path) := Disk.hasFolderAt_startOf steady.start path
  have clear : swept.disk.root.IsClear (swept.disk.startOf file) := by
    rw [Disk.isClear_iff_of_files early.plain kept.plain same, kept.startOf]
    exact .of_hasFolderAt (early.folders _ trivial (start file))
  obtain ⟨saves, others, ⟨followed, before, fileFollowed, since⟩, bytes, raw, value,
    present, decoded,
    parsed, current⟩ := steady.recorded loading timed recorded kept clear
      (fun current => (congrFun same _).trans (still current)) saving
  have standing (page : Text × Text) (here : page ∈ given.texts) :
      StandsFor world.disk after.disk (world.disk.placeOf (given.folder.child page.1)) page.2 :=
    (stands page here).2.congr ((others _ (steady.placeOf_ne page here)).trans (congrFun same _))
  have whole := kept.trans (saves.weaken _)
  refine ⟨⟨whole.plain, steady.usable, ?_, fun page here => ?_⟩, standing⟩
  · have reach :=
      canFollow_of_hasFollowed (start file) fileFollowed before since present steady.fileWay
    rw [← whole.placeOf] at present
    exact ⟨_, value,
      Disk.readText_eq_ok_iff.mpr ⟨bytes, raw, reach.readBytes_eq whole.plain present,
      decoded, rfl⟩, parsed, current⟩
  · obtain ⟨raw, present, reads⟩ := (standing page here).reads
    refine ⟨canFollow_of_hasFollowed (start _) (stands page here).1 (early.weaken _)
      (pruning.trans (saves.weaken _)) present (steady.pageWay page here), raw, ?_, reads⟩
    rw [whole.placeOf]
    exact present

end

/-- A run that has nothing to report settles the folder of pages. Made once more, on the disk that
it left and with the manifest opened anew, it deletes nothing, reports nothing and leaves all files
as they are; it writes the pages with a carriage return again and finds the others unchanged. The
file of each page holds its text, unless it was there before with carriage returns and is read as
the text. -/
theorem repeated_run_keeps_files {file : Path} {given : Pages} {world later : World}
    {changes : Changes}
    (steady : IsSteady world.disk file given) (timed : world.clock (world.readings + 1) ≠ [])
    (returned : Returns (session file given) world changes later) (quiet : changes.diagnostics = [])
    {again : World} (same : again.disk = later.disk) :
    (∃ last, Returns (session file given) again (rewritten (Text.sortOn (·.1) given.texts)) last ∧
      last.disk.files = later.disk.files) ∧
    ∀ page ∈ given.texts,
      StandsFor world.disk later.disk (world.disk.placeOf (given.folder.child page.1)) page.2 := by
  obtain ⟨converged, standing⟩ := steady.session timed returned quiet
  rw [← same] at converged ⊢
  exact ⟨converged.session steady.canonical, same ▸ standing⟩

/-! ### Runs with a single page -/

section Samples

/-- A world with nothing on its disk and with a clock. -/
def timedWorld : World :=
  { sampleWorld [] with clock := fun _ => ['1'] }

/-- The page `a` with a text. -/
def textPage (text : Text) : Pages :=
  { folder := sampleFolder, lang := [], texts := [("a".toList, text)] }

theorem isSteady_textPage (text : Text) : IsSteady timedWorld.disk sampleFile (textPage text) where
  plain := Entry.isPlain_folder_nil
  start := ⟨_, rfl⟩
  clean := rfl
  distinct := List.nodup_singleton _
  canonical := List.forall_mem_singleton.mpr (show Path.IsCanonical "a".toList by decide)
  usable := show sampleFolder.IsUsable from ⟨by decide, by decide, by decide⟩
  apart := List.forall_mem_singleton.mpr (show timedWorld.disk.placeOf sampleFolder ++
    Text.pieces '/' "a".toList ≠ timedWorld.disk.placeOf sampleFile by decide)
  folderWay := show ∀ place ∈ timedWorld.disk.placesPassed sampleFolder,
    ¬ IsInside (timedWorld.disk.placeOf sampleFolder) place by decide
  fileWay := show ∀ place ∈ timedWorld.disk.placesPassed sampleFile,
    timedWorld.disk.placeOf sampleFolder <+: place → place <+: timedWorld.disk.placeOf sampleFile ∧
      place ≠ timedWorld.disk.placeOf sampleFile by decide
  legible text value read := nomatch read

theorem sortOn_textPage (text : Text) :
    Text.sortOn (·.1) (textPage text).texts = [("a".toList, text)] :=
  List.mergeSort_singleton _

/-- The first run writes the page and the manifest. -/
theorem returns_textPage (text : Text) : ∃ later,
    Returns (session sampleFile (textPage text)) timedWorld { written := ["a".toList] } later := by
  let out : Entry := .folder [("a".toList, .file (Text.utf8 text))]
  let written : World := { timedWorld with disk := (sampleWorld [("out".toList, out)]).disk }
  have stepped : Returns (writePage sampleFolder "a".toList text) timedWorld
      { written := ["a".toList] } written := returns_writePage rfl rfl rfl
  have writing : Returns (inTurn (fun (path, text) => writePage sampleFolder path text)
      (Text.sortOn (·.1) (textPage text).texts)) timedWorld ({ written := ["a".toList] } ++ {})
      written := by
    rw [sortOn_textPage]
    exact returns_inTurn_single stepped
  have pruning : written.disk.prune sampleFolder = .ok (false, written.disk) := rfl
  have ensuring : written.disk.ensureFolders sampleFile.parent.names.length sampleFile.parent =
      (.ok (), written.disk) := rfl
  have storing (manifest : Text) :
      ∃ after, written.disk.writeText sampleFile manifest = .ok after :=
    ⟨_, rfl⟩
  obtain ⟨after, stored⟩ := storing _
  obtain ⟨later, returned, -⟩ :=
    session_of_missing (textPage text) rfl writing pruning ensuring stored
  exact ⟨later, returned⟩

/-- A page without a carriage return is found by the second run. -/
theorem repeated_run_keeps_files_one_page : ∃ later last,
    Returns (session sampleFile (textPage ['x'])) timedWorld { written := ["a".toList] } later ∧
      Returns (session sampleFile (textPage ['x'])) later { unchanged := ["a".toList] } last ∧
      last.disk.files = later.disk.files ∧
      StandsFor timedWorld.disk later.disk ["out".toList, "a".toList] ['x'] := by
  obtain ⟨later, returned⟩ := returns_textPage ['x']
  obtain ⟨⟨last, again, same⟩, standing⟩ := repeated_run_keeps_files (isSteady_textPage ['x'])
    (List.cons_ne_nil _ _) returned rfl rfl
  rw [sortOn_textPage, rewritten_of_unbroken (List.forall_mem_singleton.mpr (by decide))] at again
  exact ⟨later, last, returned, again, same, standing _ List.mem_cons_self⟩

/-- A page that is a carriage return is written by the second run as by the first. -/
theorem not_repeated_run_finds_pages : ¬ ∀ (file : Path) (given : Pages) (world later : World)
    (changes : Changes), IsSteady world.disk file given → world.clock (world.readings + 1) ≠ [] →
    Returns (session file given) world changes later → changes.diagnostics = [] →
    ∀ again : World, again.disk = later.disk → ∃ reported last,
      Returns (session file given) again reported last ∧ reported.written = [] ∧
      reported.deleted = [] ∧ reported.unchanged = given.paths ∧
      last.disk.files (world.disk.placeOf file) = later.disk.files (world.disk.placeOf file) ∧
      ∀ page ∈ given.texts, last.disk.files (world.disk.placeOf (given.folder.child page.1)) =
        some (Text.utf8 page.2) := by
  intro claim
  have steady := isSteady_textPage ['\r']
  have timed : timedWorld.clock (timedWorld.readings + 1) ≠ [] := List.cons_ne_nil _ _
  obtain ⟨later, returned⟩ := returns_textPage ['\r']
  obtain ⟨converged, -⟩ := steady.session timed returned rfl
  obtain ⟨last, again, -⟩ := converged.session steady.canonical
  obtain ⟨reported, _, other, none, -⟩ := claim _ _ _ _ _ steady timed returned rfl later rfl
  obtain rfl := Except.ok.inj (Prod.mk.inj (other.symm.trans again)).1
  rw [sortOn_textPage] at none
  exact absurd none (by decide)

end Samples

end Manifest

end LuauReference
