/-
This file proves that a run accounts for its pages and when it comes to an end at all. Deleting and
writing go through pages in turn, and what the disk refuses is reported and does not stop the rest,
so each page is either written, found or reported, and each stale page that stays is reported. A run
ends early only for a reason that is no refusal, and these are few: a path with a null character,
bytes that are no text, a numeral that is too long, and a disk that does not tell whether the folder
of pages is there.

Nothing is asked of the disk here. With links, a step can change what a later one finds, so what has
to hold of a page is said of the world in which its turn comes.

Two things that can end a program early have no place in these runs, since nothing runs out here and
a text holds whole characters only: a stack of calls that is used up, and half of a pair of units in
a recorded path. That a run comes to an end is therefore said only where neither can happen, and
these conditions have names of their own (`HoldsModestText`, `Store.StaysShallow`). That a run which
came to an end met what is asked of it needs none of them.
-/

import LuauReference.Proofs.Disk.Refusal
import LuauReference.Proofs.Manifest.History
import LuauReference.Proofs.Text.Order

namespace LuauReference

namespace Manifest

open Failure (FailsOnDisk)
open Run (Returns Finishes worldAfter returns_bind_iff returns_pure_iff finishes_bind_iff)

/-! ### Turns -/

section Turns

variable {α : Type} {step : α → Run Changes} {items : List α} {world later : World}
    {changes : Changes}

/-- Items with the worlds in which their turns come. -/
def turns (step : α → Run Changes) : List α → World → List (α × World)
  | [], _ => []
  | item :: rest, world => (item, world) :: turns step rest (worldAfter (step item) world)

/-- Every item has its turn, and nothing else has. -/
theorem exists_turn_iff {item : α} : (∃ before, (item, before) ∈ turns step items world) ↔
    item ∈ items := by
  induction items generalizing world with
  | nil => exact iff_of_false (fun ⟨_, inside⟩ => List.not_mem_nil inside) List.not_mem_nil
  | cons first rest inductionHypothesis =>
    simp only [turns, List.mem_cons, Prod.mk.injEq, exists_or, exists_and_left, exists_eq, and_true,
      inductionHypothesis]

/-- Steps in turn finish exactly when each of them does in its turn. -/
theorem finishes_inTurn_iff : Finishes (inTurn step items) world ↔
    ∀ turn ∈ turns step items world, Finishes (step turn.1) turn.2 := by
  induction items generalizing world with
  | nil => exact iff_of_true (Run.finishes_pure _ _) (List.forall_mem_nil _)
  | cons item rest inductionHypothesis =>
    have others (first : Changes) (middle : World) :
        Finishes (do let more ← inTurn step rest; pure (first ++ more)) middle ↔
          ∀ turn ∈ turns step rest middle, Finishes (step turn.1) turn.2 := by
      rw [← inductionHypothesis]
      exact Run.finishes_bind_iff_left fun more last => Run.finishes_pure _ _
    rw [inTurn, turns, List.forall_mem_cons]
    exact Run.finishes_bind_iff_and others

/-- What is done and reported in one turn is done and reported in all. -/
theorem exists_of_mem_turns (returned : Returns (inTurn step items) world changes later)
    {turn : α × World} (inside : turn ∈ turns step items world) :
    ∃ result next, Returns (step turn.1) turn.2 result next ∧
      result.deleted ⊆ changes.deleted ∧ result.diagnostics ⊆ changes.diagnostics := by
  induction items generalizing world changes with
  | nil => cases inside
  | cons item rest inductionHypothesis =>
    obtain ⟨first, middle, more, stepped, others, rfl⟩ := returns_inTurn_cons_iff.mp returned
    rw [turns, stepped.worldAfter_eq] at inside
    rcases List.mem_cons.mp inside with rfl | below
    · exact ⟨first, middle, stepped, List.subset_append_left _ _, List.subset_append_left _ _⟩
    · obtain ⟨result, next, given, deleted, reported⟩ := inductionHypothesis others below
      exact ⟨result, next, given, List.subset_append_of_subset_right _ deleted,
        List.subset_append_of_subset_right _ reported⟩

end Turns

/-! ### Deleting -/

section Deleting

variable {folder : Path} {path : Text} {world later : World} {changes : Changes}

/-- Deleting a page comes to an end exactly when its path has no null character. -/
theorem finishes_deleteStale_iff :
    Finishes (deleteStale folder path) world ↔ '\x00' ∉ (folder.child path).text := by
  have removal : Finishes (Run.orRefused (Run.change (·.removeFile (folder.child path)))) world ↔
      '\x00' ∉ (folder.child path).text := by
    rw [Run.finishes_orRefused_iff, Run.failsOnDisk_change_iff, Disk.failsOnDisk_removeFile_iff]
  refine (Run.finishes_bind_iff_left fun result middle => ?_).trans removal
  split
  · exact Run.finishes_pure _ _
  · exact Run.finishes_pure _ _
  · exact ⟨_, _, rfl⟩

/-- Deleting pages writes none and reports no error. -/
theorem inTurn_deleteStale_accounts {paths : List Text}
    (returned : Returns (inTurn (deleteStale folder) paths) world changes later) :
    changes.written = [] ∧ changes.unchanged = [] ∧
      ∀ diagnostic ∈ changes.diagnostics, diagnostic.isError = false := by
  induction paths generalizing world changes with
  | nil =>
    obtain ⟨rfl, -⟩ := returns_pure_iff.mp returned
    exact ⟨rfl, rfl, List.forall_mem_nil _⟩
  | cons path rest inductionHypothesis =>
    obtain ⟨first, middle, more, stepped, others, rfl⟩ := returns_inTurn_cons_iff.mp returned
    obtain ⟨written, unchanged, reported⟩ := inductionHypothesis others
    have own : first.written = [] ∧ first.unchanged = [] ∧
        ∀ diagnostic ∈ first.diagnostics, diagnostic.isError = false := by
      rcases deleteStale_cases stepped with ⟨-, rfl⟩ | ⟨-, -, rfl⟩ | ⟨fault, -, -, rfl⟩
      · exact ⟨rfl, rfl, List.forall_mem_nil _⟩
      · exact ⟨rfl, rfl, List.forall_mem_nil _⟩
      · exact ⟨rfl, rfl, List.forall_mem_singleton.mpr rfl⟩
    refine ⟨?_, ?_, List.forall_mem_append.mpr ⟨own.2.2, reported⟩⟩
    · exact List.append_eq_nil_iff.mpr ⟨own.1, written⟩
    · exact List.append_eq_nil_iff.mpr ⟨own.2.1, unchanged⟩

end Deleting

/-! ### Writing -/

section Writing

variable {folder : Path} {path text : Text} {world later : World} {changes : Changes}

/-- Whether the file at a path, if there is one, holds text. -/
def HoldsText (disk : Disk) (path : Path) : Prop :=
  ∀ bytes, disk.readBytes path = .ok bytes → (Text.ofUtf8? bytes).isSome

theorem failsOnDisk_putPage {target : Path} (named : '\x00' ∉ target.text)
    (held : HoldsText world.disk target) :
    FailsOnDisk (Run.outcome (putPage target text) world).1 := by
  refine Run.failsOnDisk_bind (Run.failsOnDisk_bind (Run.failsOnDisk_look Disk.failsOnDisk_isFile)
    fun present middle asked => ?_) fun same middle looked => ?_
  · obtain ⟨-, rfl⟩ := Run.returns_look_iff.mp asked
    cases present with
    | false => exact Failure.failsOnDisk_ok false
    | true =>
      refine Run.failsOnDisk_bind (Run.failsOnDisk_look ?_) fun found _ _ =>
        Failure.failsOnDisk_ok _
      exact (Disk.failsOnDisk_readText_iff named).mpr held
  · cases same with
    | true => exact Failure.failsOnDisk_ok false
    | false =>
      refine Run.failsOnDisk_bind (Run.failsOnDisk_bind (Run.failsOnDisk_ensureFolders ?_)
        fun _ upper _ => Run.failsOnDisk_change_iff.mpr ?_) fun _ _ _ => Failure.failsOnDisk_ok true
      · exact Disk.failsOnDisk_ensureFolders (Path.null_notMem_parent named) _
      · exact Disk.failsOnDisk_writeText named text

/-- A page whose file is no text makes the run fail. -/
theorem holdsText_of_failsOnDisk_putPage {target : Path} (named : '\x00' ∉ target.text)
    (fails : FailsOnDisk (Run.outcome (putPage target text) world).1) :
    HoldsText world.disk target := by
  intro bytes read
  have present := Disk.isFile_eq_true_iff.mpr ⟨bytes, read⟩
  refine (Disk.failsOnDisk_readText_iff named).mp
    (fun failure failed => fails failure ?_) bytes read
  simp only [putPage, holdsText, Run.outcome_bind, Run.outcome_look, present, failed, if_true]

/-- Writing a page comes to an end exactly when the file in its place, if there is one, holds
text. -/
theorem finishes_writePage_iff (named : '\x00' ∉ (folder.child (normalize path)).text) :
    Finishes (writePage folder path text) world ↔
      HoldsText world.disk (folder.child (normalize path)) := by
  refine (Run.finishes_bind_iff_left fun result middle => ?_).trans
    (Run.finishes_orRefused_iff.trans
      ⟨holdsText_of_failsOnDisk_putPage named, failsOnDisk_putPage named⟩)
  split
  · exact Run.finishes_pure _ _
  · exact Run.finishes_pure _ _
  · exact ⟨_, _, rfl⟩

/-- Each page is written, found or reported as an error. -/
theorem inTurn_writePage_accounts {texts : Named Text}
    (returned : Returns (inTurn (fun (path, text) => writePage folder path text) texts)
      world changes
      later) :
    ∃ failed : List Text,
      (changes.written ++ changes.unchanged ++ failed).Perm
        (texts.map fun page => normalize page.1) ∧
        changes.diagnostics.map (fun diagnostic => (diagnostic.isError, diagnostic.file)) =
          failed.map fun path => (true, (folder.child path).text) := by
  induction texts generalizing world changes with
  | nil =>
    obtain ⟨rfl, -⟩ := returns_pure_iff.mp returned
    exact ⟨[], .nil, rfl⟩
  | cons page rest inductionHypothesis =>
    obtain ⟨path, text⟩ := page
    obtain ⟨first, middle, more, stepped, others, rfl⟩ := returns_inTurn_cons_iff.mp returned
    obtain ⟨failed, accounted, reported⟩ := inductionHypothesis others
    rcases writePage_cases stepped with ⟨rfl, -⟩ | ⟨rfl, -⟩ | ⟨fault, rfl⟩
    · exact ⟨failed, accounted.cons _, reported⟩
    · refine ⟨failed, ?_, reported⟩
      refine List.Perm.trans ?_ (accounted.cons _)
      exact (List.perm_middle.append_right failed)
    · refine ⟨normalize path :: failed, ?_, ?_⟩
      · exact List.perm_middle.trans (accounted.cons _)
      · exact congrArg ((true, (folder.child (normalize path)).text) :: ·) reported

end Writing

/-! ### Opening and saving -/

section Opening

variable {file folder : Path} {world : World} {store : Store}

/-- Whether the manifest in a file can be opened: its path has no null character, and what is in the
file, if anything, is text in which no value is awaited where a numeral that is too long stands. -/
structure IsReadable (disk : Disk) (file : Path) : Prop where
  named : '\x00' ∉ file.text
  text : ∀ bytes, disk.readBytes file = .ok bytes → ∃ raw, Text.ofUtf8? bytes = some raw ∧
    Json.read (Text.plainNewlines raw) ≠ .error .numeralTooLong

/-- So many levels can be gone down or up without using up the stack of calls. It has room for a
thousand, and whoever runs the program needs some of them. -/
def levels : Nat := 500

/-- Whether the text in the file of a manifest, if there is one, is of the kind that can be held and
written again: each half of a pair of units has its other half, and lists and objects do not nest
too deep. -/
structure HoldsModestText (disk : Disk) (file : Path) : Prop where
  paired : ∀ raw, disk.readText file = .ok raw →
    ∀ units, .text units ∈ Json.tokens raw → Json.arePaired units = true
  shallow : ∀ raw, disk.readText file = .ok raw → ∀ front, front <+: Json.tokens raw →
    front.countP Json.Token.opens ≤ front.countP Json.Token.closes + levels

theorem holdsModestText_of_missing {disk : Disk} {failure : Failure}
    (missing : disk.readText file = .error failure) : HoldsModestText disk file where
  paired _ found := nomatch missing.symm.trans found
  shallow _ found := nomatch missing.symm.trans found

theorem finishes_load : Finishes (Store.load (some file)) world ↔
    match world.disk.readText file with
    | .ok raw => Json.read raw ≠ .error .numeralTooLong
    | .error failure => ∃ fault, failure = .disk fault := by
  unfold Store.load
  refine Run.finishes_get_bind_iff.trans ?_
  cases world.disk.readText file with
  | ok raw =>
    dsimp only
    cases Json.read raw with
    | ok value => exact iff_of_true (Run.finishes_pure _ _) nofun
    | error fault =>
      cases fault with
      | malformed => exact iff_of_true ⟨_, _, rfl⟩ nofun
      | numeralTooLong => exact iff_of_false Run.not_finishes_throw fun other => other rfl
  | error failure =>
    cases failure with
    | disk fault =>
      refine iff_of_true ?_ ⟨fault, rfl⟩
      obtain ⟨cause, text⟩ := fault
      cases cause <;> exact ⟨_, _, rfl⟩
    | _ => exact iff_of_false Run.not_finishes_throw nofun

/-- A manifest is opened exactly when it is readable, whatever else is in its file. -/
theorem finishes_load_iff : Finishes (Store.load (some file)) world ↔
    IsReadable world.disk file := by
  rw [finishes_load]
  cases read : world.disk.readText file with
  | ok raw =>
    obtain ⟨bytes, decoded, found, utf8, rfl⟩ := Disk.readText_eq_ok_iff.mp read
    constructor
    · intro parsed
      refine ⟨Disk.null_notMem_of_readBytes found, fun other again => ?_⟩
      obtain rfl := Except.ok.inj (found.symm.trans again)
      exact ⟨decoded, utf8, parsed⟩
    · intro readable
      obtain ⟨other, again, parsed⟩ := readable.text bytes found
      rwa [Option.some.inj (utf8.symm.trans again)]
  | error failure =>
    constructor
    · rintro ⟨fault, rfl⟩
      have named : '\x00' ∉ file.text := fun null =>
        nomatch (Disk.readText_of_null null).symm.trans read
      have fails : FailsOnDisk (world.disk.readText file) := read ▸ Failure.failsOnDisk_disk fault
      refine ⟨named, fun bytes found => ?_⟩
      obtain ⟨raw, decoded⟩ := Option.isSome_iff_exists.mp
        ((Disk.failsOnDisk_readText_iff named).mp fails bytes found)
      exact nomatch read.symm.trans (Disk.readText_eq_ok_iff.mpr ⟨bytes, raw, found, decoded, rfl⟩)
    · intro readable
      refine (Disk.failsOnDisk_readText_iff readable.named).mpr (fun bytes found => ?_) failure read
      obtain ⟨raw, decoded, -⟩ := readable.text bytes found
      exact Option.isSome_of_eq_some decoded

theorem finishes_pruneFolder_iff :
    Finishes (pruneFolder folder) world ↔ ∃ present, world.disk.isFolder folder = .ok present := by
  refine (Run.finishes_bind_iff_left fun result middle => ⟨(), _, rfl⟩).trans ?_
  rw [Run.finishes_look_iff, Disk.exists_prune_iff]

theorem finishes_record (lang : Text) (paths : List Text) (input : Input) :
    Finishes (store.record lang paths input) world := by
  unfold Store.record
  split
  · exact Run.finishes_pure _ _
  · exact ⟨_, _, rfl⟩

theorem finishes_save_iff : Finishes store.save world ↔
    (store.isUnsaved = true → ∀ file, store.path = some file →
      Finishes (Run.writeText file store.manifest.write) world) := by
  unfold Store.save
  cases store.path with
  | none => exact iff_of_true (Run.finishes_pure _ _) fun _ _ other => nomatch other
  | some file =>
    dsimp only
    split
    · next unsaved =>
      refine (Run.finishes_bind_iff_left fun _ _ => Run.finishes_pure _ _).trans ?_
      constructor
      · rintro ends - other same
        exact Option.some.inj same ▸ ends
      · exact fun ends => ends unsaved file rfl
    · next saved => exact iff_of_true (Run.finishes_pure _ _) fun unsaved => absurd unsaved saved

end Opening

/-! ### Coming to an end -/

section Reconciling

variable {store : Store} {given : Pages} {world : World}

/-- The part of a run that deletes pages of the run before. -/
abbrev deleting (store : Store) (given : Pages) : Run Changes :=
  inTurn (deleteStale given.folder) (stale store.manifest given)

/-- The part of a run that writes pages. -/
abbrev writing (given : Pages) : Run Changes :=
  inTurn (fun (path, text) => writePage given.folder path text) (Text.sortOn (·.1) given.texts)

/-- The pages of a run with the worlds in which their turns come. -/
abbrev pageTurns (store : Store) (given : Pages) (world : World) : List ((Text × Text) × World) :=
  turns (fun (path, text) => writePage given.folder path text) (Text.sortOn (·.1) given.texts)
    (worldAfter (deleting store given) world)

/-- What has to hold for a run to come to an end: no path of the run before that is deleted has a
null character, the file in the place of a page holds text when the turn of the page comes, the disk
tells whether there is a folder of pages, and the manifest can be written. A disk does not tell this
of a path that is too long, nor would one that denies the way there. -/
structure Store.CanReconcile (store : Store) (given : Pages) (world : World) : Prop where
  recorded : ∀ path ∈ stale store.manifest given, '\x00' ∉ (given.folder.child path).text
  texts : ∀ turn ∈ pageTurns store given world, HoldsText turn.2.disk (given.folder.child turn.1.1)
  folder : ∃ present, (worldAfter (writing given)
    (worldAfter (deleting store given) world)).disk.isFolder given.folder = .ok present
  saved : ∀ changes noted later, Returns (store.apply given) world (changes, noted) later →
    noted.isUnsaved = true → ∀ file, noted.path = some file →
      Finishes (Run.writeText file noted.manifest.write) later

/-- Whether a run goes no further up or down than the stack of calls allows: the paths at which
folders are made have few names, and the folders among which empty ones are looked for do not nest
too deep. -/
structure Store.StaysShallow (store : Store) (given : Pages) (world : World) : Prop where
  pages : ∀ page ∈ given.texts, (given.folder.child page.1).names.length ≤ levels
  manifest : ∀ file, store.path = some file → file.names.length ≤ levels
  folders : ∀ entry, (worldAfter (writing given)
      (worldAfter (deleting store given) world)).disk.entryAt given.folder = .ok (some entry) →
    ∀ place ∈ entry.foldersUp, place.length ≤ levels

theorem isTimeless_deleting (store : Store) (given : Pages) :
    Run.IsTimeless (deleting store given) :=
  isTimeless_inTurn fun path => isTimeless_deleteStale given.folder path

theorem isTimeless_writing (given : Pages) : Run.IsTimeless (writing given) := by
  refine isTimeless_inTurn ?_
  rintro ⟨path, text⟩
  exact isTimeless_writePage given.folder path text

theorem finishes_deleting_iff : Finishes (deleting store given) world ↔
    ∀ path ∈ stale store.manifest given, '\x00' ∉ (given.folder.child path).text := by
  rw [finishes_inTurn_iff]
  constructor
  · intro ends path listed
    obtain ⟨before, turn⟩ := exists_turn_iff.mpr listed
    exact finishes_deleteStale_iff.mp (ends (path, before) turn)
  · intro named turn inside
    exact finishes_deleteStale_iff.mpr (named turn.1 (exists_turn_iff.mp ⟨turn.2, inside⟩))

theorem finishes_writing_iff (canonical : ∀ page ∈ given.texts, Path.IsCanonical page.1)
    (named : ∀ page ∈ given.texts, '\x00' ∉ (given.folder.child page.1).text) :
    Finishes (writing given) world ↔
      ∀ turn ∈ turns (fun (path, text) => writePage given.folder path text)
        (Text.sortOn (·.1) given.texts) world,
        HoldsText turn.2.disk (given.folder.child turn.1.1) := by
  rw [finishes_inTurn_iff]
  refine forall₂_congr fun turn inside => ?_
  have listed : turn.1 ∈ given.texts :=
    (Text.sortOn_perm _ _).mem_iff.mp (exists_turn_iff.mp ⟨turn.2, inside⟩)
  have same := normalize_of_isCanonical (canonical turn.1 listed)
  rw [← same]
  refine finishes_writePage_iff ?_
  rw [same]
  exact named turn.1 listed

/-- A run comes to an end exactly when what has to hold for it does. -/
theorem finishes_reconcile_iff (canonical : ∀ page ∈ given.texts, Path.IsCanonical page.1)
    (named : ∀ page ∈ given.texts, '\x00' ∉ (given.folder.child page.1).text) :
    Finishes (store.reconcile given) world ↔ store.CanReconcile given world := by
  -- Recording always comes to an end, so what can stop a run are these three parts and saving.
  have applied : Finishes (store.apply given) world ↔ Finishes (deleting store given) world ∧
      Finishes (writing given) (worldAfter (deleting store given) world) ∧
      Finishes (pruneFolder given.folder)
        (worldAfter (writing given) (worldAfter (deleting store given) world)) := by
    refine Run.finishes_bind_iff_and fun _ first => Run.finishes_bind_iff_and fun _ second => ?_
    refine Run.finishes_bind_iff_left fun _ third => ?_
    refine (Run.finishes_bind_iff_left fun _ _ => Run.finishes_pure _ _).mpr ?_
    exact finishes_record _ _ _
  constructor
  · intro ends
    obtain ⟨⟨changes, noted⟩, later, returned, rest⟩ := finishes_bind_iff.mp ends
    obtain ⟨deletes, writes, prunes⟩ := applied.mp ⟨_, _, returned⟩
    refine ⟨finishes_deleting_iff.mp deletes, (finishes_writing_iff canonical named).mp writes,
      finishes_pruneFolder_iff.mp prunes, fun _ _ _ again => ?_⟩
    cases again.symm.trans returned
    exact finishes_save_iff.mp ((Run.finishes_bind_iff_left fun _ _ => ⟨_, _, rfl⟩).mp rest)
  · intro can
    obtain ⟨⟨changes, noted⟩, later, returned⟩ :=
      applied.mpr ⟨finishes_deleting_iff.mpr can.recorded,
      (finishes_writing_iff canonical named).mpr can.texts, finishes_pruneFolder_iff.mpr can.folder⟩
    refine finishes_bind_iff.mpr ⟨_, later, returned,
      (Run.finishes_bind_iff_left fun _ _ => ⟨_, _, rfl⟩).mpr ?_⟩
    exact finishes_save_iff.mpr (can.saved changes noted later returned)

end Reconciling

/-! ### Every page is accounted for -/

section Accounting

variable {store noted saved : Store} {given : Pages} {world later : World}
  {changes deleted written : Changes}

/-- The parts of a run, up to the saving of the manifest, that came to an end. -/
theorem apply_cases (returned : Returns (store.apply given) world (changes, noted) later) :
    ∃ (deleted written : Changes) (first second : World),
      Returns (deleting store given) world deleted first ∧
      Returns (writing given) first written second ∧ changes = deleted ++ written ∧
      (∃ gone, second.disk.prune given.folder = .ok (gone, later.disk)) ∧
      ((store.manifest.isCurrent given.lang given.paths given.input = true ∧ noted = store) ∨
        noted = { store with
          manifest := store.manifest.recordAt given.lang given.paths given.input
            (world.clock (world.readings + 1)),
          isUnsaved := true }) := by
  obtain ⟨deleted, first, deletes, applying⟩ := returns_bind_iff.mp returned
  obtain ⟨written, second, writes, applying⟩ := returns_bind_iff.mp applying
  obtain ⟨_, third, prunes, applying⟩ := returns_bind_iff.mp applying
  obtain ⟨_, fourth, recording, applying⟩ := returns_bind_iff.mp applying
  obtain ⟨both, rfl⟩ := returns_pure_iff.mp applying
  obtain ⟨rfl, rfl⟩ := Prod.mk.inj both
  obtain ⟨gone, pruned⟩ := pruneFolder_returns prunes
  obtain ⟨unchanged, recorded⟩ := record_returns recording
  -- The clock has not been read before the run is recorded.
  have clock : third.clock = world.clock ∧ third.readings = world.readings := by
    have one := isTimeless_deleting store given world
    have two := isTimeless_writing given first
    have three := isTimeless_pruneFolder given.folder second
    rw [deletes.worldAfter_eq] at one
    rw [writes.worldAfter_eq] at two
    rw [prunes.worldAfter_eq] at three
    exact ⟨three.1.trans (two.1.trans one.1), three.2.trans (two.2.trans one.2)⟩
  rw [clock.1, clock.2] at recorded
  exact ⟨deleted, written, first, second, deletes, writes, rfl, ⟨gone, unchanged ▸ pruned⟩,
    recorded⟩

/-- The parts of a run that came to an end. -/
theorem reconcile_cases (returned : Returns (store.reconcile given) world (changes, saved) later) :
    ∃ (deleted written : Changes) (noted : Store) (first second applied after : World),
      Returns (deleting store given) world deleted first ∧
      Returns (writing given) first written second ∧ changes = deleted ++ written ∧
      (∃ gone, second.disk.prune given.folder = .ok (gone, applied.disk)) ∧
      ((store.manifest.isCurrent given.lang given.paths given.input = true ∧ noted = store) ∨
        noted = { store with
          manifest := store.manifest.recordAt given.lang given.paths given.input
            (world.clock (world.readings + 1)),
          isUnsaved := true }) ∧
      Returns noted.save applied saved after ∧ later.disk = after.disk := by
  obtain ⟨noted, applied, after, applying, saving, same⟩ := reconcile_returns returned
  obtain ⟨deleted, written, first, second, deletes, writes, whole, pruned, recorded⟩ :=
    apply_cases applying
  exact ⟨deleted, written, noted, first, second, applied, after, deletes, writes, whole,
    pruned, recorded,
    saving, same⟩

theorem manifest_of_save (returned : Returns store.save world saved later) :
    saved.manifest = store.manifest := by
  unfold Store.save at returned
  split at returned
  · rw [(returns_pure_iff.mp returned).1]
  · split at returned
    · obtain ⟨_, _, _, rest⟩ := returns_bind_iff.mp returned
      rw [(returns_pure_iff.mp rest).1]
    · rw [(returns_pure_iff.mp returned).1]

/-- The number of errors for the file of a path. -/
def errorCount (changes : Changes) (file : Text) : Nat :=
  changes.diagnostics.countP fun diagnostic => diagnostic.isError && diagnostic.file == file

/-- The path of each page is among the written ones, the unchanged ones or the errors, and only
once. -/
theorem count_accounted (distinct : (Named.names given.texts).Nodup)
    (canonical : ∀ page ∈ given.texts, Path.IsCanonical page.1) {first second : World}
    (deletes : Returns (deleting store given) world deleted first)
    (writes : Returns (writing given) first written second) {path : Text}
    (listed : path ∈ Named.names given.texts) :
    (deleted ++ written).written.count path + (deleted ++ written).unchanged.count path +
      errorCount (deleted ++ written) (given.folder.child path).text = 1 := by
  obtain ⟨noneWritten, noneUnchanged, noErrors⟩ := inTurn_deleteStale_accounts deletes
  obtain ⟨failed, accounted, reported⟩ := inTurn_writePage_accounts writes
  have order : (written.written ++ written.unchanged ++ failed).Perm (Named.names given.texts) := by
    have sorted := (Text.sortOn_perm (fun page : Text × Text => page.1) given.texts).map
      fun page => normalize page.1
    have same : given.texts.map (fun page => normalize page.1) = Named.names given.texts :=
      List.map_congr_left fun page member => normalize_of_isCanonical (canonical page member)
    exact (accounted.trans sorted).trans (same ▸ .rfl)
  have isCanonical : ∀ other ∈ Named.names given.texts, Path.IsCanonical other :=
    List.forall_mem_map.mpr canonical
  -- Deleting reports no errors, and an error tells its page, since canonical paths differ in their
  -- texts.
  have errors : errorCount (deleted ++ written) (given.folder.child path).text =
      failed.count path := by
    have silent : deleted.diagnostics.countP (fun diagnostic => diagnostic.isError &&
        diagnostic.file == (given.folder.child path).text) = 0 :=
      List.countP_eq_zero.mpr fun diagnostic member => by simp [noErrors diagnostic member]
    have counted := congrArg (List.countP fun entry => entry.1 &&
      entry.2 == (given.folder.child path).text) reported
    rw [List.countP_map, List.countP_map] at counted
    rw [errorCount, diagnostics_append, List.countP_append, silent, Nat.zero_add]
    refine counted.trans (List.countP_congr fun other member => ?_)
    have inside := order.mem_iff.mp (List.mem_append_right _ member)
    simp only [Function.comp_apply, Bool.true_and, beq_iff_eq]
    constructor
    · exact Path.text_child_injective given.folder (isCanonical other inside)
        (isCanonical path listed)
    · exact fun same => same ▸ rfl
  have total := order.count_eq path
  rw [List.count_append, List.count_append, List.count_eq_one_of_mem distinct listed, ← errors]
    at total
  have both : (deleted ++ written).written = written.written ∧
      (deleted ++ written).unchanged = written.unchanged :=
    ⟨congrArg (· ++ written.written) noneWritten, congrArg (· ++ written.unchanged) noneUnchanged⟩
  rw [both.1, both.2, total]

end Accounting

/-- A manifest that is opened is readable, and a readable one of modest text is opened. A run with
pages under distinct canonical paths that comes to an end met what it asks for, and where that is
met, it comes to an end if it stays shallow. If it does, the path of each page is once among the
written ones, the unchanged ones or the errors; each stale path is deleted, is not found when its
turn comes, or is in a warning; and the run is recorded, which the file of the manifest says unless
it said so before. -/
theorem run_accounts_for_pages {file : Path} {given : Pages}
    (distinct : (Named.names given.texts).Nodup)
    (canonical : ∀ page ∈ given.texts, Path.IsCanonical page.1)
    (folderNamed : '\x00' ∉ given.folder.text) (named : ∀ page ∈ given.texts, '\x00' ∉ page.1)
    (world : World) :
    (Finishes (Store.load (some file)) world → IsReadable world.disk file) ∧
    (IsReadable world.disk file → HoldsModestText world.disk file →
      Finishes (Store.load (some file)) world) ∧
    ∀ store loaded, HoldsModestText world.disk file →
      Returns (Store.load (some file)) world store loaded →
      (Finishes (store.reconcile given) loaded → store.CanReconcile given loaded) ∧
      (store.CanReconcile given loaded → store.StaysShallow given loaded →
        Finishes (store.reconcile given) loaded) ∧
      ∀ changes saved later, Returns (store.reconcile given) loaded (changes, saved) later →
        (∀ path ∈ Named.names given.texts,
          changes.written.count path + changes.unchanged.count path +
          errorCount changes (given.folder.child path).text = 1) ∧
        (∀ path ∈ stale store.manifest given, ∃ before,
          (path, before) ∈ turns (deleteStale given.folder) (stale store.manifest given) loaded ∧
            (path ∈ changes.deleted ∨
              (∃ text, before.disk.removeFile (given.folder.child path) =
                .error (.disk ⟨.notFound, text⟩)) ∨
              ∃ message, .warning (given.folder.child path).text 0 message ∈ changes.diagnostics)) ∧
        saved.manifest.outputsFor given.lang = given.paths ∧
        (saved.manifest = store.manifest ∨
          ∃ before : Disk, before.writeText file saved.manifest.write = .ok later.disk) := by
  refine ⟨finishes_load_iff.mp, fun readable _ => finishes_load_iff.mpr readable,
    fun store loaded _ loading => ?_⟩
  have ends : Finishes (store.reconcile given) loaded ↔ store.CanReconcile given loaded :=
    finishes_reconcile_iff canonical fun page listed =>
      Path.null_notMem_child (canonical page listed) folderNamed (named page listed)
  refine ⟨ends.mp, fun can _ => ends.mpr can, ?_⟩
  intro changes saved later returned
  obtain ⟨deleted, written, noted, first, second, applied, after, deletes, writes, rfl, -, recorded,
    saving, same⟩ := reconcile_cases returned
  refine ⟨fun path listed => count_accounted distinct canonical deletes writes listed, ?_, ?_, ?_⟩
  · intro path listed
    obtain ⟨before, turn⟩ := exists_turn_iff.mpr listed
    refine ⟨before, turn, ?_⟩
    obtain ⟨result, next, stepped, removed, reported⟩ := exists_of_mem_turns deletes turn
    rcases deleteStale_cases stepped with ⟨-, rfl⟩ | ⟨missing, -, -⟩ | ⟨fault, -, -, rfl⟩
    · exact Or.inl (List.mem_append_left _ (removed List.mem_cons_self))
    · exact Or.inr (Or.inl missing)
    · exact Or.inr (Or.inr ⟨_, List.mem_append_left _ (reported List.mem_cons_self)⟩)
  · rw [manifest_of_save saving]
    rcases recorded with ⟨current, rfl⟩ | rfl
    · exact outputsFor_of_isCurrent current
    · exact outputsFor_recordAt ..
  · obtain ⟨-, path, -, -⟩ := load_returns loading
    rw [manifest_of_save saving, same]
    rcases recorded with ⟨-, rfl⟩ | rfl
    · exact Or.inl rfl
    · rcases save_returns saving path with ⟨wrong, -⟩ | ⟨-, _, middle, -, stored⟩
      · exact nomatch wrong
      · exact Or.inr ⟨middle, stored⟩

/-- A world with a folder in the place of the page `b`. -/
def refusingWorld : World :=
  sampleWorld [("out".toList, .folder [("b".toList, .folder [("u".toList, .file [117])])])]

/-- Two pages, one of which belongs in the place of a folder. -/
def refusedPages : Pages :=
  { folder := ⟨0, ["out".toList]⟩, lang := [], texts := [("b".toList, []), ("c".toList, [])] }

/-- The disk on which one of the two pages has been written. -/
def refusedDisk : Disk :=
  (sampleWorld [("out".toList, .folder [("b".toList, .folder [("u".toList, .file [117])]),
    ("c".toList, .file [])])]).disk

theorem returns_writing_refusedPages : ∃ changes next,
    Returns (writing refusedPages) refusingWorld changes next ∧
      changes.written = ["c".toList] ∧ changes.unchanged = [] ∧ next.disk = refusedDisk := by
  have sorted : Text.sortOn (·.1) refusedPages.texts = [("b".toList, []), ("c".toList, [])] := by
    rw [Text.sortOn_eq_insertionSort]
    rfl
  have refused : ∃ result next,
      Returns (writePage ⟨0, ["out".toList]⟩ "b".toList []) refusingWorld result
      next ∧ result.written = [] ∧ result.unchanged = [] ∧ next.disk = refusingWorld.disk :=
    ⟨_, _, rfl, rfl, rfl, rfl⟩
  obtain ⟨result, next, stepped, noneWritten, noneUnchanged, disk⟩ := refused
  have written : Returns (writePage ⟨0, ["out".toList]⟩ "c".toList []) next
      { written := ["c".toList] } { next with disk := refusedDisk } :=
    returns_writePage (by rw [disk]; rfl) (by rw [disk]; rfl) rfl
  refine ⟨result ++ (({ written := ["c".toList] } : Changes) ++ {}),
    { next with disk := refusedDisk },
    ?_, congrArg (· ++ ["c".toList]) noneWritten, congrArg (· ++ []) noneUnchanged, rfl⟩
  rw [writing, sorted]
  exact returns_inTurn_cons_iff.mpr ⟨_, _, _, stepped, returns_inTurn_single written, rfl⟩

theorem returns_refusedPages : ∃ changes later,
    Returns (session sampleFile refusedPages) refusingWorld changes later ∧
      changes.written = ["c".toList] ∧ changes.unchanged = [] := by
  obtain ⟨changes, next, writing, written, unchanged, disk⟩ := returns_writing_refusedPages
  have pruning : next.disk.prune ⟨0, ["out".toList]⟩ = .ok (false, refusedDisk) := by
    rw [disk]
    rfl
  have ensuring : refusedDisk.ensureFolders sampleFile.parent.names.length sampleFile.parent =
      (.ok (), refusedDisk) := rfl
  have storing (text : Text) : ∃ after : Disk, refusedDisk.writeText sampleFile text = .ok after :=
    ⟨_, rfl⟩
  obtain ⟨after, stored⟩ := storing _
  obtain ⟨later, returned, -⟩ := session_of_missing refusedPages rfl writing pruning ensuring stored
  exact ⟨_, later, returned, written, unchanged⟩

/-- The folders of the two pages hardly nest. -/
theorem staysShallow_refusedPages :
    Store.StaysShallow { path := some sampleFile } refusedPages refusingWorld where
  pages := by decide
  manifest _ same := Option.some.inj same ▸ by decide
  folders := by
    obtain ⟨changes, next, writing, -, -, disk⟩ := returns_writing_refusedPages
    intro entry found
    have nothing : Returns (deleting { path := some sampleFile } refusedPages) refusingWorld {}
        refusingWorld := rfl
    rw [nothing.worldAfter_eq, writing.worldAfter_eq, disk] at found
    obtain rfl := Option.some.inj (Except.ok.inj found)
    decide

/-- Where the disk refuses one page, the other one is written and the run is recorded. -/
theorem run_accounts_for_pages_refused :
    ∃ store loaded changes saved later,
      HoldsModestText refusingWorld.disk sampleFile ∧
      Returns (Store.load (some sampleFile)) refusingWorld store loaded ∧
      Returns (store.reconcile refusedPages) loaded (changes, saved) later ∧
      store.CanReconcile refusedPages loaded ∧ store.StaysShallow refusedPages loaded ∧
      changes.written = ["c".toList] ∧ errorCount changes "out/b".toList = 1 ∧
      saved.manifest.outputsFor [] = refusedPages.paths := by
  obtain ⟨changes, later, returned, written, unchanged⟩ := returns_refusedPages
  obtain ⟨store, loaded, loading, returned⟩ := returns_bind_iff.mp returned
  obtain ⟨⟨_, saved⟩, _, reconciling, returned⟩ := returns_bind_iff.mp returned
  obtain ⟨rfl, rfl⟩ := returns_pure_iff.mp returned
  have distinct : (Named.names refusedPages.texts).Nodup := by decide
  have modest : HoldsModestText refusingWorld.disk sampleFile := holdsModestText_of_missing rfl
  have shallow : store.StaysShallow refusedPages loaded := by
    cases loading.symm.trans (load_of_missing rfl)
    exact staysShallow_refusedPages
  obtain ⟨-, -, accounts⟩ := run_accounts_for_pages distinct (by decide) (by decide) (by decide)
    refusingWorld
  obtain ⟨met, -, accounted⟩ := accounts store loaded modest loading
  obtain ⟨counts, -, recorded, -⟩ := accounted changes saved later reconciling
  refine ⟨store, loaded, changes, saved, later, modest, loading, reconciling,
    met ⟨_, _, reconciling⟩,
    shallow, written, ?_, recorded⟩
  have count : ["c".toList].count "b".toList + ([] : List Text).count "b".toList +
      errorCount changes "out/b".toList = 1 := by
    rw [← written, ← unchanged]
    exact counts "b".toList (by decide)
  have other : ["c".toList].count "b".toList + ([] : List Text).count "b".toList = 0 := by decide
  rwa [other, Nat.zero_add] at count

/-- A world with bytes that are no text in the place of the page `a`. -/
def garbledWorld : World :=
  sampleWorld [("out".toList, .folder [("a".toList, .file [255])])]

theorem mem_pageTurns_garbled : (("a".toList, []), garbledWorld) ∈ pageTurns
    { path := some sampleFile }
    (samplePage ⟨0, ["out".toList]⟩ "a".toList) garbledWorld := by
  rw [pageTurns, samplePage, Text.sortOn, List.mergeSort_singleton]
  exact List.mem_cons_self

/-- Bytes that are no text make a run fail, be they in the file of the manifest or in the place of a
page, although the manifest can be written. -/
theorem not_run_accounts_for_pages :
    (¬ Finishes (Store.load (some sampleFile)) (sampleWorld [("m".toList, .file [255])]) ∧
      ∀ text, Finishes (Run.writeText sampleFile text) (sampleWorld [("m".toList, .file [255])])) ∧
    ∃ store, Returns (Store.load (some sampleFile)) garbledWorld store garbledWorld ∧
      ¬ Finishes (store.reconcile (samplePage ⟨0, ["out".toList]⟩ "a".toList)) garbledWorld ∧
      ∀ text, Finishes (Run.writeText sampleFile text) garbledWorld := by
  refine ⟨⟨fun ends => ?_, fun text => ⟨(), _, rfl⟩⟩,
    { path := some sampleFile }, load_of_missing rfl, fun ends => ?_, fun text => ⟨(), _, rfl⟩⟩
  · obtain ⟨raw, decoded, -⟩ := (finishes_load_iff.mp ends).text [255] rfl
    exact absurd decoded (by decide +revert)
  · have can := (finishes_reconcile_iff (by decide) (by decide)).mp ends
    exact absurd (can.texts _ mem_pageTurns_garbled [255] rfl) (by decide)

end Manifest

end LuauReference
