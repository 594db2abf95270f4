/-
This file proves that a run does the same to two disks that look alike from its folder of pages. Its
steps are taken side by side, each on its own disk, whether or not the disk lets them through: a
page that cannot be deleted or written is reported on both sides, if not always for the same reason,
and the run goes on.

What a run reports can therefore differ between the two, and only what it leaves behind is compared.
-/

import LuauReference.Proofs.Disk.Making
import LuauReference.Proofs.Manifest.Reconcile
import LuauReference.Proofs.Manifest.Text

namespace LuauReference

open Disk (View Alike StaysIn inside)
open Run (Mirrors Mirrored IsQuiet unlike)

namespace Manifest

/-! ### The paths of pages -/

/-- The names of a path in the folder of pages. -/
def namesOf (path : Text) : List Text :=
  (Path.read (normalize path)).names

/-- Whether a path in the folder of pages at a place never leads out of it on its way. -/
def IsKeptIn (place : Place) (path : Text) : Prop :=
  StaysIn place (namesOf path)

theorem child_normalize (folder : Path) (path : Text) :
    folder.child (normalize path) = inside folder (namesOf path) := by
  have none : ((normalize path).takeWhile (· == '/')).length = 0 := by
    rw [normalize]
    generalize path.map (fun c => if c = '\\' then '/' else c) = text
    rw [List.length_eq_zero_iff, List.takeWhile_eq_nil_iff]
    intro present
    exact List.dropWhile_get_zero_not _ _ present
  have relative : (Path.read (normalize path)).isAbsolute = false := by
    rw [Path.isAbsolute, Path.read, none]
    rfl
  rw [Path.child, Path.join, relative]
  rfl

theorem isKeptIn_normalize {place : Place} {path : Text} (kept : IsKeptIn place path) :
    IsKeptIn place (normalize path) := by
  rwa [IsKeptIn, namesOf, normalize_normalize]

/-! ### Steps side by side -/

section

variable {view : View} {origin : Disk} {given : Pages} {path : Text}

/-- Where the path begins in a folder that stays, the folders above a text are made on both disks or
on none, and so is its file. -/
theorem mirrored_writeText_of_kept {folder : Path} {names : List Text} {one two : World}
    (alike : Alike view one.disk two.disk) (reached : view.IsReached one.disk folder)
    (begins : view.kept (one.disk.startOf folder)) (stays : StaysIn view.here names)
    (taken : (inside folder names).parent.IsTaken) (text : Text) :
    Run.Mirrored (Alike view) unlike (Run.outcome (Run.writeText (inside folder names) text) one)
      (Run.outcome (Run.writeText (inside folder names) text) two) := by
  unfold Run.writeText
  rw [Run.outcome_bind, Run.outcome_bind, Run.outcome_ensureFolders, Run.outcome_ensureFolders]
  have fails (disk : Disk) : Failure.FailsOnDisk (disk.ensureFolders
      (inside folder names).parent.names.length (inside folder names).parent).1 :=
    Disk.failsOnDisk_ensureFolders taken.noNull _
  have failsOne := fails one.disk
  have failsTwo := fails two.disk
  obtain ⟨same, after, folders⟩ := alike.ensured taken begins
    fun place member => reached.sees stays place (Disk.mem_way_of_parent member)
  unfold Disk.ensured at same after folders
  generalize one.disk.ensureFolders _ _ = first at failsOne same after folders ⊢
  generalize two.disk.ensureFolders _ _ = second at failsTwo same after folders ⊢
  obtain ⟨failure | _, left⟩ := first
  · obtain ⟨fault, rfl⟩ := failsOne failure rfl
    obtain ⟨failure | _, right⟩ := second
    · obtain ⟨other, rfl⟩ := failsTwo failure rfl
      exact .refused after
    · exact nomatch same
  · obtain ⟨failure | _, right⟩ := second
    · exact nomatch same
    · have started := reached.of_start after.starts.1
      have start (path : Path) : left.startOf path = one.disk.startOf path := by
        rw [Disk.startOf, started.start, ← reached.start, ← Disk.startOf]
      refine Run.mirrored_change after
        (after.writeText_follows started (start folder ▸ begins) stays
          (fun place member => ?_) text)
      rw [Disk.placesPassed, start, ← Disk.placesPassed] at member
      exact folders rfl place (Disk.mem_way_parent member)

/-- Where all folders above the place stay, a text is written to both disks in the same steps. -/
theorem mirrored_writeText_of_firm {folder : Path} {names : List Text} {one two : World}
    (alike : Alike view one.disk two.disk) (reached : view.IsReached one.disk folder)
    (firm : view.IsFirm) (stays : StaysIn view.here names)
    (taken : (inside folder names).parent.IsTaken) (text : Text) :
    Run.Mirrored (Alike view) unlike (Run.outcome (Run.writeText (inside folder names) text) one)
      (Run.outcome (Run.writeText (inside folder names) text) two) := by
  unfold Run.writeText
  rw [Run.outcome_bind, Run.outcome_bind, Run.outcome_ensureFolders, Run.outcome_ensureFolders]
  obtain ⟨same, after⟩ := alike.ensureFolders_level firm taken
    (inside folder names).parent.names.length
    fun place member => reached.knows firm stays place (Disk.mem_way_of_parent member)
  generalize one.disk.ensureFolders _ _ = first at same after ⊢
  generalize two.disk.ensureFolders _ _ = second at same after ⊢
  obtain ⟨result, left⟩ := first
  obtain ⟨other, right⟩ := second
  obtain rfl : other = result := same
  cases other with
  | error failure => exact .of_error after failure
  | ok done =>
    have started := reached.of_start after.starts.1
    have clear := after.folders _ firm.kept_dropLast
    exact Run.mirrored_change after
      (after.writeText_of_locate (Disk.isPrefix_placeOf_inside started stays)
        (.of_hasFolderAt clear.1) (.of_hasFolderAt clear.2)
        (after.locate_eq started firm stays true) text)

/-- A text is written to both disks or to none, with the folders above it. -/
theorem mirrors_writeText {folder : Path} {names : List Text}
    (reached : view.IsReached origin folder) (stays : StaysIn view.here names) (text : Text) :
    Mirrors (Alike view) unlike (Run.writeText (inside folder names) text)
      (Run.writeText (inside folder names) text) := by
  intro one two alike
  have own := reached.of_start alike.starts.1
  by_cases taken : (inside folder names).parent.IsTaken
  · rcases own.begins with begins | ⟨-, firm⟩
    · exact mirrored_writeText_of_kept alike own begins stays taken text
    · exact mirrored_writeText_of_firm alike own firm stays taken text
  · obtain ⟨failure, refused⟩ := Disk.exists_ensureFolders_eq_error taken
    unfold Run.writeText
    rw [Run.outcome_bind, Run.outcome_bind, Run.outcome_ensureFolders, Run.outcome_ensureFolders,
      refused, refused]
    exact .of_error alike failure

theorem mirrors_holdsText {folder : Path} {names : List Text}
    (reached : view.IsReached origin folder)
    (stays : StaysIn view.here names) (text : Text) :
    Mirrors (Alike view) Eq (holdsText (inside folder names) text)
      (holdsText (inside folder names) text) := by
  have asked : Mirrors (Alike view) Eq (Run.look (·.isFile (inside folder names)))
      (Run.look (·.isFile (inside folder names))) := by
    refine Run.mirrors_look fun one two alike => ?_
    rw [alike.isFile_eq (reached.of_start alike.starts.1) stays]
    exact .refl _
  have read : Mirrors (Alike view) Eq (Run.look (·.readText (inside folder names)))
      (Run.look (·.readText (inside folder names))) :=
    Run.mirrors_look fun one two alike =>
      alike.readText_follows (reached.of_start alike.starts.1) stays
  refine asked.bind fun present other same => ?_
  subst same
  split
  · exact read.bind fun found again same => Run.mirrors_pure (congrArg (· == text) same)
  · exact Run.mirrors_pure rfl

theorem mirrors_putPage {folder : Path} {names : List Text} (reached : view.IsReached origin folder)
    (stays : StaysIn view.here names) (text : Text) :
    Mirrors (Alike view) Eq (putPage (inside folder names) text)
      (putPage (inside folder names) text) := by
  refine (mirrors_holdsText reached stays text).bind fun held other same => ?_
  subst same
  split
  · exact Run.mirrors_pure rfl
  · exact (mirrors_writeText reached stays text).bind fun _ _ _ => Run.mirrors_pure rfl

theorem mirrors_deleteStale {folder : Path} (reached : view.IsReached origin folder)
    (normal : normalize path = path) (kept : IsKeptIn view.here path) :
    Mirrors (Alike view) unlike (deleteStale folder path) (deleteStale folder path) := by
  have removed : Mirrors (Alike view) unlike (Run.change (·.removeFile (folder.child path)))
      (Run.change (·.removeFile (folder.child path))) := by
    rw [← normal, child_normalize]
    exact Run.mirrors_change fun one two alike =>
      alike.removeFile_follows (reached.of_start alike.starts.1) kept
  refine removed.orRefused.bind fun first second _ => IsQuiet.mirrors ?_ ?_
  all_goals
    split
    · exact Run.isQuiet_pure _
    · exact Run.isQuiet_pure _
    · exact (Run.isQuiet_log _ _ _).bind fun _ => Run.isQuiet_pure _

theorem mirrors_writePage {folder : Path} (reached : view.IsReached origin folder)
    (kept : IsKeptIn view.here path) (text : Text) :
    Mirrors (Alike view) unlike (writePage folder path text) (writePage folder path text) := by
  have put : Mirrors (Alike view) Eq (putPage (folder.child (normalize path)) text)
      (putPage (folder.child (normalize path)) text) := by
    rw [child_normalize]
    exact mirrors_putPage reached kept text
  refine put.orRefused.bind fun first second _ => IsQuiet.mirrors ?_ ?_
  all_goals
    split
    · exact Run.isQuiet_pure _
    · exact Run.isQuiet_pure _
    · exact (Run.isQuiet_log _ _ _).bind fun _ => Run.isQuiet_pure _

theorem mirrors_inTurn {α : Type} {step : α → Run Changes} {items : List α}
    (each : ∀ item ∈ items, Mirrors (Alike view) unlike (step item) (step item)) :
    Mirrors (Alike view) unlike (inTurn step items) (inTurn step items) := by
  induction items with
  | nil => exact Run.mirrors_pure trivial
  | cons item rest inductionHypothesis =>
    obtain ⟨first, others⟩ := List.forall_mem_cons.mp each
    exact first.bind fun _ _ _ => (inductionHypothesis others).bind fun _ _ _ =>
      Run.mirrors_pure trivial

theorem mirrors_pruneFolder {folder : Path} (reached : view.IsReached origin folder) :
    Mirrors (Alike view) unlike (pruneFolder folder) (pruneFolder folder) := by
  have pruned : Mirrors (Alike view) (fun left right : Bool × Disk => Alike view left.2 right.2)
      (Run.look (·.prune folder)) (Run.look (·.prune folder)) :=
    Run.mirrors_look fun one two alike => alike.prune_follows (reached.of_start alike.starts.1)
  exact pruned.bind fun _ _ alike _ _ _ => .both trivial alike

/-- A run is taken down from two manifests in the same way when both are up to date or none is. -/
theorem mirrors_record {store other : Store} {lang : Text} {paths : List Text} {input : Input}
    (current : other.manifest.isCurrent lang paths input =
      store.manifest.isCurrent lang paths input)
    (unsaved : other.isUnsaved = store.isUnsaved) :
    Mirrors (Alike view) (fun noted again : Store => again.isUnsaved = noted.isUnsaved)
      (store.record lang paths input) (other.record lang paths input) := by
  have time : Mirrors (Alike view) unlike Run.time Run.time := fun _ _ alike => .both trivial alike
  unfold Store.record
  rw [current]
  split
  · exact Run.mirrors_pure unsaved
  · exact time.bind fun _ _ _ => Run.mirrors_pure rfl

/-- What two manifests say alike for a run that is about to use them: which files of the language
are left from the run before, and whether the run is taken down already. -/
structure Store.AgreeOn (store other : Store) (given : Pages) : Prop where
  outputs : other.manifest.outputs.get? given.lang = store.manifest.outputs.get? given.lang
  inputs : other.manifest.inputs.get? given.lang = store.manifest.inputs.get? given.lang
  saved : other.isUnsaved = store.isUnsaved

/-- A run does the same to both disks, from manifests that agree on its language. -/
theorem mirrors_apply {store other : Store} (reached : view.IsReached origin given.folder)
    (agree : store.AgreeOn other given)
    (listed : ∀ path ∈ store.manifest.outputsFor given.lang, normalize path = path ∧
      IsKeptIn view.here path)
    (kept : ∀ page ∈ given.texts, IsKeptIn view.here page.1) :
    Mirrors (Alike view)
      (fun noted again : Changes × Store => again.2.isUnsaved = noted.2.isUnsaved)
      (store.apply given) (other.apply given) := by
  have order := Text.sortOn_perm (fun page : Text × Text => page.1) given.texts
  have gone : stale other.manifest given = stale store.manifest given := by
    rw [stale, stale, outputsFor, outputsFor, agree.outputs]
  have current : other.manifest.isCurrent given.lang given.paths given.input =
      store.manifest.isCurrent given.lang given.paths given.input := by
    rw [isCurrent, isCurrent, agree.outputs, agree.inputs]
  unfold Store.apply
  rw [gone]
  refine (mirrors_inTurn fun path member => ?_).bind fun _ _ _ =>
    (mirrors_inTurn fun page member => ?_).bind fun _ _ _ =>
      (mirrors_pruneFolder reached).bind fun _ _ _ =>
    (mirrors_record current agree.saved).bind fun _ _ same => Run.mirrors_pure same
  · obtain ⟨normal, inside⟩ := listed path (mem_of_mem_stale member)
    exact mirrors_deleteStale reached normal inside
  · exact mirrors_writePage reached (kept page (order.mem_iff.mp member)) page.2

end

end Manifest

end LuauReference
