/-
This file proves that a run does the same in a world without its links when none of its paths meets
one. Each step is looked at where it is taken, since the paths of a run depend on the manifest that
it finds.

A step that overlooks the links returns without them exactly when it returns with them. So what is
known of runs on plain disks carries over in both directions.
-/

import LuauReference.Proofs.Disk.Erasure
import LuauReference.Proofs.Manifest.Account

namespace LuauReference

/-- A world with an empty file in the place of every link. -/
def World.erased (world : World) : World :=
  { world with disk := world.disk.erased }

namespace Run

open Disk (HasLinksOf MeetsNoLink)

/-- Whether a step does in a world what it does there without the links, and makes no link. It has
to when all links are those of an earlier disk. -/
def Overlooks {α : Type} (origin : Disk) (step : Run α) (world : World) : Prop :=
  HasLinksOf origin world.disk →
    outcome step world.erased = ((outcome step world).1, (outcome step world).2.erased) ∧
      HasLinksOf origin (worldAfter step world).disk

section

variable {α β : Type} {origin : Disk} {step : Run α} {next : α → Run β} {world : World}

/-! ### Single steps -/

theorem overlooks_pure (value : α) : Overlooks origin (pure value) world :=
  fun linked => ⟨rfl, linked⟩

theorem overlooks_throw (failure : Failure) : Overlooks origin (throw failure : Run α) world :=
  fun linked => ⟨rfl, linked⟩

theorem overlooks_log (level : Log.Level) (part : String) (text : Text) :
    Overlooks origin (log level part text) world :=
  fun linked => ⟨rfl, linked⟩

theorem overlooks_time : Overlooks origin time world :=
  fun linked => ⟨rfl, linked⟩

/-- A step may look at the world as long as it goes on in the same way without the links. -/
theorem overlooks_get_bind {next : World → Run β}
    (same : HasLinksOf origin world.disk → next world.erased = next world)
    (rest : Overlooks origin (next world) world) : Overlooks origin (get >>= next) world := by
  intro linked
  have whole : outcome (get >>= next) world.erased = outcome (next world.erased) world.erased := rfl
  rw [whole, same linked]
  exact rest linked

theorem overlooks_look {question : Disk → Except Failure α}
    (same : HasLinksOf origin world.disk → question world.disk.erased = question world.disk) :
    Overlooks origin (look question) world := by
  intro linked
  rw [outcome_look, outcome_look, worldAfter_look]
  exact ⟨Prod.ext (same linked) rfl, linked⟩

theorem overlooks_change {operation : Disk → Except Failure Disk}
    (same : HasLinksOf origin world.disk →
      operation world.disk.erased = (operation world.disk).map Disk.erased)
    (links : ∀ disk, operation world.disk = .ok disk → HasLinksOf world.disk disk) :
    Overlooks origin (change operation) world := by
  intro linked
  have erased : operation world.erased.disk = (operation world.disk).map Disk.erased :=
    same linked
  rw [worldAfter, outcome_change, outcome_change, erased]
  cases changed : operation world.disk with
  | error failure => exact ⟨rfl, linked⟩
  | ok disk => exact ⟨rfl, linked.trans (links disk changed)⟩

theorem overlooks_ensureFolders {path : Path} (meets : origin.MeetsNoLink path) :
    Overlooks origin (ensureFolders path) world := by
  intro linked
  have same := (meets.of_hasLinksOf linked).ensureFolders_erased path.names.length
  rw [disk_worldAfter_ensureFolders, outcome_ensureFolders, outcome_ensureFolders, World.erased,
    same]
  exact ⟨rfl, linked.trans (Disk.hasLinksOf_ensureFolders world.disk _ path)⟩

theorem Overlooks.bind (first : Overlooks origin step world)
    (rest : ∀ value later, Returns step world value later → Overlooks origin (next value) later) :
    Overlooks origin (step >>= next) world := by
  intro linked
  obtain ⟨same, kept⟩ := first linked
  rw [worldAfter] at kept ⊢
  rw [outcome_bind, outcome_bind, same]
  rcases given : outcome step world with ⟨failure | value, later⟩
  · rw [given] at kept
    exact ⟨rfl, kept⟩
  · rw [given] at kept
    exact rest value later given kept

theorem Overlooks.orRefused (overlooks : Overlooks origin step world) :
    Overlooks origin (orRefused step) world := by
  intro linked
  obtain ⟨same, kept⟩ := overlooks linked
  rw [worldAfter_orRefused, outcome_orRefused, outcome_orRefused, same]
  rcases outcome step world with ⟨failure | value, later⟩
  · cases failure <;> exact ⟨rfl, kept⟩
  · exact ⟨rfl, kept⟩

theorem overlooks_writeText {path : Path} (meets : origin.MeetsNoLink path) (text : Text) :
    Overlooks origin (writeText path text) world := by
  refine (overlooks_ensureFolders meets.parent).bind fun _ later _ => overlooks_change ?_ ?_
  · exact fun linked => (meets.of_hasLinksOf linked).writeBytes_erased _
  · exact fun disk written => Disk.hasLinksOf_writeBytes written

/-! ### Returning -/

/-- A step that returns in a world returns without the links of the world. -/
theorem Overlooks.returns_erased (overlooks : Overlooks origin step world)
    (linked : HasLinksOf origin world.disk) {value : α} {later : World}
    (returned : Returns step world value later) :
    Returns step world.erased value later.erased ∧ HasLinksOf origin later.disk := by
  obtain ⟨same, kept⟩ := overlooks linked
  rw [returned] at same
  rw [returned.worldAfter_eq] at kept
  exact ⟨same, kept⟩

/-- A step that returns without the links of a world returns in the world. -/
theorem Overlooks.returns_of_erased (overlooks : Overlooks origin step world)
    (linked : HasLinksOf origin world.disk) {value : α} {later : World}
    (returned : Returns step world.erased value later) :
    ∃ after, Returns step world value after ∧ after.erased = later ∧
      HasLinksOf origin after.disk := by
  obtain ⟨same, kept⟩ := overlooks linked
  obtain ⟨result, here⟩ := Prod.mk.inj (same.symm.trans returned)
  exact ⟨_, Prod.ext result rfl, here, kept⟩

end

end Run

namespace Manifest

open Disk (HasLinksOf MeetsNoLink)
open Run (Returns Overlooks overlooks_pure overlooks_throw overlooks_log overlooks_look)

section

variable {origin : Disk} {folder file : Path} {path text : Text} {world : World} {given : Pages}
  {store : Store}

/-! ### Steps of a run -/

theorem overlooks_load (meets : origin.MeetsNoLink file) :
    Overlooks origin (Store.load (some file)) world := by
  unfold Store.load
  refine Run.overlooks_get_bind (fun linked => ?_) ?_
  · have read : world.erased.disk.readText file = world.disk.readText file :=
      (meets.of_hasLinksOf linked).readText_erased
    rw [read]
  · split
    · split
      · exact overlooks_pure _
      · exact (overlooks_log _ _ _).bind fun _ _ _ => overlooks_pure _
      · exact overlooks_throw _
    · exact overlooks_pure _
    · exact (overlooks_log _ _ _).bind fun _ _ _ => overlooks_pure _
    · exact overlooks_throw _

theorem overlooks_deleteStale (meets : origin.MeetsNoLink (folder.child path)) :
    Overlooks origin (deleteStale folder path) world := by
  have removed : Overlooks origin (Run.change (·.removeFile (folder.child path))) world :=
    Run.overlooks_change (fun linked => (meets.of_hasLinksOf linked).removeFile_erased)
      fun disk removed => Disk.hasLinksOf_removeFile removed
  refine removed.orRefused.bind fun result later _ => ?_
  split
  · exact overlooks_pure _
  · exact overlooks_pure _
  · exact (overlooks_log _ _ _).bind fun _ _ _ => overlooks_pure _

theorem overlooks_putPage {target : Path} (meets : origin.MeetsNoLink target) :
    Overlooks origin (putPage target text) world := by
  have held : Overlooks origin (holdsText target text) world := by
    refine (overlooks_look fun linked => (meets.of_hasLinksOf linked).isFile_erased).bind
      fun present later _ => ?_
    split
    · exact (overlooks_look fun linked => (meets.of_hasLinksOf linked).readText_erased).bind
        fun _ _ _ => overlooks_pure _
    · exact overlooks_pure _
  refine held.bind fun present later _ => ?_
  split
  · exact overlooks_pure _
  · exact (Run.overlooks_writeText meets text).bind fun _ _ _ => overlooks_pure _

theorem overlooks_writePage (meets : origin.MeetsNoLink (folder.child (normalize path))) :
    Overlooks origin (writePage folder path text) world := by
  refine (overlooks_putPage meets).orRefused.bind fun result later _ => ?_
  split
  · exact overlooks_pure _
  · exact overlooks_pure _
  · exact (overlooks_log _ _ _).bind fun _ _ _ => overlooks_pure _

theorem overlooks_inTurn {α : Type} {step : α → Run Changes} {items : List α}
    (each : ∀ item ∈ items, ∀ world, Overlooks origin (step item) world) (world : World) :
    Overlooks origin (inTurn step items) world := by
  induction items generalizing world with
  | nil => exact overlooks_pure _
  | cons item rest inductionHypothesis =>
    obtain ⟨first, others⟩ := List.forall_mem_cons.mp each
    exact (first world).bind fun _ later _ => (inductionHypothesis others later).bind
      fun _ _ _ => overlooks_pure _

theorem overlooks_pruneFolder (meets : origin.MeetsNoLink folder) :
    Overlooks origin (pruneFolder folder) world := by
  intro linked
  have same : world.erased.disk.prune folder =
      (world.disk.prune folder).map fun pruned => (pruned.1, pruned.2.erased) :=
    (meets.of_hasLinksOf linked).prune_erased
  unfold pruneFolder
  rw [Run.worldAfter, Run.outcome_bind, Run.outcome_bind, Run.outcome_look, Run.outcome_look, same]
  cases pruned : world.disk.prune folder with
  | error failure => exact ⟨rfl, linked⟩
  | ok result => exact ⟨rfl, linked.trans (Disk.hasLinksOf_prune pruned)⟩

theorem overlooks_record (lang : Text) (paths : List Text) (input : Input) :
    Overlooks origin (store.record lang paths input) world := by
  unfold Store.record
  split
  · exact overlooks_pure _
  · exact Run.overlooks_time.bind fun _ _ _ => overlooks_pure _

theorem overlooks_apply (folders : origin.MeetsNoLink given.folder)
    (listed : ∀ path ∈ store.manifest.outputsFor given.lang,
      origin.MeetsNoLink (given.folder.child path))
    (pages : ∀ page ∈ given.texts, origin.MeetsNoLink (given.folder.child (normalize page.1))) :
    Overlooks origin (store.apply given) world := by
  have order := Text.sortOn_perm (fun page : Text × Text => page.1) given.texts
  unfold Store.apply
  refine (overlooks_inTurn (fun path member _ => ?_) world).bind fun _ _ _ =>
    (overlooks_inTurn (fun page member _ => ?_) _).bind fun _ _ _ =>
    (overlooks_pruneFolder folders).bind fun _ _ _ =>
    (overlooks_record _ _ _).bind fun _ _ _ => overlooks_pure _
  · exact overlooks_deleteStale (listed path (mem_of_mem_stale member))
  · exact overlooks_writePage (pages page (order.mem_iff.mp member))

theorem overlooks_save (path : store.path = some file) (meets : origin.MeetsNoLink file) :
    Overlooks origin store.save world := by
  unfold Store.save
  rw [path]
  dsimp only
  split
  · exact (Run.overlooks_writeText meets _).bind fun _ _ _ => overlooks_pure _
  · exact overlooks_pure _

/-- A run overlooks the links of a disk when none of its paths meets one, also of those that the
manifest lists which it opens. -/
theorem overlooks_session (meets : origin.MeetsNoLink file)
    (folders : origin.MeetsNoLink given.folder)
    (listed : ∀ store later, Returns (Store.load (some file)) world store later →
      ∀ path ∈ store.manifest.outputsFor given.lang, origin.MeetsNoLink (given.folder.child path))
    (pages : ∀ page ∈ given.texts, origin.MeetsNoLink (given.folder.child (normalize page.1))) :
    Overlooks origin (session file given) world := by
  refine (overlooks_load meets).bind fun store loaded loading =>
    Run.Overlooks.bind ?_ fun _ _ _ => overlooks_pure _
  have path : store.path = some file := (load_returns loading).2.1
  refine (overlooks_apply folders (listed store loaded loading) pages).bind
    fun result applied applying => ?_
  obtain ⟨changes, noted⟩ := result
  have samePath : noted.path = some file := by
    obtain ⟨_, _, _, _, -, -, -, -, recorded⟩ := apply_cases applying
    rcases recorded with ⟨-, rfl⟩ | rfl
    · exact path
    · exact path
  exact (overlooks_save samePath meets).bind fun _ _ _ => (overlooks_log _ _ _).bind
    fun _ _ _ => overlooks_pure _

end

end Manifest

end LuauReference
