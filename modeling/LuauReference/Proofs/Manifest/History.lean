/-
This file proves what is left in the folder of pages after any number of runs, each of which opens
the manifest anew: the files of the user as they were, and exactly the pages of the last run.
Nothing of an earlier run stays behind and nothing of the user is lost.

Between two runs only the disk remembers, so the invariant speaks of a disk. Its files in the folder
are those of the user and the last pages; the manifest, if it can be read at all, lists these pages;
and as long as there are pages, the paths of the folder and of the manifest can be followed. The
condition on these two paths cannot be dropped, as the history at the end shows.
-/

import LuauReference.Proofs.Manifest.Files
import LuauReference.Proofs.Manifest.Text

namespace LuauReference

namespace Manifest

open Disk (Keeps HasFollowed anywhere outside)
open Run (Returns returns_bind_iff returns_pure_iff returns_look_iff returns_ensureFolders_iff
  returns_change_iff)

/-! ### Runs one after the other -/

/-- A run on its own: it opens the manifest, brings the folder in line with the pages and saves. -/
def session (file : Path) (pages : Pages) : Run Changes := do
  let store ← Store.load (some file)
  let (changes, _) ← store.reconcile pages
  pure changes

section

variable {file : Path} {given : Pages} {store noted saved : Store} {changes : Changes}
  {world loaded applied after later : World}

/-- A folder is brought in line with its pages, and then the manifest is saved. -/
theorem reconcile_returns
    (returned : Returns (store.reconcile given) world (changes, saved) later) :
    ∃ (noted : Store) (applied after : World), Returns (store.apply given) world
      (changes, noted) applied ∧
      Returns noted.save applied saved after ∧ later.disk = after.disk := by
  obtain ⟨⟨_, noted⟩, applied, applying, returned⟩ := returns_bind_iff.mp returned
  obtain ⟨_, after, saving, returned⟩ := returns_bind_iff.mp returned
  obtain ⟨_, _, logging, returned⟩ := returns_bind_iff.mp returned
  obtain ⟨both, rfl⟩ := returns_pure_iff.mp returned
  obtain ⟨rfl, rfl⟩ := Prod.mk.inj both
  obtain ⟨-, rfl⟩ := Prod.mk.inj logging
  exact ⟨noted, applied, after, applying, saving, rfl⟩

/-- The steps of a run that came to an end. -/
theorem session_steps (returned : Returns (session file given) world changes later) :
    ∃ (store noted saved : Store) (loaded applied after : World),
      Returns (Store.load (some file)) world store loaded ∧
      Returns (store.apply given) loaded (changes, noted) applied ∧
      Returns noted.save applied saved after ∧ later.disk = after.disk := by
  obtain ⟨store, loaded, loading, returned⟩ := returns_bind_iff.mp returned
  obtain ⟨⟨_, saved⟩, _, reconciling, returned⟩ := returns_bind_iff.mp returned
  obtain ⟨rfl, rfl⟩ := returns_pure_iff.mp returned
  obtain ⟨noted, applied, after, applying, saving, left⟩ := reconcile_returns reconciling
  exact ⟨store, noted, saved, loaded, applied, after, loading, applying, saving, left⟩

/-- A run can be put together from its steps. -/
theorem session_of_steps (loading : Returns (Store.load (some file)) world store loaded)
    (applying : Returns (store.apply given) loaded (changes, noted) applied)
    (saving : Returns noted.save applied saved after) :
    ∃ later, Returns (session file given) world changes later ∧ later.disk = after.disk :=
  ⟨_, returns_bind_iff.mpr ⟨store, loaded, loading, returns_bind_iff.mpr ⟨(changes, saved), _,
    returns_bind_iff.mpr
      ⟨(changes, noted), applied, applying, returns_bind_iff.mpr ⟨saved, after, saving,
      returns_bind_iff.mpr ⟨(), _, Run.outcome_log .., returns_pure_iff.mpr ⟨rfl, rfl⟩⟩⟩⟩,
    returns_pure_iff.mpr ⟨rfl, rfl⟩⟩⟩, rfl⟩

end

/-- Runs one after the other that have nothing to report. From one run to the next the disk stays as
it is; clock, messages and home folders may be others. -/
inductive History (file : Path) : Disk → List Pages → Disk → Prop
  | none (disk : Disk) : History file disk [] disk
  | run {disk after : Disk} {world between : World} {pages : Pages} {rest : List Pages}
      {changes : Changes} (same : world.disk = disk)
      (returned : Returns (session file pages) world changes between)
      (quiet : changes.diagnostics = []) (more : History file between.disk rest after) :
      History file disk (pages :: rest) after

variable {origin disk after : Disk} {texts others : Named Text} {out : Place}

/-! ### The invariant -/

/-- What a disk is like between two runs, given the pages of the run before. -/
structure Settled (origin : Disk) (file folder : Path) (lang : Text) (texts : Named Text)
    (disk : Disk) : Prop where
  keeps : Keeps (outside (origin.placeOf folder)) origin disk
  pages : ArePages origin (origin.placeOf folder) texts
  holds : Holds origin (origin.placeOf folder) texts disk
  usable : ∀ page ∈ texts, (folder.child page.1).IsUsable
  folderWay : texts ≠ [] → ∀ place ∈ origin.placesPassed folder, disk.root.HasFolderAt place
  recorded : (disk.files (origin.placeOf file) = none ∧ texts = []) ∨
    ∃ manifest : Manifest, manifest.IsRegular ∧
      disk.files (origin.placeOf file) = some (Text.utf8 manifest.write) ∧
      ∀ path, path ∈ manifest.outputsFor lang ↔ path ∈ Named.names texts
  fileWay : texts ≠ [] →
    file.IsUsable ∧ ∀ place ∈ origin.placesPassed file, disk.root.HasFolderAt place

/-- Before the first run there are no pages and no manifest. -/
theorem Setting.settled {file folder : Path} (setting : Setting origin file folder)
    (absent : origin.files (origin.placeOf file) = none) (lang : Text) :
    Settled origin file folder lang [] origin where
  keeps := .refl setting.plain _
  pages := ⟨List.nodup_nil, List.forall_mem_nil _, List.forall_mem_nil _, List.forall_mem_nil _⟩
  holds inner bytes := by simp [IsPageAt]
  usable := List.forall_mem_nil _
  folderWay present := absurd rfl present
  recorded := Or.inl ⟨absent, rfl⟩
  fileWay present := absurd rfl present

/-! ### Opening the manifest -/

section Opening

variable {file folder : Path} {lang : Text} {world later : World} {store : Store}

/-- A manifest that was opened is the one in the file, or it is empty and the file cannot be
read. -/
theorem load_returns (returned : Returns (Store.load (some file)) world store later) :
    later.disk = world.disk ∧ store.path = some file ∧ store.isUnsaved = false ∧
      ((∃ raw value, world.disk.readText file = .ok raw ∧ Json.read raw = .ok value ∧
          store.manifest = ofJson value) ∨
        store.manifest = {} ∧
          ∀ raw value, world.disk.readText file = .ok raw → Json.read raw ≠ .ok value) := by
  have empty {level : Log.Level} {text : Text} (ignored : Returns (do
      Run.log level "stores.manifest" text
      pure ({ path := some file } : Store)) world store later) :
      later.disk = world.disk ∧ store = { path := some file } := by
    obtain ⟨_, between, logged, rest⟩ := returns_bind_iff.mp ignored
    obtain ⟨rfl, rfl⟩ := returns_pure_iff.mp rest
    obtain ⟨-, rfl⟩ := Prod.mk.inj logged
    exact ⟨rfl, rfl⟩
  unfold Store.load at returned
  obtain ⟨now, between, got, rest⟩ := returns_bind_iff.mp returned
  obtain ⟨same, rfl⟩ := Prod.mk.inj got
  obtain rfl := Except.ok.inj same
  split at rest
  · next raw read =>
    split at rest
    · next value parsed =>
      obtain ⟨rfl, rfl⟩ := returns_pure_iff.mp rest
      exact ⟨rfl, rfl, rfl, Or.inl ⟨raw, value, read, parsed, rfl⟩⟩
    · next parsed =>
      obtain ⟨unchanged, rfl⟩ := empty rest
      refine ⟨unchanged, rfl, rfl, Or.inr ⟨rfl, fun other value here => ?_⟩⟩
      rw [← Except.ok.inj (read.symm.trans here), parsed]
      exact fun wrong => nomatch wrong
    · exact absurd rest Run.not_returns_throw
  · next read =>
    obtain ⟨rfl, rfl⟩ := returns_pure_iff.mp rest
    exact ⟨rfl, rfl, rfl, Or.inr ⟨rfl, fun other value here => nomatch read.symm.trans here⟩⟩
  · next read =>
    obtain ⟨unchanged, rfl⟩ := empty rest
    exact ⟨unchanged, rfl, rfl, Or.inr ⟨rfl, fun other value here => nomatch read.symm.trans here⟩⟩
  · exact absurd rest Run.not_returns_throw

/-- What is known of a manifest that a run has opened between two runs. -/
structure Opened (origin : Disk) (file : Path) (lang : Text) (texts : Named Text) (disk : Disk)
    (manifest : Manifest) : Prop where
  regular : manifest.IsRegular
  listed : ∀ path, path ∈ manifest.outputsFor lang ↔ path ∈ Named.names texts
  source : manifest = {} ∨ disk.HasFollowed file ∧
    ∃ written : Manifest, written.IsRegular ∧
      disk.files (origin.placeOf file) = some (Text.utf8 written.write) ∧
      manifest = ofJson written.toJson.sorted

theorem outputsFor_ofJson {manifest : Manifest} (regular : manifest.IsRegular) (lang : Text) :
    (ofJson manifest.toJson.sorted).outputsFor lang = manifest.outputsFor lang := by
  rw [outputsFor, outputsFor, get?_ofJson_outputs regular.isLegible]

/-- The manifest that a run opens lists the pages of the run before. -/
theorem Settled.opened (settled : Settled origin file folder lang texts world.disk)
    (returned : Returns (Store.load (some file)) world store later) :
    later.disk = world.disk ∧ store.path = some file ∧ store.isUnsaved = false ∧
      Opened origin file lang texts world.disk store.manifest := by
  have plain := settled.keeps.plain
  have place := settled.keeps.placeOf file
  obtain ⟨unchanged, path, saved, loaded⟩ := load_returns returned
  refine ⟨unchanged, path, saved, ?_⟩
  rcases loaded with ⟨raw, value, read, parsed, same⟩ | ⟨empty, unreadable⟩
  · obtain ⟨followed, bytes, decoded, present, utf8, rfl⟩ := Disk.readText_eq_ok plain read
    rw [place] at present
    rcases settled.recorded with ⟨absent, _⟩ | ⟨manifest, regular, written, listed⟩
    · exact nomatch absent.symm.trans present
    · obtain rfl := Option.some.inj (present.symm.trans written)
      obtain rfl := Option.some.inj ((Text.ofUtf8?_utf8 _).symm.trans utf8)
      rw [Text.plainNewlines_of_notMem manifest.unbroken_write, read_written regular.isLegible]
        at parsed
      rw [same, ← Except.ok.inj parsed]
      refine ⟨isRegular_ofJson regular, fun path => ?_,
        Or.inr ⟨followed, manifest, regular, written, rfl⟩⟩
      rw [outputsFor_ofJson regular, listed path]
  · have none : texts = [] := by
      by_contra some
      rcases settled.recorded with ⟨_, none⟩ | ⟨manifest, regular, written, _⟩
      · exact some none
      · obtain ⟨usable, way⟩ := settled.fileWay some
        rw [← place] at written
        rw [← settled.keeps.placesPassed] at way
        exact unreadable _ _
          (Disk.readText_of_way plain usable way written manifest.unbroken_write)
          (read_written regular.isLegible)
    rw [empty, none]
    exact ⟨isRegular_empty, fun path => Iff.rfl, Or.inl rfl⟩

end Opening

/-! ### A single run -/

section Session

variable {file folder : Path} {lang : Text} {world later : World} {store saved : Store}
  {given : Pages} {changes : Changes}

/-- Whether pages go to the folder of the history, under its language, with stale pages deleted. -/
structure Suits (origin : Disk) (folder : Path) (lang : Text) (given : Pages) : Prop where
  target : given.folder = folder
  language : given.lang = lang
  clean : given.clean = true
  pages : ArePages origin (origin.placeOf folder) given.texts

theorem ArePages.perm (pages : ArePages origin out texts) (order : others.Perm texts) :
    ArePages origin out others where
  distinct := (order.map Prod.fst).nodup_iff.mpr pages.distinct
  canonical page member := pages.canonical page (order.mem_iff.mp member)
  unbroken page member := pages.unbroken page (order.mem_iff.mp member)
  vacant page member := pages.vacant page (order.mem_iff.mp member)

/-- Canonical paths are listed as they are, in order. -/
theorem paths_of_canonical (canonical : ∀ page ∈ given.texts, Path.IsCanonical page.1) :
    given.paths = Text.sort (Named.names given.texts) := by
  have same : given.texts.map (fun page => normalize page.1) = Named.names given.texts :=
    List.map_congr_left fun page member => normalize_of_isCanonical (canonical page member)
  rw [← same]
  rfl

theorem mem_paths (canonical : ∀ page ∈ given.texts, Path.IsCanonical page.1) {path : Text} :
    path ∈ given.paths ↔ path ∈ Named.names given.texts := by
  rw [paths_of_canonical canonical]
  exact (Text.sortOn_perm id _).mem_iff

theorem isCanonical_of_mem_paths (canonical : ∀ page ∈ given.texts, Path.IsCanonical page.1) :
    ∀ path ∈ given.paths, Path.IsCanonical path := by
  intro path member
  obtain ⟨page, listed, rfl⟩ := List.mem_map.mp ((mem_paths canonical).mp member)
  exact canonical page listed

theorem pruneFolder_returns {result : Unit}
    (returned : Returns (pruneFolder folder) world result later) :
    ∃ gone, world.disk.prune folder = .ok (gone, later.disk) := by
  obtain ⟨⟨gone, disk⟩, between, looked, rest⟩ := returns_bind_iff.mp returned
  obtain ⟨pruned, rfl⟩ := returns_look_iff.mp looked
  obtain ⟨-, rfl⟩ := Prod.mk.inj rest
  exact ⟨gone, pruned⟩

theorem record_returns {paths : List Text} {input : Input}
    (returned : Returns (store.record lang paths input) world saved later) :
    later.disk = world.disk ∧
      ((store.manifest.isCurrent lang paths input = true ∧ saved = store) ∨
        saved = { store with
          manifest := store.manifest.recordAt lang paths input (world.clock (world.readings + 1)),
          isUnsaved := true }) := by
  unfold Store.record at returned
  split at returned
  · next current =>
    obtain ⟨rfl, rfl⟩ := returns_pure_iff.mp returned
    exact ⟨rfl, Or.inl ⟨current, rfl⟩⟩
  · obtain ⟨time, between, clock, rest⟩ := returns_bind_iff.mp returned
    obtain ⟨rfl, rfl⟩ := Run.returns_time_iff.mp clock
    obtain ⟨rfl, rfl⟩ := returns_pure_iff.mp rest
    exact ⟨rfl, Or.inr rfl⟩

theorem save_returns (returned : Returns store.save world saved later)
    (path : store.path = some file) :
    (store.isUnsaved = false ∧ later.disk = world.disk) ∨
      store.isUnsaved = true ∧ ∃ above middle,
        world.disk.ensureFolders above file.parent = (.ok (), middle) ∧
          middle.writeText file store.manifest.write = .ok later.disk := by
  unfold Store.save at returned
  rw [path] at returned
  dsimp only at returned
  split at returned
  · next unsaved =>
    obtain ⟨_, between, written, rest⟩ := returns_bind_iff.mp returned
    obtain ⟨-, rfl⟩ := returns_pure_iff.mp rest
    obtain ⟨_, opened, made, changed⟩ := returns_bind_iff.mp written
    obtain ⟨upper, ensured, rfl⟩ := returns_ensureFolders_iff.mp made
    obtain ⟨disk, stored, rfl⟩ := returns_change_iff.mp changed
    exact Or.inr ⟨unsaved, _, upper, ensured, stored⟩
  · next current =>
    obtain ⟨-, rfl⟩ := returns_pure_iff.mp returned
    exact Or.inl ⟨by simpa using current, rfl⟩

theorem mem_stale (suits : Suits origin folder lang given) {manifest : Manifest} {path : Text} :
    path ∈ stale manifest given ↔
      path ∈ manifest.outputsFor lang ∧ path ∉ Named.names given.texts := by
  rw [stale, if_pos suits.clean, List.mem_filter, suits.language]
  simp only
    [List.contains_eq_mem, Bool.not_eq_true', decide_eq_false_iff_not,
      mem_paths suits.pages.canonical]

/-- After deleting, writing and pruning the folder holds the new pages, and the paths of all of them
were followed on the way. -/
theorem Settled.applied (settled : Settled origin file folder lang texts world.disk)
    (setting : Setting origin file folder)
    (opened : Opened origin file lang texts world.disk store.manifest)
    (suits : Suits origin folder lang given)
    (returned : Returns (store.apply given) world (changes, saved) later)
    (quiet : changes.diagnostics = []) :
    Keeps (outside (origin.placeOf folder)) world.disk later.disk ∧
      Holds origin (origin.placeOf folder) given.texts later.disk ∧
      (∀ place, outside (origin.placeOf folder) place →
        later.disk.files place = world.disk.files place) ∧
      (∃ written, Keeps (outside (origin.placeOf folder)) origin written ∧
        (∀ page ∈ given.texts, written.HasFollowed (folder.child page.1)) ∧
        Keeps (outside (origin.placeOf folder)) written later.disk) ∧
      ((store.manifest.isCurrent lang given.paths given.input = true ∧ saved = store) ∨
        ∃ time, saved = { store with
          manifest := store.manifest.recordAt lang given.paths given.input time,
          isUnsaved := true }) := by
  unfold Store.apply at returned
  rw [suits.target, suits.language] at returned
  obtain ⟨removals, first, deleting, returned⟩ := returns_bind_iff.mp returned
  obtain ⟨additions, second, writing, returned⟩ := returns_bind_iff.mp returned
  obtain ⟨_, third, pruning, returned⟩ := returns_bind_iff.mp returned
  obtain ⟨_, fourth, recording, returned⟩ := returns_bind_iff.mp returned
  obtain ⟨both, rfl⟩ := returns_pure_iff.mp returned
  obtain ⟨rfl, rfl⟩ := Prod.mk.inj both
  rw [diagnostics_append, List.append_eq_nil_iff] at quiet
  -- Stale pages go, and what stays of the old pages is under paths of the new ones.
  obtain ⟨kept₁, held₁, same₁⟩ := files_deleted settled.keeps settled.holds settled.pages
    settled.usable settled.folderWay
    (fun path member => (opened.listed path).mp ((mem_stale suits).mp member).1) deleting quiet.1
  have early := settled.keeps.trans (kept₁.weaken _)
  -- The new pages are written over them.
  have order := Text.sortOn_perm (fun page : Text × Text => page.1) given.texts
  obtain ⟨kept₂, held₂, followed, same₂⟩ := setting.files_written early held₁
    (fun page member => settled.pages.unbroken page (List.mem_of_mem_filter member))
    (suits.pages.perm order) writing quiet.2
  have middle := early.trans (kept₂.weaken _)
  have held : Holds origin (origin.placeOf folder) given.texts second.disk := by
    refine held₂.congr fun page => ?_
    rw [List.mem_append, order.mem_iff]
    refine or_iff_left fun member => ?_
    obtain ⟨member, overwritten⟩ := List.mem_filter.mp member
    obtain ⟨present, fresh⟩ := List.mem_filter.mp member
    simp only [decide_eq_true_eq, mem_stale suits, opened.listed, not_and_not_right] at fresh
    have listed := fresh (List.mem_map_of_mem present)
    exact absurd ((order.map Prod.fst).mem_iff.mpr listed) (of_decide_eq_true overwritten)
  -- Pruning leaves the files alone.
  obtain ⟨gone, pruned⟩ := pruneFolder_returns pruning
  obtain ⟨kept₃, same₃⟩ := Disk.prune_eq_ok middle.plain pruned
  rw [middle.placeOf] at kept₃
  obtain ⟨unchanged, noted⟩ := record_returns recording
  rw [unchanged]
  refine ⟨(kept₁.weaken _).trans ((kept₂.weaken _).trans kept₃), ?_, ?_,
    ⟨second.disk, middle, ?_, kept₃⟩, noted.imp_right fun same => ⟨_, same⟩⟩
  · intro inner bytes
    rw [same₃]
    exact held inner bytes
  · intro place apart
    rw [same₃, same₂ place apart, same₁ place apart]
  · exact fun page member => followed page (order.mem_iff.mpr member)

theorem outputsFor_of_isCurrent {manifest : Manifest} {paths : List Text} {input : Input}
    (current : manifest.isCurrent lang paths input = true) : manifest.outputsFor lang = paths := by
  rw [isCurrent, Bool.and_eq_true, beq_iff_eq] at current
  rw [outputsFor, current.2, Option.getD_some]

theorem outputsFor_recordAt (manifest : Manifest) (lang : Text) (paths : List Text) (input : Input)
    (time : Text) : (manifest.recordAt lang paths input time).outputsFor lang = paths := by
  rw [outputsFor, recordAt, Named.get?_set, if_pos rfl, Option.getD_some]

theorem not_isCurrent_empty (lang : Text) (paths : List Text) (input : Input) :
    ¬ (({} : Manifest).isCurrent lang paths input = true) := by
  rw [isCurrent, Bool.and_eq_true, beq_iff_eq]
  rintro ⟨-, recorded⟩
  cases recorded

/-- After saving, the manifest in the file lists the new pages, and its path was followed in this
run. -/
theorem Settled.stored (settled : Settled origin file folder lang texts disk)
    (setting : Setting origin file folder)
    (opened : Opened origin file lang texts disk store.manifest) (path : store.path = some file)
    (upToDate : store.isUnsaved = false) (suits : Suits origin folder lang given)
    (kept : Keeps (outside (origin.placeOf folder)) disk world.disk)
    (holds : Holds origin (origin.placeOf folder) given.texts world.disk)
    (same : ∀ place, outside (origin.placeOf folder) place →
      world.disk.files place = disk.files place)
    (noted : (store.manifest.isCurrent lang given.paths given.input = true ∧ saved = store) ∨
      ∃ time, saved = { store with
        manifest := store.manifest.recordAt lang given.paths given.input time, isUnsaved := true })
    {final : Store} (returned : Returns saved.save world final later) :
    Keeps (outside (origin.placeOf folder)) world.disk later.disk ∧
      Holds origin (origin.placeOf folder) given.texts later.disk ∧
      (∃ manifest : Manifest, manifest.IsRegular ∧
        later.disk.files (origin.placeOf file) = some (Text.utf8 manifest.write) ∧
        ∀ path, path ∈ manifest.outputsFor lang ↔ path ∈ Named.names given.texts) ∧
      ∃ followed, Keeps (outside (origin.placeOf folder)) origin followed ∧
        followed.HasFollowed file ∧
        Keeps (outside (origin.placeOf folder)) followed later.disk := by
  rcases noted with ⟨current, rfl⟩ | ⟨time, rfl⟩
  · -- Nothing is written: the file has the manifest that was opened, and that is the new one.
    rcases save_returns returned path with ⟨-, unchanged⟩ | ⟨wrong, -⟩
    · rcases opened.source with empty | ⟨followed, manifest, regular, written, loaded⟩
      · rw [empty] at current
        exact absurd current (not_isCurrent_empty _ _ _)
      · rw [unchanged]
        refine ⟨.refl kept.plain _, holds, ⟨manifest, regular, ?_, fun path => ?_⟩,
          disk, settled.keeps, followed, kept⟩
        · rw [same _ setting.apart, written]
        · rw [← outputsFor_ofJson regular, ← loaded, outputsFor_of_isCurrent current,
            mem_paths suits.pages.canonical]
    · exact nomatch upToDate.symm.trans wrong
  · rcases save_returns returned path with ⟨wrong, -⟩ | ⟨-, above, middle, ensured, written⟩
    · exact nomatch wrong
    · have keeps := settled.keeps.trans kept
      obtain ⟨step, followed, changed⟩ := files_writeText kept.plain
        (setting.isClear keeps holds setting.file_startOf) ensured written
      rw [keeps.placeOf] at changed
      have late : Keeps (outside (origin.placeOf folder)) world.disk later.disk := step.weaken _
      refine ⟨late, holds.update setting.apart changed, ⟨_, opened.regular.recordAt
        (fun path member => normalize_of_isCanonical
          (isCanonical_of_mem_paths suits.pages.canonical path member)) lang given.input time, ?_,
        fun path => ?_⟩, later.disk, keeps.trans late, followed, .refl step.plain _⟩
      · rw [changed, Function.update_self]
      · rw [outputsFor_recordAt, mem_paths suits.pages.canonical]

/-- A run that has nothing to report leaves the disk as it has to be between runs. -/
theorem Settled.session (settled : Settled origin file folder lang texts world.disk)
    (setting : Setting origin file folder) (suits : Suits origin folder lang given)
    (returned : Returns (session file given) world changes later)
    (quiet : changes.diagnostics = []) :
    Settled origin file folder lang given.texts later.disk := by
  obtain ⟨store, noted, saved, first, second, third, loading, applying, saving, left⟩ :=
    session_steps returned
  obtain ⟨unchanged, path, upToDate, opened⟩ := settled.opened loading
  rw [← unchanged] at settled opened
  rw [left]
  obtain ⟨early, held, same, ⟨written, toWritten, pagesFollowed, fromWritten⟩, recorded⟩ :=
    settled.applied setting opened suits applying quiet
  obtain ⟨late, holds, manifest, followed, toFollowed, fileFollowed, fromFollowed⟩ :=
    settled.stored setting opened path upToDate suits early held same recorded saving
  refine ⟨settled.keeps.trans (early.trans late), suits.pages, holds, ?_, ?_, Or.inr manifest, ?_⟩
  · exact fun page member => (pagesFollowed page member).usable
  · intro present
    obtain ⟨page, rest, cons⟩ := List.exists_cons_of_ne_nil present
    have member : page ∈ given.texts := cons ▸ List.mem_cons_self
    refine setting.way setting.folderWay toWritten (fun place passed => ?_)
      (fromWritten.trans late) (holds.hasFolderAt present)
    have canonical := suits.pages.canonical page member
    rw [← toWritten.startOf, ← written.startOf_child folder canonical]
    refine (pagesFollowed page member).way place ?_
    rw [written.placesPassed_child folder canonical, toWritten.placesPassed]
    exact List.mem_append_left _ passed
  · intro present
    refine ⟨fileFollowed.usable, setting.way setting.fileWay toFollowed (fun place passed => ?_)
      fromFollowed (holds.hasFolderAt present)⟩
    rw [← toFollowed.startOf]
    exact fileFollowed.way place (toFollowed.placesPassed file ▸ passed)

end Session

/-! ### Whole histories -/

/-- What every run leaves behind holds after all of them, with the pages of the last one. -/
theorem Setting.history {file folder : Path} {lang : Text} (setting : Setting origin file folder)
    {before : Disk} (settled : Settled origin file folder lang texts before) {runs : List Pages}
    {last : Pages} (history : History file before (runs ++ [last]) after)
    (suits : ∀ given ∈ runs ++ [last], Suits origin folder lang given) :
    Settled origin file folder lang last.texts after := by
  induction runs generalizing before texts with
  | nil =>
    cases history with
    | run same returned quiet more =>
      subst same
      cases more with
      | none => exact settled.session setting (suits _ List.mem_cons_self) returned quiet
  | cons given rest inductionHypothesis =>
    cases history with
    | run same returned quiet more =>
      subst same
      have next := settled.session setting (suits _ List.mem_cons_self) returned quiet
      exact inductionHypothesis next more fun other member =>
        suits other (List.mem_cons_of_mem _ member)

/-- After any number of runs without a report, which began without a manifest, the files in the
folder of pages are exactly those of the user, unchanged, and the pages of the last run with their
texts. -/
theorem files_after_history {origin after : Disk} {file folder : Path} {lang : Text}
    (setting : Setting origin file folder)
    (absent : origin.files (origin.placeOf file) = none) {runs : List Pages} {last : Pages}
    (history : History file origin (runs ++ [last]) after)
    (suits : ∀ given ∈ runs ++ [last], Suits origin folder lang given) :
    ∀ inner bytes, after.files (origin.placeOf folder ++ inner) = some bytes ↔
      origin.files (origin.placeOf folder ++ inner) = some bytes ∨
        ∃ page ∈ last.texts, Text.pieces '/' page.1 = inner ∧ Text.utf8 page.2 = bytes :=
  (setting.history (setting.settled absent lang) history suits).holds

/-! ### Two histories of two runs -/

/-- A run can be put together from its steps. -/
theorem session_returns {file : Path} (given : Pages) {store : Store} {world first second : World}
    {removals additions : Changes} {gone : Bool} {swept upper after : Disk}
    (loading : Returns (Store.load (some file)) world store world) (path : store.path = some file)
    (deleting : Returns (inTurn (deleteStale given.folder) (stale store.manifest given)) world
      removals first)
    (writing : Returns (inTurn (fun (path, text) => writePage given.folder path text)
      (Text.sortOn (·.1) given.texts)) first additions second)
    (pruning : second.disk.prune given.folder = .ok (gone, swept))
    (outdated : store.manifest.isCurrent given.lang given.paths given.input = false)
    (ensuring : swept.ensureFolders file.parent.names.length file.parent = (.ok (), upper))
    (storing : upper.writeText file (store.manifest.recordAt given.lang given.paths given.input
      (second.clock (second.readings + 1))).write = .ok after) :
    ∃ later, Returns (session file given) world (removals ++ additions) later ∧
      later.disk = after := by
  obtain ⟨_, manifest, unsaved⟩ := store
  obtain rfl : _ = some file := path
  have applying : Returns (Store.apply ⟨some file, manifest, unsaved⟩ given) world
      (removals ++ additions, ⟨some file, manifest.recordAt given.lang given.paths given.input
        (second.clock (second.readings + 1)), true⟩)
      { second with disk := swept, readings := second.readings + 1 } := by
    refine returns_bind_iff.mpr ⟨_, _, deleting, returns_bind_iff.mpr ⟨_, _, writing, ?_⟩⟩
    refine returns_bind_iff.mpr ⟨(), { second with disk := swept }, ?_, ?_⟩
    · refine returns_bind_iff.mpr ⟨_, _, returns_look_iff.mpr ⟨pruning, rfl⟩, rfl⟩
    · refine returns_bind_iff.mpr ⟨_, _, ?_, returns_pure_iff.mpr ⟨rfl, rfl⟩⟩
      rw [Store.record, if_neg (by simpa using outdated)]
      rfl
  have saving : Returns (Store.save ⟨some file, manifest.recordAt given.lang given.paths given.input
      (second.clock (second.readings + 1)), true⟩)
      { second with disk := swept, readings := second.readings + 1 }
      ⟨some file, manifest.recordAt given.lang given.paths given.input
        (second.clock (second.readings + 1)), false⟩
      { second with disk := after, readings := second.readings + 1 } := by
    refine returns_bind_iff.mpr ⟨(), _, returns_bind_iff.mpr ⟨(), _,
      returns_ensureFolders_iff.mpr ⟨upper, ensuring, rfl⟩,
      returns_change_iff.mpr ⟨after, storing, rfl⟩⟩, rfl⟩
  exact session_of_steps loading applying saving

/-- A manifest that can be read is opened. -/
theorem load_of_read {file : Path} {world : World} {text : Text} {value : Json}
    (read : world.disk.readText file = .ok text) (parsed : Json.read text = .ok value) :
    Returns (Store.load (some file)) world
      { path := some file, manifest := ofJson value } world := by
  refine returns_bind_iff.mpr ⟨world, world, rfl, ?_⟩
  rw [read]
  dsimp only
  rw [parsed]
  rfl

theorem load_of_written {file : Path} {manifest : Manifest} (regular : manifest.IsRegular)
    {world : World} (read : world.disk.readText file = .ok manifest.write) :
    Returns (Store.load (some file)) world
      { path := some file, manifest := ofJson manifest.toJson.sorted } world :=
  load_of_read read (read_written regular.isLegible)

theorem load_of_missing {file : Path} {world : World} {text : Text}
    (missing : world.disk.readText file = .error (.disk ⟨.notFound, text⟩)) :
    Returns (Store.load (some file)) world { path := some file } world := by
  refine returns_bind_iff.mpr ⟨world, world, rfl, ?_⟩
  rw [missing]
  rfl

/-- For a language that is not listed there is nothing to delete, and the run is recorded. -/
theorem session_of_unlisted {file : Path} (given : Pages) {store : Store} {world second : World}
    {additions : Changes} {gone : Bool} {swept upper after : Disk}
    (loading : Returns (Store.load (some file)) world store world) (path : store.path = some file)
    (unlisted : store.manifest.outputs.get? given.lang = none)
    (writing : Returns (inTurn (fun (path, text) => writePage given.folder path text)
      (Text.sortOn (·.1) given.texts)) world additions second)
    (pruning : second.disk.prune given.folder = .ok (gone, swept))
    (ensuring : swept.ensureFolders file.parent.names.length file.parent = (.ok (), upper))
    (storing : upper.writeText file (store.manifest.recordAt given.lang given.paths given.input
      (second.clock (second.readings + 1))).write = .ok after) :
    ∃ later, Returns (session file given) world ({} ++ additions) later ∧ later.disk = after := by
  have deleting : Returns (inTurn (deleteStale given.folder) (stale store.manifest given)) world
      {} world := by
    have nothing : stale store.manifest given = [] := by
      rw [stale, outputsFor, unlisted]
      split <;> rfl
    rw [nothing]
    exact returns_pure_iff.mpr ⟨rfl, rfl⟩
  have outdated : store.manifest.isCurrent given.lang given.paths given.input = false := by
    rw [isCurrent, unlisted]
    exact Bool.and_false _
  exact session_returns given loading path deleting writing pruning outdated ensuring storing

/-- Without a manifest the run is recorded in a new one. -/
theorem session_of_missing {file : Path} (given : Pages) {world second : World} {text : Text}
    {additions : Changes} {gone : Bool} {swept upper after : Disk}
    (missing : world.disk.readText file = .error (.disk ⟨.notFound, text⟩))
    (writing : Returns (inTurn (fun (path, text) => writePage given.folder path text)
      (Text.sortOn (·.1) given.texts)) world additions second)
    (pruning : second.disk.prune given.folder = .ok (gone, swept))
    (ensuring : swept.ensureFolders file.parent.names.length file.parent = (.ok (), upper))
    (storing : upper.writeText file (recordAt {} given.lang given.paths given.input
      (second.clock (second.readings + 1))).write = .ok after) :
    ∃ later, Returns (session file given) world ({} ++ additions) later ∧ later.disk = after :=
  session_of_unlisted given (load_of_missing missing) rfl rfl writing pruning ensuring storing

section Samples

/-- The manifest of the two histories. -/
def sampleFile : Path := ⟨0, ["m".toList]⟩

/-- A folder of pages beside it. -/
def sampleFolder : Path := ⟨0, ["out".toList]⟩

/-- A single empty page under a path, in a language without a name. -/
def samplePage (folder : Path) (path : Text) : Pages :=
  { folder := folder, lang := [], texts := [(path, [])] }

/-- A world with the given entries at the root of its disk, where paths begin. -/
def sampleWorld (entries : List (Text × Entry)) : World :=
  ⟨⟨.folder entries, []⟩, [], fun _ => [], 0, []⟩

/-- The world when there is a folder of pages and a manifest. -/
def sampleLater (out : Entry) (bytes : List UInt8) : World :=
  sampleWorld [("out".toList, out), ("m".toList, .file bytes)]

/-- The manifest after a run with the page `a`. -/
def sampleManifest : Manifest :=
  recordAt {} [] ["a".toList] {} []

theorem isRegular_sampleManifest : sampleManifest.IsRegular :=
  isRegular_empty.recordAt (by decide) [] {} []

theorem paths_samplePage (folder : Path) (path : Text) :
    (samplePage folder path).paths = [normalize path] :=
  List.mergeSort_singleton _

theorem returns_inTurn_single {α : Type} {step : α → Run Changes} {item : α} {world after : World}
    {changes : Changes} (returned : Returns (step item) world changes after) :
    Returns (inTurn step [item]) world (changes ++ {}) after :=
  returns_inTurn_cons_iff.mpr ⟨_, _, _, returned, rfl, rfl⟩

/-- A page that is not there yet is written. -/
theorem returns_writePage {folder : Path} {path text : Text} {world : World} {upper after : Disk}
    (absent : world.disk.isFile (folder.child (normalize path)) = .ok false)
    (ensuring : world.disk.ensureFolders (folder.child (normalize path)).parent.names.length
      (folder.child (normalize path)).parent = (.ok (), upper))
    (storing : upper.writeText (folder.child (normalize path)) text = .ok after) :
    Returns (writePage folder path text) world { written := [normalize path] }
      { world with disk := after } := by
  have held : Returns (holdsText (folder.child (normalize path)) text) world false world :=
    returns_bind_iff.mpr ⟨_, _, returns_look_iff.mpr ⟨absent, rfl⟩, rfl⟩
  have put : Returns (putPage (folder.child (normalize path)) text) world true
      { world with disk := after } :=
    returns_bind_iff.mpr ⟨_, _, held, returns_bind_iff.mpr ⟨(), _, returns_bind_iff.mpr ⟨(), _,
      returns_ensureFolders_iff.mpr ⟨upper, ensuring, rfl⟩,
      returns_change_iff.mpr ⟨after, storing, rfl⟩⟩, rfl⟩⟩
  exact returns_bind_iff.mpr ⟨_, _, Run.returns_orRefused_ok_iff.mpr put, rfl⟩

theorem returns_singlePage {given : Pages} {path text : Text}
    (single : given.texts = [(path, text)])
    {world after : World} {changes : Changes}
    (returned : Returns (writePage given.folder path text) world changes after) :
    Returns (inTurn (fun (path, text) => writePage given.folder path text)
      (Text.sortOn (·.1) given.texts))
      world (changes ++ {}) after := by
  rw [single, show Text.sortOn (·.1) [(path, text)] =
    [(path, text)] from List.mergeSort_singleton _]
  exact returns_inTurn_single returned

/-- The first run has the page `a`; the manifest is new. -/
theorem sample_first {folder : Path} {entries : List (Text × Entry)} {additions : Changes}
    {second : World} {written swept : Entry}
    (missing : (sampleWorld entries).disk.readText sampleFile =
      .error (.disk ⟨.notFound, sampleFile.text⟩))
    (writing : Returns (writePage folder "a".toList []) (sampleWorld entries) additions second)
    (left : second.disk = (sampleWorld [("out".toList, written)]).disk)
    (timeless : second.clock (second.readings + 1) = [])
    (pruning : (sampleWorld [("out".toList, written)]).disk.prune folder =
      .ok (false, (sampleWorld [("out".toList, swept)]).disk)) :
    ∃ later, Returns (session sampleFile (samplePage folder "a".toList)) (sampleWorld entries)
        ({} ++ (additions ++ {})) later ∧
      later.disk = (sampleLater swept (Text.utf8 sampleManifest.write)).disk := by
  have ensuring : (sampleWorld [("out".toList, swept)]).disk.ensureFolders
      sampleFile.parent.names.length sampleFile.parent =
        (.ok (), (sampleWorld [("out".toList, swept)]).disk) := rfl
  have storing (text : Text) :
      (sampleWorld [("out".toList, swept)]).disk.writeText sampleFile text =
      .ok (sampleLater swept (Text.utf8 text)).disk := rfl
  obtain ⟨later, returned, same⟩ := session_of_missing (samplePage folder "a".toList) missing
    (returns_singlePage rfl writing) (left ▸ pruning) ensuring (storing _)
  rw [paths_samplePage, timeless] at same
  exact ⟨later, returned, same⟩

/-- The second run writes `b`, and `a` is stale. -/
theorem sample_second {folder : Path} {out deleted written swept : Entry} {removals : Changes}
    (deleting : ∀ bytes, Returns (deleteStale folder "a".toList) (sampleLater out bytes) removals
      (sampleLater deleted bytes))
    (writing : ∀ bytes, Returns (writePage folder "b".toList []) (sampleLater deleted bytes)
      { written := ["b".toList] } (sampleLater written bytes))
    (pruning : ∀ bytes, (sampleLater written bytes).disk.prune folder =
      .ok (false, (sampleLater swept bytes).disk)) :
    ∃ later bytes, Returns (session sampleFile (samplePage folder "b".toList))
        (sampleLater out (Text.utf8 sampleManifest.write))
        (removals ++ {} ++ ({ written := ["b".toList] } ++ {})) later ∧
      later.disk = (sampleLater swept bytes).disk := by
  have outputs : (ofJson sampleManifest.toJson.sorted).outputsFor [] = ["a".toList] := by
    rw [outputsFor_ofJson isRegular_sampleManifest]
    exact outputsFor_recordAt ..
  have dropped : stale (ofJson sampleManifest.toJson.sorted) (samplePage folder "b".toList) =
      ["a".toList] := by
    have clean : (samplePage folder "b".toList).clean = true := rfl
    rw [stale, if_pos clean, paths_samplePage,
      show (samplePage folder "b".toList).lang = [] from rfl,
      outputs]
    decide
  have outdated : (ofJson sampleManifest.toJson.sorted).isCurrent []
      (samplePage folder "b".toList).paths {} = false := by
    refine Bool.eq_false_iff.mpr fun current => ?_
    have listed := outputs.symm.trans (outputsFor_of_isCurrent current)
    rw [paths_samplePage] at listed
    exact absurd listed (by decide)
  have reading : (sampleLater out (Text.utf8 sampleManifest.write)).disk.readText sampleFile =
      .ok sampleManifest.write := Disk.readText_of_readBytes rfl sampleManifest.unbroken_write
  have loading := load_of_written isRegular_sampleManifest reading
  generalize Text.utf8 sampleManifest.write = bytes at loading ⊢
  have ensuring : (sampleLater swept bytes).disk.ensureFolders sampleFile.parent.names.length
      sampleFile.parent = (.ok (), (sampleLater swept bytes).disk) := rfl
  have storing (text : Text) : (sampleLater swept bytes).disk.writeText sampleFile text =
      .ok (sampleLater swept (Text.utf8 text)).disk := rfl
  obtain ⟨later, returned, same⟩ := session_returns (samplePage folder "b".toList) loading rfl
    (dropped ▸ returns_inTurn_single (deleting bytes)) (returns_singlePage rfl (writing bytes))
    (pruning bytes) outdated ensuring (storing _)
  exact ⟨later, _, returned, same⟩

/-- Both runs, one after the other. -/
theorem sample_history (folder : Path) (entries : List (Text × Entry))
    (written swept deleted rewritten final : Entry) {removals : Changes}
    (missing : (sampleWorld entries).disk.readText sampleFile =
      .error (.disk ⟨.notFound, sampleFile.text⟩))
    (writing : Returns (writePage folder "a".toList []) (sampleWorld entries)
      { written := ["a".toList] } (sampleWorld [("out".toList, written)]))
    (pruning : (sampleWorld [("out".toList, written)]).disk.prune folder =
      .ok (false, (sampleWorld [("out".toList, swept)]).disk))
    (quiet : removals.diagnostics = [])
    (deleting : ∀ bytes, Returns (deleteStale folder "a".toList) (sampleLater swept bytes) removals
      (sampleLater deleted bytes))
    (rewriting : ∀ bytes, Returns (writePage folder "b".toList []) (sampleLater deleted bytes)
      { written := ["b".toList] } (sampleLater rewritten bytes))
    (sweeping : ∀ bytes, (sampleLater rewritten bytes).disk.prune folder =
      .ok (false, (sampleLater final bytes).disk)) :
    ∃ bytes, History sampleFile (sampleWorld entries).disk
      ([samplePage folder "a".toList] ++ [samplePage folder "b".toList])
      (sampleLater final bytes).disk := by
  obtain ⟨first, began, left⟩ := sample_first missing writing rfl rfl pruning
  obtain ⟨second, bytes, ended, last⟩ := sample_second deleting rewriting sweeping
  have still : (removals ++ {} ++ (({ written := ["b".toList] } : Changes) ++ {})).diagnostics =
      [] := by
    rw [diagnostics_append, diagnostics_append, quiet]
    rfl
  exact ⟨bytes, .run rfl began rfl (.run left.symm ended still (last ▸ .none _))⟩

theorem suits_samplePage {origin : Disk} {folder : Path} {path : Text}
    (canonical : Path.IsCanonical path)
    (vacant : origin.files (origin.placeOf folder ++ Text.pieces '/' path) = none) :
    Suits origin folder [] (samplePage folder path) :=
  ⟨rfl, rfl, rfl, List.nodup_singleton _, List.forall_mem_singleton.mpr canonical,
    List.forall_mem_singleton.mpr List.not_mem_nil, List.forall_mem_singleton.mpr vacant⟩

/-- Where the user has a file of their own, the page of the second run takes the place of the page
of the first run. -/
theorem files_after_history_two_runs :
    ∃ bytes, History sampleFile
        (sampleWorld [("out".toList, .folder [("u".toList, .file [117])])]).disk
        [samplePage ⟨0, ["out".toList]⟩ "a".toList, samplePage ⟨0, ["out".toList]⟩ "b".toList]
        (sampleLater (.folder [("u".toList, .file [117]), ("b".toList, .file [])]) bytes).disk ∧
      ∀ inner content,
      (sampleLater (.folder [("u".toList, .file [117]), ("b".toList, .file [])]) bytes).disk.files
          (["out".toList] ++ inner) = some content ↔
        (sampleWorld [("out".toList, .folder [("u".toList, .file [117])])]).disk.files
            (["out".toList] ++ inner) = some content ∨
          ∃ page ∈ [("b".toList, ([] : Text))],
            Text.pieces '/' page.1 = inner ∧ Text.utf8 page.2 = content := by
  have writing : Returns (writePage ⟨0, ["out".toList]⟩ "a".toList [])
      (sampleWorld [("out".toList, .folder [("u".toList, .file [117])])])
      { written := ["a".toList] } (sampleWorld [("out".toList,
        .folder [("u".toList, .file [117]), ("a".toList, .file [])])]) :=
    returns_writePage rfl rfl rfl
  have deleting (bytes : List UInt8) : Returns (deleteStale ⟨0, ["out".toList]⟩ "a".toList)
      (sampleLater (.folder [("u".toList, .file [117]), ("a".toList, .file [])]) bytes)
      { deleted := ["a".toList] } (sampleLater (.folder [("u".toList, .file [117])]) bytes) := rfl
  have rewriting (bytes : List UInt8) : Returns (writePage ⟨0, ["out".toList]⟩ "b".toList [])
      (sampleLater (.folder [("u".toList, .file [117])]) bytes) { written := ["b".toList] }
      (sampleLater (.folder [("u".toList, .file [117]), ("b".toList, .file [])]) bytes) :=
    returns_writePage rfl rfl rfl
  have setting : Setting (sampleWorld [("out".toList, .folder [("u".toList, .file [117])])]).disk
      sampleFile ⟨0, ["out".toList]⟩ := by
    refine ⟨?_, ⟨_, rfl⟩, by decide, by decide, by decide⟩
    refine .folder (List.nodup_singleton _) (List.forall_mem_singleton.mpr ?_)
    exact .folder (List.nodup_singleton _) (List.forall_mem_singleton.mpr (.file [117]))
  obtain ⟨bytes, history⟩ := sample_history ⟨0, ["out".toList]⟩ _ _ _ _ _
    (.folder [("u".toList, .file [117]), ("b".toList, .file [])]) rfl writing rfl rfl deleting
    rewriting fun _ => rfl
  have suits : ∀ given ∈ [samplePage ⟨0, ["out".toList]⟩ "a".toList,
      samplePage ⟨0, ["out".toList]⟩ "b".toList], Suits (sampleWorld [("out".toList,
        .folder [("u".toList, .file [117])])]).disk ⟨0, ["out".toList]⟩ [] given :=
    List.forall_mem_cons.mpr ⟨suits_samplePage (by decide) rfl,
      List.forall_mem_singleton.mpr (suits_samplePage (by decide) rfl)⟩
  exact ⟨bytes, history, files_after_history setting rfl history suits⟩

/-- A folder that is reached by climbing down into `x` and up again. -/
def detour : Path := ⟨0, ["out".toList, "x".toList, "..".toList]⟩

/-- Without the condition on the paths a stale page can stay. The first run makes `x` on the way to
the page `a` and prunes it, so the second one does not find `a` any more. -/
theorem not_files_after_history : ¬ ∀ (origin after : Disk) (file folder : Path) (lang : Text)
    (runs : List Pages) (last : Pages), origin.root.IsPlain → origin.root.HasFolderAt origin.start →
    ¬ origin.placeOf folder <+: origin.placeOf file → origin.files (origin.placeOf file) = none →
    History file origin (runs ++ [last]) after →
    (∀ given ∈ runs ++ [last], Suits origin folder lang given) →
    ∀ inner bytes, after.files (origin.placeOf folder ++ inner) = some bytes ↔
      origin.files (origin.placeOf folder ++ inner) = some bytes ∨
        ∃ page ∈ last.texts, Text.pieces '/' page.1 = inner ∧ Text.utf8 page.2 = bytes := by
  intro claim
  have writing : Returns (writePage detour "a".toList []) (sampleWorld [])
      { written := ["a".toList] } (sampleWorld [("out".toList,
        .folder [("x".toList, .folder []), ("a".toList, .file [])])]) :=
          returns_writePage rfl rfl rfl
  have deleting (bytes : List UInt8) : Returns (deleteStale detour "a".toList)
      (sampleLater (.folder [("a".toList, .file [])]) bytes) {}
      (sampleLater (.folder [("a".toList, .file [])]) bytes) := rfl
  have rewriting (bytes : List UInt8) : Returns (writePage detour "b".toList [])
      (sampleLater (.folder [("a".toList, .file [])]) bytes) { written := ["b".toList] }
      (sampleLater (.folder [("a".toList, .file []), ("x".toList, .folder []),
        ("b".toList, .file [])]) bytes) := returns_writePage rfl rfl rfl
  obtain ⟨bytes, history⟩ := sample_history detour [] _ _ _ _
    (.folder [("a".toList, .file []), ("b".toList, .file [])]) rfl writing rfl rfl
    deleting rewriting fun _ => rfl
  have holds := claim _ _ sampleFile detour [] _ _ Entry.isPlain_folder_nil ⟨_, rfl⟩ (by decide) rfl
    history (List.forall_mem_cons.mpr ⟨suits_samplePage (by decide) rfl,
      List.forall_mem_singleton.mpr (suits_samplePage (by decide) rfl)⟩) ["a".toList] []
  rcases holds.mp rfl with old | ⟨page, member, same, _⟩
  · exact nomatch old
  · rw [List.mem_singleton.mp member] at same
    exact absurd same (by decide)

end Samples

end Manifest

end LuauReference
