/-
This file treats a manifest that several languages share, each with its pages in a place of its own.
It says what a run of one language leaves alone: the places of the other languages and, until it is
saved, the manifest. And it says what the disk remembers from one run to the next. A run opens what
the runs before it have saved, and what is said there of a language changes only with a run of that
language.

The conditions are on the paths of the runs. A path may climb down into a folder and up again by two
dots, and then it leads nowhere while that folder is gone. So each folder that the path of a
language passes is above its place, or at or below it, or it was there at the start in none of the
places.
-/

import LuauReference.Proofs.Disk.Erasure
import LuauReference.Proofs.Manifest.Account
import LuauReference.Proofs.Manifest.Confinement
import LuauReference.Proofs.Manifest.Mirror

namespace LuauReference

open Run (Returns returns_bind_iff returns_pure_iff)

namespace Disk

/-- Whether a change spares a place on a plain disk in which paths begin as in the first one. -/
def SparesIn (origin : Disk) (here : Place) (spared : Place → Prop) (before after : Disk) : Prop :=
  before.root.IsPlain → before.start = origin.start → Spares here spared before after

instance {origin : Disk} {here : Place} {spared : Place → Prop} :
    IsPreorder Disk (SparesIn origin here spared) where
  refl _ plain _ := .refl plain
  trans _ _ _ early late plain start :=
    have first := early plain start
    first.trans (late first.keeps.plain (first.keeps.start.trans start))

end Disk

namespace Manifest

open Disk (Apart Spares SparesIn View Alike StaysIn inside outside)

/-! ### Languages that share a manifest -/

/-- Whether a folder was there at the start and is in none of the places of the languages. -/
def IsLeftAlone (origin : Disk) (out : Text → Place) (langs : List Text) (place : Place) : Prop :=
  origin.root.HasFolderAt place ∧ ∀ lang ∈ langs, ¬ out lang <+: place

/-- A disk on which some languages share a manifest that is not yet there. None of their places is
in another one, and none of them and the place of the manifest are in each other. The path of the
manifest does not lead through these places, and no link is in them, above them or on that path. -/
structure IsShared (origin : Disk) (file : Path) (out : Text → Place) (langs : List Text) :
    Prop where
  tree : origin.root.IsTree
  begins : origin.root.HasFolderAt origin.start
  named : '\x00' ∉ file.text
  absent : origin.root.at? (origin.placeOf file) = none
  apart : ∀ lang ∈ langs, ∀ other ∈ langs, lang ≠ other → ¬ out lang <+: out other
  beside : ∀ lang ∈ langs, Apart (out lang) (origin.placeOf file)
  fileWay : ∀ place ∈ origin.placesPassed file,
    ¬ origin.placeOf file <+: place ∧ ∀ lang ∈ langs, ¬ out lang <+: place
  unlinked : ∀ place target, origin.root.at? place = some (.link target) →
    place ∉ origin.placesPassed file ∧ ∀ lang ∈ langs, Apart (out lang) place

/-- Whether the pages of a run go to the place of their language and stay there. -/
structure Fits (origin : Disk) (out : Text → Place) (langs : List Text) (given : Pages) : Prop where
  shared : given.lang ∈ langs
  usable : given.folder.IsUsable
  place : origin.placeOf given.folder = out given.lang
  way : ∀ place ∈ origin.placesPassed given.folder,
    place <+: out given.lang ∨ out given.lang <+: place ∨ IsLeftAlone origin out langs place
  stays : ∀ page ∈ given.texts, IsKeptIn (out given.lang) page.1

section

variable {origin : Disk} {file : Path} {out : Text → Place} {langs : List Text} {lang other : Text}
  {given : Pages} {place : Place}

/-- No folder that was there at the start is in the place of the manifest. -/
theorem IsShared.not_isPrefix_of_hasFolderAt (shared : IsShared origin file out langs)
    (present : origin.root.HasFolderAt place) : ¬ origin.placeOf file <+: place := fun below =>
  have above := Entry.hasFolderAt_of_isPrefix present below
  nomatch shared.absent.symm.trans above.choose_spec

/-- Above the place of a language, on the way to the manifest and in folders that are left alone
there is neither the manifest nor the place of a language. -/
theorem IsShared.clear (shared : IsShared origin file out langs) (member : lang ∈ langs)
    (seen : (place <+: out lang ∧ place ≠ out lang) ∨ place ∈ origin.placesPassed file ∨
      IsLeftAlone origin out langs place) :
    ¬ origin.placeOf file <+: place ∧ ∀ other ∈ langs, ¬ out other <+: place := by
  rcases seen with ⟨above, proper⟩ | passed | alone
  · refine ⟨fun below => (shared.beside lang member).right (below.trans above),
      fun other here below => ?_⟩
    by_cases same : other = lang
    · rw [same] at below
      exact proper (above.eq_of_length_le below.length_le)
    · exact shared.apart other here lang member same (below.trans above)
  · exact shared.fileWay place passed
  · exact ⟨shared.not_isPrefix_of_hasFolderAt alone.1, alone.2⟩

/-- What the runs of a language see of a disk. -/
def IsShared.view (shared : IsShared origin file out langs) (member : lang ∈ langs) : View where
  start := origin.start
  here := out lang
  way place := (place <+: out lang ∧ place ≠ out lang) ∨ place ∈ origin.placesPassed file
  kept := IsLeftAlone origin out langs
  apart _ seen := (shared.clear member (or_assoc.mp seen)).2 lang member
  above _ higher proper := Or.inl ⟨higher, proper⟩

/-- The path of the manifest has a name at least, since it leads to nothing. -/
theorem IsShared.names_ne_nil (shared : IsShared origin file out langs) : file.names ≠ [] := by
  intro none
  have place : origin.placeOf file = origin.startOf file := by
    rw [Disk.placeOf, none, Disk.destination_nil]
  refine shared.not_isPrefix_of_hasFolderAt (Disk.hasFolderAt_startOf shared.begins file) ?_
  rw [place]

theorem IsShared.startOf_mem (shared : IsShared origin file out langs) :
    origin.startOf file ∈ origin.placesPassed file :=
  Disk.startOf_mem_placesPassed shared.names_ne_nil

/-- The path of the manifest begins in a folder that is left alone. -/
theorem IsShared.isLeftAlone_startOf (shared : IsShared origin file out langs) :
    IsLeftAlone origin out langs (origin.startOf file) :=
  ⟨Disk.hasFolderAt_startOf shared.begins file, (shared.fileWay _ shared.startOf_mem).2⟩

/-- The folder of a run begins in a folder that is left alone, or in the place of its language when
all folders above this are left alone. -/
theorem Fits.begins (fits : Fits origin out langs given) (shared : IsShared origin file out langs) :
    (shared.view fits.shared).kept (origin.startOf given.folder) ∨
      (shared.view fits.shared).here <+: origin.startOf given.folder ∧
        (shared.view fits.shared).IsFirm := by
  have start := Disk.hasFolderAt_startOf shared.begins given.folder
  by_cases inner : out given.lang <+: origin.startOf given.folder
  · refine Or.inr ⟨inner, ⟨fun top => ?_, fun place higher proper => ?_⟩⟩
    · have here : out given.lang = [] := top
      exact (shared.beside _ fits.shared).left (here ▸ List.nil_prefix)
    · exact ⟨Entry.hasFolderAt_of_isPrefix start (higher.trans inner),
        (shared.clear fits.shared (Or.inl ⟨higher, proper⟩)).2⟩
  · refine Or.inl ⟨start, ?_⟩
    have proper : given.folder.names ≠ [] := fun none => by
      rw [← fits.place, Disk.placeOf, none, Disk.destination_nil] at inner
      exact inner List.prefix_rfl
    rcases fits.way _ (Disk.startOf_mem_placesPassed proper) with higher | below | alone
    · exact (shared.clear fits.shared
        (Or.inl ⟨higher, fun same => inner (same ▸ List.prefix_rfl)⟩)).2
    · exact absurd below inner
    · exact alone.2

theorem Fits.isReached (fits : Fits origin out langs given)
    (shared : IsShared origin file out langs) :
    (shared.view fits.shared).IsReached origin given.folder :=
  ⟨rfl, fits.usable, fits.begins shared, fits.place, fits.way⟩

/-- What a run sees is neither in the place of another language nor in that of the manifest. -/
theorem IsShared.not_isPrefix_of_sees (shared : IsShared origin file out langs)
    (member : lang ∈ langs)
    (seen : (shared.view member).Sees place) :
    ¬ origin.placeOf file <+: place ∧ ∀ other ∈ langs, other ≠ lang → ¬ out other <+: place := by
  rcases seen with below | seen
  · refine ⟨((shared.beside lang member).of_isPrefix below).right, fun other here different => ?_⟩
    have apart : Apart (out lang) (out other) :=
      ⟨shared.apart lang member other here different.symm,
        shared.apart other here lang member different⟩
    exact (apart.of_isPrefix below).right
  · have clear := shared.clear member (or_assoc.mp seen)
    exact ⟨clear.1, fun other here _ => clear.2 other here⟩

/-! ### Links elsewhere -/

/-- The path of the manifest meets no link. -/
theorem IsShared.meetsNoLink (shared : IsShared origin file out langs) :
    origin.MeetsNoLink file := by
  refine List.forall_mem_append.mpr
    ⟨fun place passed target found => ?_, List.forall_mem_singleton.mpr fun target found => ?_⟩
  · exact (shared.unlinked place target found).1 passed
  · exact nomatch shared.absent.symm.trans found

/-- A path into the place of a language meets no link. -/
theorem Fits.meetsNoLink (fits : Fits origin out langs given)
    (shared : IsShared origin file out langs) {names : List Text}
    (stays : StaysIn (out given.lang) names) :
    origin.MeetsNoLink (inside given.folder names) := by
  intro place member target found
  have apart := (shared.unlinked place target found).2 _ fits.shared
  rcases (fits.isReached shared).way_inside stays place member with higher | below | alone
  · exact apart.right higher
  · exact apart.left below
  · exact nomatch found.symm.trans alone.1.choose_spec

theorem isLeftAlone_erased :
    IsLeftAlone origin.erased out langs place ↔ IsLeftAlone origin out langs place :=
  and_congr_left' Entry.hasFolderAt_erased

/-- What is shared with links elsewhere is shared without them. -/
theorem IsShared.erased (shared : IsShared origin file out langs) :
    IsShared origin.erased file out langs where
  tree := shared.tree.isPlain_erased.isTree
  begins := Entry.hasFolderAt_erased.mpr shared.begins
  named := shared.named
  absent := by
    have same : origin.erased.root.at? (origin.placeOf file) =
        (origin.root.at? (origin.placeOf file)).map Entry.erased := origin.root.at?_erased _
    rw [shared.absent] at same
    exact same
  apart := shared.apart
  beside := shared.beside
  fileWay := shared.fileWay
  unlinked place target found := absurd found (origin.root.at?_erased_ne_link place target)

theorem Fits.erased (fits : Fits origin out langs given) :
    Fits origin.erased out langs given where
  shared := fits.shared
  usable := fits.usable
  place := fits.place
  way place passed := (fits.way place passed).imp_right (Or.imp_right isLeftAlone_erased.mpr)
  stays := fits.stays

/-! ### What a run leaves alone -/

/-- Whether a manifest may list a path for a language. -/
def IsListable (out : Text → Place) (lang path : Text) : Prop :=
  normalize path = path ∧ IsKeptIn (out lang) path

/-- The pages of a run spare a place that is not on their way, and all places outside of their
own. -/
theorem Fits.permits (fits : Fits origin out langs given) (shared : IsShared origin file out langs)
    {here : Place} {spared : Place → Prop} (apart : Apart (out given.lang) here)
    (clear : ∀ place, (shared.view fits.shared).Sees place → ¬ here <+: place)
    (weaker : ∀ place, spared place → outside (out given.lang) place) :
    Permits (SparesIn origin here spared) given (IsListable out given.lang) := by
  have reached {disk : Disk} (start : disk.start = origin.start) :
      (shared.view fits.shared).IsReached disk given.folder :=
        (fits.isReached shared).of_start start
  refine ⟨fun path listed disk after removed plain start => ?_,
    fun page member disk above plain start => ?_,
    fun page member disk after written plain start => ?_,
      fun disk gone after pruned plain start => ?_⟩
  · rw [← listed.1, child_normalize] at removed
    have below := Disk.isPrefix_placeOf_inside (reached start) listed.2
    exact (Disk.spares_removeFile plain apart below removed).weaken weaker
  · rw [child_normalize]
    refine (Disk.spares_ensureFolders plain above fun place passed => ?_).weaken fun _ _ => trivial
    exact clear place
      ((reached start).sees (fits.stays page member) place (Disk.mem_way_of_parent passed))
  · rw [child_normalize] at written
    have below := Disk.isPrefix_placeOf_inside (reached start) (fits.stays page member)
    exact (Disk.spares_writeBytes plain apart below written).weaken weaker
  · have place : disk.placeOf given.folder = out given.lang := (reached start).place
    have spares := Disk.spares_prune plain (by rwa [place]) pruned
    rw [place] at spares
    exact spares.weaken weaker

end

/-! ### What a manifest says of a language -/

/-- What a manifest says of a language, with the names of the record in order. -/
def told (manifest : Manifest) (lang : Text) : Option (List Text) × Option Fields :=
  (manifest.outputs.get? lang, (manifest.inputs.get? lang).map sortedRecord)

section

variable {manifest : Manifest} {lang : Text}

theorem sortedRecord_sortedRecord {fields : Fields} (record : IsRecord fields) :
    sortedRecord (sortedRecord fields) = sortedRecord fields := by
  have order := Text.sortOn_perm Prod.fst fields
  have distinct := (order.map Prod.fst).nodup_iff.mpr record.distinct
  have again : IsRecord (Text.sortOn Prod.fst fields) :=
    ⟨distinct, fun field inside => record.texts field (order.mem_iff.mp inside)⟩
  rw [record.sortedRecord_eq, again.sortedRecord_eq]
  exact Text.sortOn_eq_of_perm order distinct

/-- The records of a manifest that was read back have their names in order. -/
theorem ordered_ofJson (regular : manifest.IsRegular) (lang : Text) :
    ((ofJson manifest.toJson.sorted).inputs.get? lang).map sortedRecord =
      (ofJson manifest.toJson.sorted).inputs.get? lang := by
  rw [get?_ofJson_inputs regular.isLegible]
  cases found : manifest.inputs.get? lang with
  | none => rfl
  | some record =>
    have member := Named.mem_of_get?_eq_some found
    exact congrArg some (sortedRecord_sortedRecord (regular.records _ member))

theorem told_ofJson (regular : manifest.IsRegular) (lang : Text) :
    (ofJson manifest.toJson.sorted).told lang = manifest.told lang := by
  rw [told, ordered_ofJson regular, get?_ofJson_outputs regular.isLegible,
    get?_ofJson_inputs regular.isLegible, told]

theorem told_recordAt_self (paths : List Text) (input : Input) (time : Text) :
    (manifest.recordAt lang paths input time).told lang =
      (some paths, some (sortedRecord (input.fields ++ [("generatedAt".toList, .str time)]))) := by
  rw [told, recordAt, Named.get?_set, Named.get?_set, if_pos rfl, if_pos rfl, Option.map_some]

theorem told_recordAt_of_ne {other : Text} (different : lang ≠ other) (paths : List Text)
    (input : Input)
    (time : Text) : (manifest.recordAt lang paths input time).told other = manifest.told other := by
  rw [told, recordAt, Named.get?_set, Named.get?_set, if_neg different, if_neg different, told]

end

/-! ### What a disk remembers -/

/-- What a disk is like between two runs, given the manifest that a run opens: there is no manifest,
or the path of the manifest can be followed to the text of one, and it lists only what it may. -/
structure Remembers (origin : Disk) (file : Path) (out : Text → Place) (disk : Disk)
    (opened : Manifest) : Prop where
  plain : disk.root.IsPlain
  start : disk.start = origin.start
  begins : disk.root.HasFolderAt (origin.startOf file)
  lists : opened.Lists (IsListable out)
  ordered : ∀ lang, (opened.inputs.get? lang).map sortedRecord = opened.inputs.get? lang
  source : (disk.root.at? (origin.placeOf file) = none ∧ opened = {}) ∨
    disk.CanFollow file ∧ ∃ written : Manifest, written.IsRegular ∧
      disk.files (origin.placeOf file) = some (Text.utf8 written.write) ∧
      opened = ofJson written.toJson.sorted

section

variable {origin disk after : Disk} {file : Path} {out : Text → Place} {langs : List Text}
    {lang : Text}
  {given : Pages} {opened : Manifest} {world later : World} {store noted saved : Store}
  {changes : Changes}

theorem IsShared.remembers (shared : IsShared origin file out langs) (plain : origin.root.IsPlain) :
    Remembers origin file out origin {} :=
  ⟨plain, rfl, Disk.hasFolderAt_startOf shared.begins file, lists_empty, fun _ => rfl,
    Or.inl ⟨shared.absent, rfl⟩⟩

/-- A run opens what the disk remembers. -/
theorem Remembers.load (remembers : Remembers origin file out world.disk opened)
    (named : '\x00' ∉ file.text) :
    ∃ later, Returns (Store.load (some file)) world
      { path := some file, manifest := opened } later ∧
      later.disk = world.disk ∧
      later.clock (later.readings + 1) = world.clock (world.readings + 1) := by
  have place : world.disk.placeOf file = origin.placeOf file :=
    Disk.placeOf_of_start remembers.start file
  rcases remembers.source with ⟨absent, rfl⟩ | ⟨can, written, regular, present, rfl⟩
  · have unread (bytes : List UInt8) : world.disk.readBytes file ≠ .ok bytes := by
      intro read
      have present := (Disk.readBytes_eq_ok remembers.plain read).2
      rw [place] at present
      exact nomatch (Entry.fileAt?_of_at?_eq_none absent).symm.trans present
    have missing (raw : Text) : world.disk.readText file ≠ .ok raw := fun read =>
      have ⟨bytes, _, found, _⟩ := Disk.readText_eq_ok_iff.mp read
      unread bytes found
    have ends : Run.Finishes (Store.load (some file)) world :=
      finishes_load_iff.mpr ⟨named, fun bytes read => absurd read (unread bytes)⟩
    obtain ⟨⟨path, manifest, unsaved⟩, later, returned⟩ := ends
    obtain ⟨same, rfl, rfl, ⟨raw, _, read, _⟩ | ⟨rfl, -⟩⟩ := load_returns returned
    · exact absurd read (missing raw)
    · have clock := isTimeless_load (some file) world
      rw [returned.worldAfter_eq] at clock
      exact ⟨later, returned, same, by rw [clock.1, clock.2]⟩
  · rw [← place] at present
    exact ⟨world, load_of_written regular
      (Disk.readText_of_way remembers.plain can.usable can.way present written.unbroken_write),
      rfl, rfl⟩

theorem Remembers.not_hasFolderAt (remembers : Remembers origin file out disk opened) :
    ¬ disk.root.HasFolderAt (origin.placeOf file) := by
  rintro ⟨entries, present⟩
  rcases remembers.source with ⟨absent, -⟩ | ⟨-, written, -, there, -⟩
  · exact nomatch absent.symm.trans present
  · exact nomatch (Entry.fileAt?_eq_some_iff.mp there).symm.trans present

/-- A change that spares the manifest and its way changes nothing of what is remembered. -/
theorem Remembers.spared (remembers : Remembers origin file out disk opened) {spared : Place → Prop}
    (spares : Spares (origin.placeOf file) spared disk after)
    (begins : spared (origin.startOf file))
    (fileWay : ∀ place ∈ origin.placesPassed file, spared place) :
    Remembers origin file out after opened where
  plain := spares.keeps.plain
  start := spares.keeps.start.trans remembers.start
  begins := spares.keeps.folders _ begins remembers.begins
  lists := remembers.lists
  ordered := remembers.ordered
  source := by
    refine remembers.source.imp (fun ⟨absent, empty⟩ => ⟨spares.entry.trans absent, empty⟩)
      fun ⟨can, written, regular, present, same⟩ =>
        ⟨⟨can.usable, fun place member => ?_⟩, written, regular, ?_, same⟩
    · rw [spares.keeps.placesPassed] at member
      refine spares.keeps.folders place (fileWay place ?_) (can.way place member)
      rwa [Disk.placesPassed, Disk.startOf, remembers.start] at member
    · rw [← present, Disk.files, Entry.fileAt?, spares.entry]
      rfl

/-- The pages of a run leave the manifest as it is. -/
theorem Remembers.applied (remembers : Remembers origin file out world.disk opened)
    (shared : IsShared origin file out langs) (fits : Fits origin out langs given)
    (opens : store.manifest = opened)
    (returned : Returns (store.apply given) world (changes, noted) later) :
    Remembers origin file out later.disk opened := by
  have permits : Permits (SparesIn origin (origin.placeOf file) (outside (out given.lang))) given
      (IsListable out given.lang) :=
    fits.permits shared (shared.beside _ fits.shared)
      (fun _ seen => (shared.not_isPrefix_of_sees fits.shared seen).1) fun _ away => away
  have moves : Run.Moves (SparesIn origin (origin.placeOf file) (outside (out given.lang)))
      (store.apply given) world :=
    moves_apply permits (opens ▸ remembers.lists.admits given.lang)
  rw [Run.Moves, returned.worldAfter_eq] at moves
  exact remembers.spared (moves remembers.plain remembers.start)
    (shared.isLeftAlone_startOf.2 _ fits.shared)
    fun place passed => (shared.fileWay place passed).2 _ fits.shared

/-- What a run is about to save: what it opened when that is up to date, and else what it has
recorded. -/
theorem noted_cases (lists : opened.Lists (IsListable out)) (fits : Fits origin out langs given)
    (returned : Returns (Store.apply { path := some file, manifest := opened } given) world
      (changes, noted)
      later) :
    noted.path = some file ∧ noted.manifest.Lists (IsListable out) ∧
      ((noted.isUnsaved = false ∧ noted.manifest = opened) ∨ noted.isUnsaved = true ∧
        noted.manifest = opened.recordAt given.lang given.paths given.input
          (world.clock (world.readings + 1))) := by
  obtain ⟨listed, path⟩ := lists_apply lists returned
  obtain ⟨_, _, _, _, -, -, -, -, recorded⟩ := apply_cases returned
  refine ⟨path, listed.imp fun lang path admitted => ?_, ?_⟩
  · rcases admitted with before | ⟨rfl, own⟩
    · exact before
    · obtain ⟨page, member, rfl⟩ := List.mem_map.mp ((Text.sortOn_perm id _).mem_iff.mp own)
      exact ⟨normalize_normalize page.1, isKeptIn_normalize (fits.stays page member)⟩
  · rcases recorded with ⟨-, rfl⟩ | rfl
    · exact Or.inl ⟨rfl, rfl⟩
    · exact Or.inr ⟨rfl, rfl⟩

theorem kept_of_recorded {opened : Manifest} {noted : Store} {time : Text}
    (recorded : (noted.isUnsaved = false ∧ noted.manifest = opened) ∨ noted.isUnsaved = true ∧
      noted.manifest = opened.recordAt given.lang given.paths given.input time)
    (upToDate : noted.isUnsaved = false) : noted.manifest = opened :=
  recorded.elim (fun known => known.2) fun known => nomatch upToDate.symm.trans known.1

/-- After saving the disk remembers what was saved. -/
theorem Remembers.save (remembers : Remembers origin file out world.disk opened)
    (path : noted.path = some file) (lists : noted.manifest.Lists (IsListable out))
    (kept : noted.isUnsaved = false → noted.manifest = opened)
    (returned : Returns noted.save world saved later) :
    ∃ next, Remembers origin file out later.disk next ∧
      ∀ lang, next.told lang = noted.manifest.told lang := by
  rcases save_returns returned path with ⟨upToDate, same⟩ | ⟨-, above, middle, ensured, written⟩
  · exact ⟨opened, same ▸ remembers, fun lang => by rw [kept upToDate]⟩
  · have begins : world.disk.root.HasFolderAt (world.disk.startOf file) := by
      rw [Disk.startOf, remembers.start]
      exact remembers.begins
    obtain ⟨keeps, followed, changed⟩ :=
      files_writeText remembers.plain (.of_hasFolderAt begins) ensured written
    have stillBegins := keeps.folders _ trivial begins
    refine ⟨ofJson noted.manifest.toJson.sorted, ⟨keeps.plain, keeps.start.trans remembers.start,
      keeps.folders _ trivial remembers.begins, lists.ofJson, ordered_ofJson lists.regular,
      Or.inr ⟨⟨followed.usable, fun place member => ?_⟩, noted.manifest, lists.regular, ?_, rfl⟩⟩,
      told_ofJson lists.regular⟩
    · rcases followed.way place member with folder | before
      · exact folder
      · rw [keeps.startOf] at before
        exact Entry.hasFolderAt_of_isPrefix stillBegins before
    · rw [changed, Disk.placeOf_of_start remembers.start, Function.update_self]

/-- The steps of a run on a disk that remembers a manifest. -/
theorem Remembers.steps (remembers : Remembers origin file out world.disk opened)
    (named : '\x00' ∉ file.text)
    (returned : Returns (session file given) world changes later) :
    ∃ (loaded applied after : World) (noted saved : Store),
      Returns (Store.load (some file)) world { path := some file, manifest := opened } loaded ∧
      loaded.disk = world.disk ∧
      loaded.clock (loaded.readings + 1) = world.clock (world.readings + 1) ∧
      Returns (Store.apply { path := some file, manifest := opened } given) loaded
        (changes, noted) applied ∧
      Returns noted.save applied saved after ∧ later.disk = after.disk := by
  obtain ⟨loaded, loading, same, clock⟩ := remembers.load named
  obtain ⟨_, noted, saved, _, applied, after, again, applying, saving, left⟩ :=
    session_steps returned
  cases again.symm.trans loading
  exact ⟨loaded, applied, after, noted, saved, loading, same, clock, applying, saving, left⟩

/-- After a run the disk remembers a manifest that says the same of all other languages. -/
theorem Remembers.session (remembers : Remembers origin file out world.disk opened)
    (shared : IsShared origin file out langs) (fits : Fits origin out langs given)
    (returned : Returns (session file given) world changes later) :
    ∃ next, Remembers origin file out later.disk next ∧
      ∀ lang, lang ≠ given.lang → next.told lang = opened.told lang := by
  obtain ⟨loaded, applied, after, noted, saved, -, same, -, applying, saving, leaves⟩ :=
    remembers.steps shared.named returned
  rw [← same] at remembers
  obtain ⟨path, lists, recorded⟩ := noted_cases remembers.lists fits applying
  obtain ⟨next, nextRemembers, nextTold⟩ :=
    (remembers.applied shared fits rfl applying).save path lists (kept_of_recorded recorded) saving
  refine ⟨next, leaves ▸ nextRemembers, fun lang different => ?_⟩
  rw [nextTold]
  rcases recorded with ⟨-, same⟩ | ⟨-, noting⟩
  · rw [same]
  · rw [noting, told_recordAt_of_ne different.symm]

end

end Manifest

end LuauReference
