/-
This file proves that runs stay inside of their folders. What a run does to a disk is followed step
by step and whatever becomes of the steps, since a step that fails leaves behind what it has done.
Every file is afterwards as it was before, or it is the manifest, or it lies where a canonical path
leads in the folder of the run.

A run deletes what the manifest lists, so this needs that the manifest lists canonical paths, and
with it that nothing else was ever written in its place. The paths of rendered pages are canonical
when no class asks for a folder that is made of dots. Such a folder leads a run out of its own, as
the end shows.
-/

import LuauReference.Page.Template
import LuauReference.Proofs.Manifest.History
import LuauReference.Proofs.Page.Keys

namespace LuauReference

open Run (Returns worldAfter)

namespace Disk

/-! ### Changes of a disk -/

/-- Whether a disk changes only as allowed: a plain disk in which paths begin as in the first one
stays so, and every file is as it was or as it may become. -/
def OnlyAlters (origin : Disk) (allowed : Place → Option (List UInt8) → Prop)
    (before after : Disk) :
    Prop :=
  before.root.IsPlain → before.start = origin.start →
    after.root.IsPlain ∧ after.start = origin.start ∧
      ∀ place, after.files place = before.files place ∨ allowed place (after.files place)

theorem placeOf_of_start {disk origin : Disk} (same : disk.start = origin.start) (path : Path) :
    disk.placeOf path = origin.placeOf path := by
  rw [placeOf, placeOf, startOf, startOf, same]

section

variable {origin : Disk} {allowed : Place → Option (List UInt8) → Prop}

theorem OnlyAlters.refl (disk : Disk) : OnlyAlters origin allowed disk disk :=
  fun plain start => ⟨plain, start, fun _ => Or.inl rfl⟩

theorem OnlyAlters.trans {first second third : Disk}
    (early : OnlyAlters origin allowed first second)
    (late : OnlyAlters origin allowed second third) : OnlyAlters origin allowed first third := by
  intro plain start
  obtain ⟨plain, start, before⟩ := early plain start
  obtain ⟨plain, start, after⟩ := late plain start
  refine ⟨plain, start, fun place => ?_⟩
  rcases after place with same | changed
  · rw [same]
    exact before place
  · exact Or.inr changed

/-- What keeps all files changes nothing. -/
theorem OnlyAlters.of_keeps {before after : Disk} {kept : Place → Prop}
    (keeps : before.root.IsPlain → Keeps kept before after ∧ after.files = before.files) :
    OnlyAlters origin allowed before after := by
  intro plain start
  obtain ⟨keeps, same⟩ := keeps plain
  exact ⟨keeps.plain, keeps.start.trans start, fun place => Or.inl (congrFun same place)⟩

instance : IsPreorder Disk (OnlyAlters origin allowed) where
  refl := .refl
  trans _ _ _ := .trans

theorem alters_removeFile {disk after : Disk} {path : Path}
    (removed : disk.removeFile path = .ok after)
    (permitted : allowed (origin.placeOf path) none) : OnlyAlters origin allowed disk after := by
  intro plain start
  obtain ⟨keeps, changed⟩ := files_removeFile plain removed
  refine ⟨keeps.plain, keeps.start.trans start, fun place => ?_⟩
  rcases changed place with same | ⟨rfl, gone⟩
  · exact Or.inl same
  · rw [gone, placeOf_of_start start]
    exact Or.inr permitted

/-- Writing a text changes the file at the place of its path. -/
theorem alters_writeText {disk after : Disk} {path : Path} {text : Text}
    (written : disk.writeText path text = .ok after)
    (permitted : allowed (origin.placeOf path) (some (Text.utf8 text))) :
    OnlyAlters origin allowed disk after := by
  intro plain start
  have keeps := keeps_writeBytes plain written
  refine ⟨keeps.plain, keeps.start.trans start, fun place => ?_⟩
  rcases files_writeBytes plain written place with same | ⟨rfl, changed⟩
  · exact Or.inl same
  · rw [changed, placeOf_of_start start]
    exact Or.inr permitted

theorem alters_ensureFolders (disk : Disk) (above : Nat) (path : Path) :
    OnlyAlters origin allowed disk (disk.ensureFolders above path).2 :=
  .of_keeps fun plain => files_ensureFolders plain above path

end

end Disk

namespace Manifest

open Disk (OnlyAlters)

/-! ### Manifests that list admitted paths -/

/-- Whether a manifest is as the program makes them and lists only paths that are admitted for their
language. -/
structure Lists (admitted : Text → Text → Prop) (manifest : Manifest) : Prop where
  regular : manifest.IsRegular
  admits : ∀ lang, ∀ path ∈ manifest.outputsFor lang, admitted lang path

/-- The paths that are admitted after a run: those from before, and its own for its language. -/
def admittedWith (given : Pages) (admitted : Text → Text → Prop) (lang path : Text) : Prop :=
  admitted lang path ∨ lang = given.lang ∧ path ∈ given.paths

theorem normalize_of_mem_paths {given : Pages} : ∀ path ∈ given.paths, normalize path = path := by
  intro path member
  obtain ⟨page, -, rfl⟩ := List.mem_map.mp ((Text.sortOn_perm id _).mem_iff.mp member)
  exact normalize_normalize page.1

section

variable {admitted later : Text → Text → Prop} {manifest : Manifest}

theorem lists_empty : Lists admitted {} :=
  ⟨isRegular_empty, fun _ => List.forall_mem_nil _⟩

theorem Lists.imp (lists : manifest.Lists admitted)
    (weaker : ∀ lang path, admitted lang path → later lang path) : manifest.Lists later :=
  ⟨lists.regular, fun lang path member => weaker lang path (lists.admits lang path member)⟩

theorem Lists.ofJson (lists : manifest.Lists admitted) :
    (ofJson manifest.toJson.sorted).Lists admitted := by
  refine ⟨isRegular_ofJson lists.regular, fun lang => ?_⟩
  rw [outputsFor_ofJson lists.regular]
  exact lists.admits lang

/-- Taking down a run admits its own paths besides those from before. -/
theorem Lists.recordAt (lists : manifest.Lists admitted) (given : Pages) (time : Text) :
    (manifest.recordAt given.lang given.paths given.input time).Lists
      (admittedWith given admitted) := by
  refine ⟨lists.regular.recordAt normalize_of_mem_paths given.lang given.input time,
    fun lang path member => ?_⟩
  rw [outputsFor, Manifest.recordAt, Named.get?_set] at member
  split at member
  · next same => exact Or.inr ⟨same.symm, member⟩
  · exact Or.inl (lists.admits lang path member)

end

/-- Whether the manifest on a disk, if there is one, lists admitted paths only. -/
def KeepsListed (origin : Disk) (file : Path) (admitted : Text → Text → Prop) (disk : Disk) :
    Prop :=
  ∀ bytes, disk.files (origin.placeOf file) = some bytes →
    ∃ manifest : Manifest, manifest.Lists admitted ∧ bytes = Text.utf8 manifest.write

/-! ### Whole runs -/

section

variable {origin : Disk} {allowed : Place → Option (List UInt8) → Prop} {file : Path}
    {world : World}
  {given : Pages} {store : Store} {admitted : Text → Text → Prop}

/-- What a run may do to the files of its pages: take those away whose paths are admitted for its
language, and write its pages. -/
structure PagesMayChange (origin : Disk) (given : Pages) (admitted : Text → Text → Prop)
    (allowed : Place → Option (List UInt8) → Prop) : Prop where
  dropped : ∀ path, admitted given.lang path →
    allowed (origin.placeOf (given.folder.child path)) none
  put : ∀ page ∈ given.texts,
    allowed (origin.placeOf (given.folder.child (normalize page.1))) (some (Text.utf8 page.2))

theorem alters_apply (lists : store.manifest.Lists admitted)
    (pages : PagesMayChange origin given admitted allowed) :
    Run.Moves (OnlyAlters origin allowed) (store.apply given) world := by
  refine moves_apply ⟨fun path member disk after removed => ?_, fun page member disk above => ?_,
    fun page member disk after written => ?_, fun disk gone after pruned => ?_⟩
      (lists.admits given.lang)
  · exact Disk.alters_removeFile removed (pages.dropped path member)
  · exact Disk.alters_ensureFolders _ _ _
  · exact Disk.alters_writeText written (pages.put page member)
  · exact .of_keeps fun plain => Disk.prune_eq_ok plain pruned

/-- What a run lists in the end was listed before or is its own. -/
theorem lists_apply {changes : Changes} {saved : Store} {later : World}
    (lists : store.manifest.Lists admitted)
    (returned : Returns (store.apply given) world (changes, saved) later) :
    saved.manifest.Lists (admittedWith given admitted) ∧ saved.path = store.path := by
  obtain ⟨_, _, _, returned⟩ := Run.returns_bind_iff.mp returned
  obtain ⟨_, _, _, returned⟩ := Run.returns_bind_iff.mp returned
  obtain ⟨_, _, _, returned⟩ := Run.returns_bind_iff.mp returned
  obtain ⟨noted, _, recording, returned⟩ := Run.returns_bind_iff.mp returned
  obtain ⟨both, -⟩ := Run.returns_pure_iff.mp returned
  obtain ⟨-, rfl⟩ := Prod.mk.inj both
  rcases (record_returns recording).2 with ⟨-, rfl⟩ | rfl
  · exact ⟨lists.imp fun _ _ => Or.inl, rfl⟩
  · exact ⟨lists.recordAt given _, rfl⟩

theorem alters_save (path : store.path = some file)
    (permitted : allowed (origin.placeOf file) (some (Text.utf8 store.manifest.write))) :
    Run.Moves (OnlyAlters origin allowed) store.save world :=
  moves_save path (fun _ _ => Disk.alters_ensureFolders _ _ _) fun _ _ written =>
    Disk.alters_writeText written permitted

/-- A run opens a manifest that lists admitted paths only, if that is what the disk holds. -/
theorem lists_load {later : World} (plain : world.disk.root.IsPlain)
    (start : world.disk.start = origin.start) (kept : KeepsListed origin file admitted world.disk)
    (returned : Returns (Store.load (some file)) world store later) :
    later.disk = world.disk ∧ store.path = some file ∧ store.manifest.Lists admitted := by
  obtain ⟨unchanged, path, -, loaded⟩ := load_returns returned
  refine ⟨unchanged, path, ?_⟩
  rcases loaded with ⟨raw, value, read, parsed, same⟩ | ⟨empty, -⟩
  · obtain ⟨-, bytes, decoded, present, utf8, rfl⟩ := Disk.readText_eq_ok plain read
    rw [Disk.placeOf_of_start start] at present
    obtain ⟨manifest, lists, rfl⟩ := kept bytes present
    obtain rfl := Option.some.inj ((Text.ofUtf8?_utf8 _).symm.trans utf8)
    rw [Text.plainNewlines_of_notMem manifest.unbroken_write, read_written lists.regular.isLegible]
      at parsed
    rw [same, ← Except.ok.inj parsed]
    exact lists.ofJson
  · rw [empty]
    exact lists_empty

/-- Whatever becomes of a run, it changes files only as its steps may: as its pages may be changed,
and the manifest to one that lists what was listed before and its own pages. -/
theorem alters_session (plain : world.disk.root.IsPlain) (start : world.disk.start = origin.start)
    (kept : KeepsListed origin file admitted world.disk)
    (pages : PagesMayChange origin given admitted allowed)
    (stored : ∀ manifest : Manifest, manifest.Lists (admittedWith given admitted) →
      allowed (origin.placeOf file) (some (Text.utf8 manifest.write))) :
    Run.Moves (OnlyAlters origin allowed) (session file given) world := by
  refine moves_load.bind fun store later loading => ?_
  obtain ⟨-, path, lists⟩ := lists_load plain start kept loading
  refine Run.Moves.bind ((alters_apply lists pages).bind
    fun applied second applying => Run.Moves.bind ?_ fun _ third _ => ?_) fun _ last _ => ?_
  · obtain ⟨changes, saved⟩ := applied
    obtain ⟨lists, same⟩ := lists_apply lists applying
    exact alters_save (same.trans path) (stored _ lists)
  · exact (Run.moves_log _ _ _).bind fun _ _ _ => Run.moves_pure _
  · exact Run.moves_pure _

end

/-! ### Runs with canonical paths -/

/-- The admission of canonical paths only. -/
def canonicalOnly : Text → Text → Prop := fun _ path => Path.IsCanonical path

/-- What the file at a place may become in a run: a manifest that lists canonical paths in its
place, and nothing or a page where a canonical path leads. -/
def MayBecome (origin : Disk) (file folder : Path) (texts : Named Text) (place : Place)
    (content : Option (List UInt8)) : Prop :=
  (place = origin.placeOf file ∧
      ∃ manifest : Manifest, manifest.Lists canonicalOnly ∧
        content = some (Text.utf8 manifest.write)) ∨
    ∃ path, Path.IsCanonical path ∧ place = origin.placeOf folder ++ Text.pieces '/' path ∧
      (content = none ∨ ∃ text, (path, text) ∈ texts ∧ content = some (Text.utf8 text))

section

variable {origin : Disk} {file : Path} {world : World} {given : Pages}

/-- A run with canonical paths leaves all files as they were but the manifest and those where
canonical paths lead in its folder. -/
theorem alters_session_canonical (plain : world.disk.root.IsPlain)
    (start : world.disk.start = origin.start)
    (kept : KeepsListed origin file canonicalOnly world.disk)
    (canonical : ∀ page ∈ given.texts, Path.IsCanonical page.1) :
    OnlyAlters origin (MayBecome origin file given.folder given.texts) world.disk
      (worldAfter (session file given) world).disk := by
  refine alters_session plain start kept ⟨fun path admitted => ?_, fun page listed => ?_⟩
    fun manifest lists => ?_
  · exact Or.inr ⟨path, admitted, origin.placeOf_child given.folder admitted, Or.inl rfl⟩
  · have own := canonical page listed
    rw [normalize_of_isCanonical own]
    exact Or.inr ⟨page.1, own, origin.placeOf_child given.folder own,
      Or.inr ⟨page.2, listed, rfl⟩⟩
  · refine Or.inl ⟨rfl, manifest, lists.imp fun lang path admitted => ?_, rfl⟩
    exact admitted.elim id fun own => isCanonical_of_mem_paths canonical path own.2

/-- No run changes a file outside of its folder other than the manifest. -/
theorem files_outside (plain : world.disk.root.IsPlain) (start : world.disk.start = origin.start)
    (kept : KeepsListed origin file canonicalOnly world.disk)
    (canonical : ∀ page ∈ given.texts, Path.IsCanonical page.1) {place : Place}
    (away : ¬ IsInside (origin.placeOf given.folder) place) (other : place ≠ origin.placeOf file) :
    (worldAfter (session file given) world).disk.files place = world.disk.files place := by
  rcases (alters_session_canonical plain start kept canonical plain start).2.2 place with
    same | changed
  · exact same
  · rcases changed with ⟨here, -⟩ | ⟨path, -, rfl, -⟩
    · exact absurd here other
    · refine absurd ⟨List.prefix_append _ _, fun same => ?_⟩ away
      exact Text.pieces_ne_nil '/' path (List.self_eq_append_right.mp same.symm)

end

/-! ### Runs one after the other -/

/-- Runs one after the other, whatever becomes of each of them. From one run to the next the disk
stays as it is; clock, messages and home folders may be others. -/
inductive Runs (file : Path) : Disk → List Pages → Disk → Prop
  | none (disk : Disk) : Runs file disk [] disk
  | run (world : World) {given : Pages} {rest : List Pages} {after : Disk}
      (more : Runs file (worldAfter (session file given) world).disk rest after) :
      Runs file world.disk (given :: rest) after

/-- Whether pages stay inside of their folder and away from the manifest. -/
structure AreConfined (origin : Disk) (file : Path) (given : Pages) : Prop where
  canonical : ∀ page ∈ given.texts, Path.IsCanonical page.1
  apart : ∀ page ∈ given.texts,
    origin.placeOf given.folder ++ Text.pieces '/' page.1 ≠ origin.placeOf file

/-- What a disk is like between two runs: plain, with the same beginning of all paths, and with a
manifest that leads nowhere else. -/
structure IsConfined (origin : Disk) (file : Path) (disk : Disk) : Prop where
  plain : disk.root.IsPlain
  start : disk.start = origin.start
  listed : KeepsListed origin file canonicalOnly disk

section

variable {origin disk : Disk} {file : Path}

theorem IsConfined.session {world : World} (confined : IsConfined origin file world.disk)
    {given : Pages} (pages : AreConfined origin file given) :
    IsConfined origin file (worldAfter (session file given) world).disk := by
  obtain ⟨plain, start, files⟩ := alters_session_canonical confined.plain confined.start
    confined.listed pages.canonical confined.plain confined.start
  refine ⟨plain, start, fun bytes present => ?_⟩
  -- No page belongs in the place of the manifest, so what is there is the old one or the one saved.
  rcases files (origin.placeOf file) with same | ⟨-, manifest, lists, written⟩ | changed
  · exact confined.listed bytes (same.symm.trans present)
  · exact ⟨manifest, lists, Option.some.inj (present.symm.trans written)⟩
  · obtain ⟨path, -, here, gone | ⟨text, listed, -⟩⟩ := changed
    · exact nomatch gone.symm.trans present
    · exact absurd here.symm (pages.apart (path, text) listed)

theorem IsConfined.runs {runs : List Pages} {before after : Disk}
    (history : Runs file before runs after)
    (confined : IsConfined origin file before)
    (pages : ∀ given ∈ runs, AreConfined origin file given) :
    IsConfined origin file after := by
  induction history with
  | none disk => exact confined
  | run world more inductionHypothesis =>
    obtain ⟨first, others⟩ := List.forall_mem_cons.mp pages
    exact inductionHypothesis (confined.session first) others

end

/-! ### Rendered pages -/

/-- Whether pages were rendered from classes none of which asks for a folder that is made of dots,
and none of them belongs in the place of the manifest. -/
structure AreRendered (origin : Disk) (file : Path) (given : Pages) : Prop where
  rendered : ∃ settings writer reference, Page.render settings writer reference = .ok given.texts ∧
    ∀ page ∈ Page.planned settings reference, Page.HasNoDots page.symbol
  apart : ∀ page ∈ given.texts,
    origin.placeOf given.folder ++ Text.pieces '/' page.1 ≠ origin.placeOf file

/-- The path of a rendered page has no backslash and no empty name, and it is canonical exactly when
no class with this path asks for a folder that is made of dots. -/
theorem isCanonical_of_render {settings : PageSettings} {writer : PageWriter}
    {reference : Reference}
    {texts : Named Text} (rendered : Page.render settings writer reference = .ok texts)
    {path : Text}
    (listed : path ∈ Named.names texts) :
    '\\' ∉ path ∧ (∀ name ∈ Text.pieces '/' path, name ≠ []) ∧
      (Path.IsCanonical path ↔ ∀ page ∈ Page.planned settings reference, page.path = path →
        Page.HasNoDots page.symbol) := by
  rcases (Page.mem_names_of_render rendered).mp listed with rfl | ⟨page, inside, rfl⟩
  · refine ⟨by decide, by decide, iff_of_true (by decide) fun page inside same => ?_⟩
    exact absurd (List.mem_map.mpr ⟨page, inside, same⟩) Page.indexPath_notMem_classPaths
  · have path := (Page.path_of_mem_planned inside).1
    refine ⟨path ▸ Page.backslash_notMem_classPath _,
      fun name member => Page.ne_nil_of_mem_classPath (path ▸ member), ?_⟩
    constructor
    · intro canonical other listed same
      rw [← same, (Page.path_of_mem_planned listed).1] at canonical
      exact Page.isCanonical_classPath_iff.mp canonical
    · intro plain
      rw [path]
      exact Page.isCanonical_classPath_iff.mpr (plain page inside rfl)

/-- Where no class asks for a folder that is made of dots, all paths of rendered pages are
canonical. -/
theorem areCanonical_of_render {settings : PageSettings} {writer : PageWriter}
    {reference : Reference}
    {texts : Named Text} (rendered : Page.render settings writer reference = .ok texts)
    (plain : ∀ page ∈ Page.planned settings reference, Page.HasNoDots page.symbol) :
    ∀ page ∈ texts, Path.IsCanonical page.1 := by
  intro page listed
  exact (isCanonical_of_render rendered (List.mem_map_of_mem listed)).2.2.mpr
    fun other inside _ => plain other inside

theorem AreRendered.areConfined {origin : Disk} {file : Path} {given : Pages}
    (pages : AreRendered origin file given) : AreConfined origin file given := by
  obtain ⟨settings, writer, reference, rendered, plain⟩ := pages.rendered
  exact ⟨areCanonical_of_render rendered plain, pages.apart⟩

/-- The paths of rendered pages have no empty names and no backslash, and have names that are made
of dots only where a class asks for such folders. Where none does, a run stays inside, if those
before it began without a manifest and had pages of the same kind: whatever becomes of any of them,
the run writes and deletes no file outside of its folder other than the manifest. -/
theorem output_stays_inside (settings : PageSettings) (writer : PageWriter) (reference : Reference)
    {texts : Named Text} (rendered : Page.render settings writer reference = .ok texts) :
    (∀ path ∈ Named.names texts, '\\' ∉ path ∧ (∀ name ∈ Text.pieces '/' path, name ≠ []) ∧
      (Path.IsCanonical path ↔ ∀ page ∈ Page.planned settings reference, page.path = path →
        Page.HasNoDots page.symbol)) ∧
    ((∀ page ∈ Page.planned settings reference, Page.HasNoDots page.symbol) →
      ∀ (origin : Disk) (file : Path) (runs : List Pages) (world : World) (given : Pages),
        origin.root.IsPlain → origin.files (origin.placeOf file) = none →
        Runs file origin runs world.disk → (∀ earlier ∈ runs, AreRendered origin file earlier) →
        given.texts = texts →
        ∀ place, ¬ IsInside (origin.placeOf given.folder) place → place ≠ origin.placeOf file →
          (worldAfter (session file given) world).disk.files place = world.disk.files place) := by
  refine ⟨fun path listed => isCanonical_of_render rendered listed, ?_⟩
  rintro dotless origin file runs world given plain absent history pages rfl place away other
  have first : IsConfined origin file origin :=
    ⟨plain, rfl, fun bytes present => nomatch absent.symm.trans present⟩
  have confined := first.runs history fun earlier listed => (pages earlier listed).areConfined
  exact files_outside confined.plain confined.start confined.listed
    (areCanonical_of_render rendered dotless) away other

/-- Pages for the folder `out`. -/
def sampleTexts (texts : Named Text) : Pages :=
  { folder := ⟨0, ["out".toList]⟩, lang := [], texts := texts }

/-- A file of the user stays through two runs with different pages. -/
theorem output_stays_inside_two_runs :
    ∃ first second,
      Page.render {} Template.standard (Page.classesReference [("Door", some "House")]) =
        .ok first ∧
      Page.render {} Template.standard (Page.classesReference [("Lock", none)]) = .ok second ∧
      (worldAfter (session sampleFile (sampleTexts second)) (worldAfter
        (session sampleFile (sampleTexts first))
          (sampleWorld [("u".toList, .file [117])]))).disk.files
          ["u".toList] = some [117] := by
  obtain ⟨first, one⟩ := Page.render_classesReference {} Template.standard [("Door", some "House")]
  obtain ⟨second, two⟩ := Page.render_classesReference {} Template.standard [("Lock", none)]
  refine ⟨first, second, one, two, ?_⟩
  let world := sampleWorld [("u".toList, .file [117])]
  have dotless : (∀ page ∈ Page.planned {} (Page.classesReference [("Door", some "House")]),
        Page.HasNoDots page.symbol) ∧
      ∀ page ∈ Page.planned {} (Page.classesReference [("Lock", none)]),
        Page.HasNoDots page.symbol := by
    rw [Page.planned, Page.planned, Page.plan_eq_insertedPlan, Page.plan_eq_insertedPlan]
    decide +kernel
  have early : AreRendered world.disk sampleFile (sampleTexts first) :=
    ⟨⟨_, _, _, one, dotless.1⟩, fun page _ same => absurd (List.cons.inj same).1 (by decide)⟩
  have plain : world.disk.root.IsPlain :=
    .folder (List.nodup_singleton _) (List.forall_mem_singleton.mpr (.file [117]))
  have away : ¬ IsInside ["out".toList] ["u".toList] := by decide
  have kept :=
    (output_stays_inside {} Template.standard _ one).2 dotless.1 world.disk sampleFile [] world
    (sampleTexts first) plain rfl (.none _) (List.forall_mem_nil _) rfl ["u".toList] away
      (by decide)
  have again := (output_stays_inside {} Template.standard _ two).2 dotless.2 world.disk sampleFile
    [sampleTexts first]
    (worldAfter (session sampleFile (sampleTexts first)) world) (sampleTexts second) plain rfl
    (.run world (.none _)) (List.forall_mem_singleton.mpr early) rfl ["u".toList] away (by decide)
  exact again.trans kept

/-- The world with the given entries in the folder `out` and a page beside it. -/
def escapedWorld (out : List (Text × Entry)) (door : Text) : World :=
  sampleWorld [("out".toList, .folder out), ("Door.md".toList, .file (Text.utf8 door))]

/-- A page under a path with dots is written beside the folder `out` and not in it. -/
theorem files_session_dots (door index : Text) :
    (worldAfter (session sampleFile (sampleTexts [("classes/../../Door.md".toList, door),
      ("index.md".toList, index)])) (sampleWorld [])).disk.files ["Door.md".toList] =
        some (Text.utf8 door) := by
  let page : Text × Entry := ("index.md".toList, .file (Text.utf8 index))
  have sorted : Text.sortOn (·.1)
      [("classes/../../Door.md".toList, door), ("index.md".toList, index)] =
      [("classes/../../Door.md".toList, door), ("index.md".toList, index)] := by
    rw [Text.sortOn_eq_insertionSort]
    rfl
  have beside : Returns (writePage ⟨0, ["out".toList]⟩ "classes/../../Door.md".toList door)
      (sampleWorld []) { written := ["classes/../../Door.md".toList] }
      (escapedWorld [("classes".toList, .folder [])] door) := returns_writePage rfl rfl rfl
  have inside : Returns (writePage ⟨0, ["out".toList]⟩ "index.md".toList index)
      (escapedWorld [("classes".toList, .folder [])] door) { written := ["index.md".toList] }
      (escapedWorld [("classes".toList, .folder []), page] door) := returns_writePage rfl rfl rfl
  have writing : Returns (inTurn (fun (path, text) => writePage ⟨0, ["out".toList]⟩ path text)
      (Text.sortOn (·.1) [("classes/../../Door.md".toList, door), ("index.md".toList, index)]))
      (sampleWorld []) ({ written := ["classes/../../Door.md".toList] } ++
        (({ written := ["index.md".toList] } : Changes) ++ {}))
      (escapedWorld [("classes".toList, .folder []), page] door) := by
    rw [sorted]
    exact returns_inTurn_cons_iff.mpr ⟨_, _, _, beside, returns_inTurn_single inside, rfl⟩
  have pruning : (escapedWorld [("classes".toList, .folder []), page] door).disk.prune
      ⟨0, ["out".toList]⟩ = .ok (false, (escapedWorld [page] door).disk) := rfl
  have ensuring : (escapedWorld [page] door).disk.ensureFolders sampleFile.parent.names.length
      sampleFile.parent = (.ok (), (escapedWorld [page] door).disk) := rfl
  have storing (text : Text) : ∃ after : Disk,
      (escapedWorld [page] door).disk.writeText sampleFile text = .ok after ∧
        after.files ["Door.md".toList] = some (Text.utf8 door) := ⟨_, rfl, rfl⟩
  obtain ⟨after, stored, present⟩ := storing _
  obtain ⟨later, returned, rfl⟩ :=
    session_of_missing (sampleTexts _) rfl writing pruning ensuring stored
  rw [returned.worldAfter_eq]
  exact present

/-- A category that is made of dots leads a run out of its folder. -/
theorem not_output_stays_inside :
    ∃ texts, Page.render {} Template.standard (Page.classesReference [("Door", some "../..")]) =
      .ok texts ∧
      Named.names texts = ["classes/../../Door.md".toList, "index.md".toList] ∧
      ¬ Path.IsCanonical "classes/../../Door.md".toList ∧
      ¬ IsInside ["out".toList] ["Door.md".toList] ∧
      (sampleWorld []).disk.files ["Door.md".toList] = none ∧
      ((worldAfter (session sampleFile (sampleTexts texts)) (sampleWorld [])).disk.files
        ["Door.md".toList]).isSome = true := by
  obtain ⟨texts, rendered⟩ :=
    Page.render_classesReference {} Template.standard [("Door", some "../..")]
  obtain ⟨pairs, same, names, -⟩ := Page.exists_pairs_of_render rendered
  rw [Page.classPaths, Page.planned, Page.plan_eq_insertedPlan] at names
  have listed : Named.names pairs = ["classes/../../Door.md".toList, "index.md".toList] :=
    names.trans (by decide +kernel)
  rw [Named.ofPairs_of_nodup (by rw [listed]; decide)] at same
  subst same
  refine ⟨texts, rendered, listed, by decide, by decide, rfl, ?_⟩
  obtain ⟨door, index, rfl⟩ : ∃ door index, texts = [("classes/../../Door.md".toList, door),
      ("index.md".toList, index)] := by
    obtain ⟨door, others, texts_eq, others_listed⟩ := Named.exists_eq_cons_of_names listed
    obtain ⟨index, rest, others_eq, rest_listed⟩ := Named.exists_eq_cons_of_names others_listed
    rw [texts_eq, others_eq, List.map_eq_nil_iff.mp rest_listed]
    exact ⟨door, index, rfl⟩
  rw [files_session_dots]
  rfl

end Manifest

end LuauReference
