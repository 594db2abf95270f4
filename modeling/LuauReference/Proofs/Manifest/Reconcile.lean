/-
This file says what the single steps of reconciling a folder do to a disk when they have nothing to
report: deleting a page clears the files at its place, writing a page sets them there, and the steps
for one page after the other keep whatever each of them keeps.

A page counts as unchanged when the file reads as its text. That is weaker than holding it, since a
carriage return is read as a line feed, so the statement about writing asks that a file already
there has none.
-/

import LuauReference.Manifest.Reconcile
import LuauReference.Proofs.Disk.Operation
import LuauReference.Proofs.Disk.Path

namespace LuauReference

namespace Manifest

open Run (Returns returns_bind_iff returns_pure_iff returns_look_iff returns_change_iff
  returns_orRefused_ok_iff returns_orRefused_error_iff returns_ensureFolders_iff)

/-! ### One page after the other -/

@[simp] theorem diagnostics_append (first second : Changes) :
    (first ++ second).diagnostics = first.diagnostics ++ second.diagnostics := rfl

/-- Steps in turn return what the first of them and then the others return. -/
theorem returns_inTurn_cons_iff {α : Type} {step : α → Run Changes} {item : α} {rest : List α}
    {world after : World} {changes : Changes} :
    Returns (inTurn step (item :: rest)) world changes after ↔
      ∃ first middle more, Returns (step item) world first middle ∧
        Returns (inTurn step rest) middle more after ∧ changes = first ++ more := by
  constructor
  · intro returned
    obtain ⟨first, middle, stepped, returned⟩ := returns_bind_iff.mp returned
    obtain ⟨more, last, others, returned⟩ := returns_bind_iff.mp returned
    obtain ⟨rfl, rfl⟩ := returns_pure_iff.mp returned
    exact ⟨first, middle, more, stepped, others, rfl⟩
  · rintro ⟨first, middle, more, stepped, others, rfl⟩
    exact returns_bind_iff.mpr ⟨first, middle, stepped,
      returns_bind_iff.mpr ⟨more, after, others, returns_pure_iff.mpr ⟨rfl, rfl⟩⟩⟩

/-- What each step keeps is kept by all steps in turn. The condition may speak of the items done so
far. -/
theorem inTurn_returns {α : Type} {step : α → Run Changes} {motive : List α → Disk → Prop}
    {items : List α} {world after : World} {changes : Changes}
    (returned : Returns (inTurn step items) world changes after) (quiet : changes.diagnostics = [])
    (each : ∀ done item left, items = done ++ item :: left → ∀ before result next,
      Returns (step item) before result next → result.diagnostics = [] →
        motive done before.disk → motive (done ++ [item]) next.disk)
    (start : motive [] world.disk) : motive items after.disk := by
  suffices general : ∀ (left done : List α) (world : World) (changes : Changes),
      items = done ++ left → Returns (inTurn step left) world changes after →
      changes.diagnostics = [] → motive done world.disk → motive items after.disk from
    general items [] world changes rfl returned quiet start
  intro left
  induction left with
  | nil =>
    intro done world changes whole returned _ here
    rw [inTurn, returns_pure_iff] at returned
    rw [whole, List.append_nil, returned.2]
    exact here
  | cons item left inductionHypothesis =>
    intro done world changes whole returned quiet here
    obtain ⟨first, middle, more, stepped, others, rfl⟩ := returns_inTurn_cons_iff.mp returned
    rw [diagnostics_append, List.append_eq_nil_iff] at quiet
    refine inductionHypothesis (done ++ [item]) middle more ?_ others quiet.2 ?_
    · rw [whole, List.append_assoc, List.singleton_append]
    · exact each done item left whole world first middle stepped quiet.1 here

/-! ### Deleting -/

/-- A step that deletes a page has removed its file, has not found it, or reports why it is still
there. -/
theorem deleteStale_cases {folder : Path} {path : Text} {world after : World} {changes : Changes}
    (returned : Returns (deleteStale folder path) world changes after) :
    (world.disk.removeFile (folder.child path) = .ok after.disk ∧ changes = { deleted := [path] }) ∨
      ((∃ text, world.disk.removeFile (folder.child path) = .error (.disk ⟨.notFound, text⟩)) ∧
        after.disk = world.disk ∧ changes = {}) ∨
      ∃ fault : DiskFault, fault.cause ≠ .notFound ∧
        world.disk.removeFile (folder.child path) = .error (.disk fault) ∧
        changes = { diagnostics := [.warning (folder.child path).text 0
          ("Failed to delete stale file: ".toList ++ fault.message)] } := by
  obtain ⟨result, middle, refused, rest⟩ := returns_bind_iff.mp returned
  cases result with
  | ok done =>
    obtain ⟨disk, removed, rfl⟩ := returns_change_iff.mp (returns_orRefused_ok_iff.mp refused)
    obtain ⟨rfl, rfl⟩ := returns_pure_iff.mp rest
    exact Or.inl ⟨removed, rfl⟩
  | error fault =>
    obtain ⟨missing, rfl⟩ :=
      Run.outcome_change_eq_error (returns_orRefused_error_iff.mp refused)
    obtain ⟨cause, text⟩ := fault
    refine Or.inr ?_
    cases cause with
    | notFound =>
      obtain ⟨rfl, rfl⟩ := returns_pure_iff.mp rest
      exact Or.inl ⟨⟨text, missing⟩, rfl, rfl⟩
    | alreadyExists | notDirectory | isDirectory | notEmpty | nameTooLong | tooManyLinks =>
      obtain ⟨_, logged, _, reported⟩ := returns_bind_iff.mp rest
      obtain ⟨rfl, -⟩ := returns_pure_iff.mp reported
      exact Or.inr ⟨_, DiskCause.noConfusion, missing, rfl⟩

theorem deleteStale_returns {folder : Path} {path : Text} {world after : World} {changes : Changes}
    (returned : Returns (deleteStale folder path) world changes after)
    (quiet : changes.diagnostics = []) :
    world.disk.removeFile (folder.child path) = .ok after.disk ∨
      (∃ text, world.disk.removeFile (folder.child path) = .error (.disk ⟨.notFound, text⟩)) ∧
        after.disk = world.disk := by
  rcases deleteStale_cases returned with ⟨removed, -⟩ | ⟨missing, same, -⟩ | ⟨_, _, _, rfl⟩
  · exact Or.inl removed
  · exact Or.inr ⟨missing, same⟩
  · exact nomatch quiet

/-- Deleting a page whose path leads to it clears its place. -/
theorem files_deleteStale {folder : Path} {path : Text} (canonical : Path.IsCanonical path)
    {world after : World} {changes : Changes} (plain : world.disk.root.IsPlain)
    (returned : Returns (deleteStale folder path) world changes after)
    (quiet : changes.diagnostics = [])
    (reach : (world.disk.files (world.disk.placeOf folder ++ Text.pieces '/' path)).isSome →
      (folder.child path).IsUsable ∧
        ∀ place ∈ world.disk.placesPassed folder, world.disk.root.HasFolderAt place) :
    Disk.Keeps Disk.anywhere world.disk after.disk ∧
      after.disk.files = Function.update world.disk.files
        (world.disk.placeOf folder ++ Text.pieces '/' path) none := by
  have place := world.disk.placeOf_child folder canonical
  rcases deleteStale_returns returned quiet with removed | ⟨⟨text, missing⟩, unchanged⟩
  · rw [← place]
    exact Disk.removeFile_eq_ok plain (world.disk.placeOf_child_ne_nil folder canonical) removed
  · rw [unchanged]
    refine ⟨.refl plain _, ?_⟩
    suffices absent : world.disk.files (world.disk.placeOf folder ++ Text.pieces '/' path) = none by
      rw [← absent, Function.update_eq_self]
    cases present : world.disk.files (world.disk.placeOf folder ++ Text.pieces '/' path) with
    | none => rfl
    | some bytes =>
      rw [present] at reach
      obtain ⟨usable, way⟩ := reach rfl
      rw [← place] at present
      have through : ∀ above ∈ world.disk.placesPassed (folder.child path),
          world.disk.root.HasFolderAt above := by
        intro above member
        rw [world.disk.placesPassed_child folder canonical, List.mem_append] at member
        rcases member with early | late
        · exact way above early
        · obtain ⟨rest, proper, same⟩ := Disk.passed_of_ordinary canonical.dots_notMem late
          refine Entry.hasFolderAt_of_strictPrefix (Entry.fileAt?_eq_some_iff.mp present) ?_ ?_
          · rw [place, ← same]
            exact List.prefix_append above rest
          · rw [place, ← same]
            exact fun equal => proper (List.self_eq_append_right.mp equal)
      exact nomatch present.symm.trans
        (Disk.fileAt?_of_removeFile_notFound plain usable through missing)

/-! ### Writing -/

theorem holdsText_returns {target : Path} {text : Text} {world after : World} {held : Bool}
    (returned : Returns (holdsText target text) world held after) :
    after = world ∧ (held = true → world.disk.readText target = .ok text) := by
  obtain ⟨present, middle, asked, rest⟩ := returns_bind_iff.mp returned
  obtain ⟨-, rfl⟩ := returns_look_iff.mp asked
  cases present with
  | false =>
    obtain ⟨rfl, rfl⟩ := returns_pure_iff.mp rest
    exact ⟨rfl, fun wrong => nomatch wrong⟩
  | true =>
    obtain ⟨found, last, read, compared⟩ := returns_bind_iff.mp rest
    obtain ⟨read, rfl⟩ := returns_look_iff.mp read
    obtain ⟨rfl, rfl⟩ := returns_pure_iff.mp compared
    refine ⟨rfl, fun equal => ?_⟩
    rw [read, eq_of_beq equal]

/-- A step that writes a page has written its text, has found it, or reports why it is not there. -/
theorem writePage_cases {folder : Path} {path text : Text} {world after : World}
    {changes : Changes} (returned : Returns (writePage folder path text) world changes after) :
    (changes = { written := [normalize path] } ∧
        ∃ above middle, world.disk.ensureFolders above (folder.child (normalize path)).parent =
            (.ok (), middle) ∧
          middle.writeText (folder.child (normalize path)) text = .ok after.disk) ∨
      (changes = { unchanged := [normalize path] } ∧
        world.disk.readText (folder.child (normalize path)) = .ok text ∧ after.disk = world.disk) ∨
      ∃ fault : DiskFault, changes = { diagnostics := [.error (folder.child (normalize path)).text 0
        ("Failed to write output: ".toList ++ fault.message)] } := by
  obtain ⟨result, middle, refused, rest⟩ := returns_bind_iff.mp returned
  cases result with
  | error fault =>
    obtain ⟨_, logged, _, reported⟩ := returns_bind_iff.mp rest
    obtain ⟨rfl, -⟩ := returns_pure_iff.mp reported
    exact Or.inr (Or.inr ⟨fault, rfl⟩)
  | ok wrote =>
    obtain ⟨held, between, looked, put⟩ :=
      returns_bind_iff.mp (returns_orRefused_ok_iff.mp refused)
    obtain ⟨unchanged, meaning⟩ := holdsText_returns looked
    rw [unchanged] at put
    cases held with
    | true =>
      obtain ⟨rfl, rfl⟩ := returns_pure_iff.mp put
      obtain ⟨rfl, rfl⟩ := returns_pure_iff.mp rest
      exact Or.inr (Or.inl ⟨rfl, meaning rfl, rfl⟩)
    | false =>
      obtain ⟨_, last, written, finished⟩ := returns_bind_iff.mp put
      obtain ⟨rfl, rfl⟩ := returns_pure_iff.mp finished
      obtain ⟨rfl, rfl⟩ := returns_pure_iff.mp rest
      obtain ⟨_, opened, made, changed⟩ := returns_bind_iff.mp written
      obtain ⟨upper, ensured, rfl⟩ := returns_ensureFolders_iff.mp made
      obtain ⟨disk, stored, rfl⟩ := returns_change_iff.mp changed
      exact Or.inl ⟨rfl, _, upper, ensured, stored⟩

theorem writePage_returns {folder : Path} {path text : Text} {world after : World}
    {changes : Changes} (returned : Returns (writePage folder path text) world changes after)
    (quiet : changes.diagnostics = []) :
    (world.disk.readText (folder.child (normalize path)) = .ok text ∧ after.disk = world.disk) ∨
      ∃ above middle, world.disk.ensureFolders above (folder.child (normalize path)).parent =
          (.ok (), middle) ∧
        middle.writeText (folder.child (normalize path)) text = .ok after.disk := by
  rcases writePage_cases returned with ⟨-, written⟩ | ⟨-, held⟩ | ⟨_, rfl⟩
  · exact Or.inr written
  · exact Or.inl held
  · exact nomatch quiet

theorem normalize_of_isCanonical {path : Text} (canonical : Path.IsCanonical path) :
    normalize path = path := by
  have kept : path.map (fun c => if c = '\\' then '/' else c) = path := by
    refine (List.map_congr_left fun c member => ?_).trans (List.map_id _)
    have other : c ≠ '\\' := by
      rintro rfl
      exact canonical.slashed member
    exact if_neg other
  obtain ⟨c, rest, same, plain⟩ := canonical.exists_cons
  rw [normalize, kept, same, List.dropWhile_cons_of_neg (by simpa using plain)]

/-- Writing a file with the folders above it sets the files at its place. -/
theorem files_writeText {disk middle after : Disk} (plain : disk.root.IsPlain) {target : Path}
    (clear : disk.root.IsClear (disk.startOf target)) {above : Nat} {text : Text}
    (ensured : disk.ensureFolders above target.parent = (.ok (), middle))
    (written : middle.writeText target text = .ok after) :
    Disk.Keeps Disk.anywhere disk after ∧ after.HasFollowed target ∧
      after.files = Function.update disk.files (disk.placeOf target) (some (Text.utf8 text)) := by
  obtain ⟨made, same⟩ := Disk.ensureFolders_eq_ok plain ensured
  have still : middle.root.IsClear (middle.startOf target) := by
    rw [made.startOf]
    exact (Disk.isClear_iff_of_files plain made.plain same).mpr clear
  obtain ⟨kept, followed, changed⟩ := Disk.writeBytes_eq_ok made.plain still written
  exact ⟨made.trans kept, followed.of_keeps kept, by rw [changed, same, made.placeOf]⟩

/-- Writing a page sets the files at its place, given that a file already there has no carriage
return. -/
theorem files_writePage {folder : Path} {path text : Text} (canonical : Path.IsCanonical path)
    {world after : World} {changes : Changes} (plain : world.disk.root.IsPlain)
    (clear : world.disk.root.IsClear (world.disk.startOf folder))
    (returned : Returns (writePage folder path text) world changes after)
    (quiet : changes.diagnostics = [])
    (unbroken : ∀ bytes, world.disk.files (world.disk.placeOf folder ++ Text.pieces '/' path) =
      some bytes → ∃ old, bytes = Text.utf8 old ∧ '\r' ∉ old) :
    Disk.Keeps Disk.anywhere world.disk after.disk ∧
      after.disk.HasFollowed (folder.child path) ∧
      after.disk.files = Function.update world.disk.files
        (world.disk.placeOf folder ++ Text.pieces '/' path) (some (Text.utf8 text)) := by
  have place := world.disk.placeOf_child folder canonical
  have outcome := writePage_returns returned quiet
  rw [normalize_of_isCanonical canonical] at outcome
  rcases outcome with ⟨read, unchanged⟩ | ⟨above, middle, ensured, written⟩
  · obtain ⟨followed, bytes, raw, found, decoded, same⟩ := Disk.readText_eq_ok plain read
    rw [place] at found
    obtain ⟨old, rfl, whole⟩ := unbroken bytes found
    have text_eq : text = old := by
      rw [same, ← Option.some.inj ((Text.ofUtf8?_utf8 old).symm.trans decoded),
        Text.plainNewlines_of_notMem whole]
    rw [unchanged, text_eq, ← found, Function.update_eq_self]
    exact ⟨.refl plain _, followed, rfl⟩
  · rw [← place]
    refine files_writeText plain ?_ ensured written
    rw [world.disk.startOf_child folder canonical]
    exact clear

/-! ### Changes along a run -/

section

variable {along : Disk → Disk → Prop} [IsPreorder Disk along] {folder file : Path} {given : Pages}
  {store : Store} {world : World}

theorem moves_deleteStale {path : Text} (removes : ∀ disk after,
      disk.removeFile (folder.child path) = .ok after → along disk after) :
    Run.Moves along (deleteStale folder path) world := by
  refine (Run.moves_change (removes world.disk)).orRefused.bind fun result later _ => ?_
  split
  · exact Run.moves_pure _
  · exact Run.moves_pure _
  · exact (Run.moves_log _ _ _).bind fun _ _ _ => Run.moves_pure _

theorem moves_writePage {path text : Text}
    (ensures : ∀ disk above, along disk
      (disk.ensureFolders above (folder.child (normalize path)).parent).2)
    (writes : ∀ disk after, disk.writeText (folder.child (normalize path)) text = .ok after →
      along disk after) :
    Run.Moves along (writePage folder path text) world := by
  refine Run.Moves.bind (Run.Moves.orRefused (Run.Moves.bind ((Run.moves_look _).bind
    fun present later _ => ?_) fun held later _ => ?_)) fun result later _ => ?_
  · split
    · exact (Run.moves_look _).bind fun _ _ _ => Run.moves_pure _
    · exact Run.moves_pure _
  · split
    · exact Run.moves_pure _
    · exact (Run.moves_writeText (ensures later.disk) writes).bind fun _ _ _ => Run.moves_pure _
  · split
    · exact Run.moves_pure _
    · exact Run.moves_pure _
    · exact (Run.moves_log _ _ _).bind fun _ _ _ => Run.moves_pure _

theorem moves_inTurn {α : Type} {step : α → Run Changes} {items : List α}
    (each : ∀ item ∈ items, ∀ world : World, Run.Moves along (step item) world) :
    Run.Moves along (inTurn step items) world := by
  induction items generalizing world with
  | nil => exact Run.moves_pure _
  | cons item rest inductionHypothesis =>
    obtain ⟨first, others⟩ := List.forall_mem_cons.mp each
    exact (first world).bind fun _ _ _ => (inductionHypothesis others).bind fun _ _ _ =>
      Run.moves_pure _

theorem moves_pruneFolder
    (prunes : ∀ disk gone after, disk.prune folder = .ok (gone, after) → along disk after) :
    Run.Moves along (pruneFolder folder) world := by
  refine (Run.moves_look _).bind fun result later looked => ?_
  obtain ⟨pruned, rfl⟩ := returns_look_iff.mp looked
  exact prunes later.disk _ _ pruned

/-- Whether a relation holds across all that a run does to a disk for its pages, given the paths of
the last run that may be dropped. -/
structure Permits (along : Disk → Disk → Prop) (given : Pages) (dropped : Text → Prop) : Prop where
  removes : ∀ path, dropped path → ∀ disk after,
    disk.removeFile (given.folder.child path) = .ok after → along disk after
  ensures : ∀ page ∈ given.texts, ∀ disk above, along disk
    (disk.ensureFolders above (given.folder.child (normalize page.1)).parent).2
  writes : ∀ page ∈ given.texts, ∀ disk after,
    disk.writeText (given.folder.child (normalize page.1)) page.2 = .ok after → along disk after
  prunes : ∀ disk gone after, disk.prune given.folder = .ok (gone, after) → along disk after

theorem mem_of_mem_stale {manifest : Manifest} {path : Text}
    (member : path ∈ stale manifest given) :
    path ∈ manifest.outputsFor given.lang := by
  rw [stale] at member
  split at member
  · exact (List.mem_filter.mp member).1
  · cases member

theorem moves_apply {dropped : Text → Prop} (permits : Permits along given dropped)
    (listed : ∀ path ∈ store.manifest.outputsFor given.lang, dropped path) :
    Run.Moves along (store.apply given) world := by
  have order := Text.sortOn_perm (fun page : Text × Text => page.1) given.texts
  refine (moves_inTurn fun path member _ => moves_deleteStale ?_).bind fun _ second _ =>
    (moves_inTurn fun page member _ => moves_writePage ?_ ?_).bind fun _ third _ =>
    (moves_pruneFolder permits.prunes).bind fun _ fourth _ => Run.Moves.bind ?_ fun _ _ _ =>
      Run.moves_pure _
  · exact permits.removes path (listed path (mem_of_mem_stale member))
  · exact permits.ensures page (order.mem_iff.mp member)
  · exact permits.writes page (order.mem_iff.mp member)
  · unfold Store.record
    split
    · exact Run.moves_pure _
    · exact Run.Moves.bind (Run.moves_of_same rfl) fun _ _ _ => Run.moves_pure _

theorem moves_save (path : store.path = some file)
    (ensures : ∀ disk above, along disk (disk.ensureFolders above file.parent).2)
    (writes : ∀ disk after, disk.writeText file store.manifest.write = .ok after →
      along disk after) :
    Run.Moves along store.save world := by
  rw [Store.save, path]
  dsimp only
  split
  · exact (Run.moves_writeText (ensures world.disk) writes).bind fun _ _ _ => Run.moves_pure _
  · exact Run.moves_pure _

theorem moves_load : Run.Moves along (Store.load (some file)) world := by
  unfold Store.load
  refine Run.Moves.bind (Run.moves_of_same rfl) fun now later _ => ?_
  split
  · split
    · exact Run.moves_pure _
    · exact (Run.moves_log _ _ _).bind fun _ _ _ => Run.moves_pure _
    · exact Run.moves_throw _
  · exact Run.moves_pure _
  · exact (Run.moves_log _ _ _).bind fun _ _ _ => Run.moves_pure _
  · exact Run.moves_throw _

end

/-! ### The clock -/

theorem isTimeless_deleteStale (folder : Path) (path : Text) :
    Run.IsTimeless (deleteStale folder path) := by
  refine (Run.isTimeless_change _).orRefused.bind fun result => ?_
  split
  · exact Run.isTimeless_pure _
  · exact Run.isTimeless_pure _
  · exact (Run.isTimeless_log _ _ _).bind fun _ => Run.isTimeless_pure _

theorem isTimeless_writePage (folder : Path) (path text : Text) :
    Run.IsTimeless (writePage folder path text) := by
  refine Run.IsTimeless.bind (Run.IsTimeless.orRefused (Run.IsTimeless.bind
    ((Run.isTimeless_look _).bind fun present => ?_) fun held => ?_)) fun result => ?_
  · split
    · exact (Run.isTimeless_look _).bind fun _ => Run.isTimeless_pure _
    · exact Run.isTimeless_pure _
  · split
    · exact Run.isTimeless_pure _
    · exact (Run.isTimeless_writeText _ _).bind fun _ => Run.isTimeless_pure _
  · split
    · exact Run.isTimeless_pure _
    · exact Run.isTimeless_pure _
    · exact (Run.isTimeless_log _ _ _).bind fun _ => Run.isTimeless_pure _

theorem isTimeless_inTurn {α : Type} {step : α → Run Changes}
    (each : ∀ item, Run.IsTimeless (step item))
    {items : List α} : Run.IsTimeless (inTurn step items) := by
  induction items with
  | nil => exact Run.isTimeless_pure _
  | cons item rest inductionHypothesis =>
    exact (each item).bind fun _ => inductionHypothesis.bind fun _ => Run.isTimeless_pure _

theorem isTimeless_pruneFolder (folder : Path) : Run.IsTimeless (pruneFolder folder) :=
  (Run.isTimeless_look _).bind fun _ _ => ⟨rfl, rfl⟩

theorem isTimeless_load (file : Option Path) : Run.IsTimeless (Store.load file) := by
  have ignored (level : Log.Level) (text : Text) : Run.IsTimeless (do
      Run.log level "stores.manifest" text
      pure ({ path := file } : Store)) :=
    (Run.isTimeless_log _ _ _).bind fun _ => Run.isTimeless_pure _
  unfold Store.load
  split
  · exact Run.isTimeless_pure _
  · refine Run.isTimeless_get.bind fun world => ?_
    split
    · split
      · exact Run.isTimeless_pure _
      · exact ignored _ _
      · exact Run.isTimeless_throw _
    · exact Run.isTimeless_pure _
    · exact ignored _ _
    · exact Run.isTimeless_throw _

end Manifest

end LuauReference
