/-
This file proves which files a run deletes: those under paths of earlier runs of the same language,
and no others. The manifest is all that a run knows of the runs before, so what it lists is followed
through any number of runs, with others at work on the disk in between.

A run takes down all of its pages, also those that it could not write. So what is known of a path
that is deleted is that an earlier run wrote it, found it, or reported an error for it. In the last
case the file need not be one that the program made, as the history at the end shows.
-/

import LuauReference.Proofs.Manifest.Account
import LuauReference.Proofs.Manifest.Confinement

namespace LuauReference

open Run (Returns Finishes worldAfter returns_pure_iff returns_bind_iff)

namespace Manifest

open Disk (OnlyAlters)

/-! ### Runs that do not come to an end -/

section

variable {origin : Disk} {allowed : Place → Option (List UInt8) → Prop} {file : Path}
  {admitted : Text → Text → Prop} {given : Pages} {store : Store} {world : World}

theorem alters_save_of_not_finishes (stuck : ¬ Finishes store.save world) :
    Run.Moves (OnlyAlters origin allowed) store.save world := by
  have settled (value : Store) (later : World) : Finishes (pure value) later :=
    Run.finishes_pure _ _
  unfold Store.save at stuck ⊢
  cases path : store.path with
  | none =>
    rw [path] at stuck
    exact absurd (settled _ _) stuck
  | some file =>
    rw [path] at stuck
    dsimp only at stuck ⊢
    split at stuck
    · next unsaved =>
      rw [if_pos unsaved]
      exact .bind_of_not_finishes stuck
        (Run.moves_writeText_of_not_finishes fun _ => Disk.alters_ensureFolders _ _ _)
        fun _ _ _ stuck => absurd (settled _ _) stuck
    · exact absurd (settled _ _) stuck

/-- A run that does not come to an end does not change the manifest, unless its pages do. -/
theorem alters_session_of_not_finishes (plain : world.disk.root.IsPlain)
    (start : world.disk.start = origin.start)
    (kept : KeepsListed origin file admitted world.disk)
    (pages : PagesMayChange origin given admitted allowed)
    (stuck : ¬ Finishes (session file given) world) :
    Run.Moves (OnlyAlters origin allowed) (session file given) world := by
  refine .bind_of_not_finishes stuck (fun _ => moves_load) fun store loaded loading stuck => ?_
  obtain ⟨unchanged, -, lists⟩ := lists_load plain start kept loading
  rw [← unchanged]
  show Run.Moves (OnlyAlters origin allowed) _ loaded
  have applied : Run.Moves (OnlyAlters origin allowed) (store.apply given) loaded :=
    alters_apply lists pages
  refine Run.Moves.bind_of_not_finishes stuck (fun stuck => ?_)
    fun _ _ _ stuck => absurd (Run.finishes_pure _ _) stuck
  refine .bind_of_not_finishes stuck (fun _ => applied) fun noted later applying stuck => ?_
  rw [Run.Moves, applying.worldAfter_eq] at applied
  exact applied.trans (Run.Moves.bind_of_not_finishes stuck alters_save_of_not_finishes
    fun _ _ _ stuck => absurd ⟨_, _, rfl⟩ stuck)

end

/-! ### What a run deletes and reports -/

section

variable {given : Pages} {file folder : Path} {world later : World} {changes : Changes}

theorem deleted_subset {paths : List Text}
    (returned : Returns (inTurn (deleteStale folder) paths) world changes later) :
    changes.deleted ⊆ paths := by
  induction paths generalizing world changes with
  | nil =>
    obtain ⟨rfl, -⟩ := returns_pure_iff.mp returned
    exact List.nil_subset _
  | cons path rest inductionHypothesis =>
    obtain ⟨first, middle, more, stepped, others, rfl⟩ := returns_inTurn_cons_iff.mp returned
    have own : first.deleted ⊆ [path] := by
      rcases deleteStale_cases stepped with ⟨-, rfl⟩ | ⟨-, -, rfl⟩ | ⟨fault, -, -, rfl⟩
      · exact List.Subset.refl _
      · exact List.nil_subset _
      · exact List.nil_subset _
    exact List.append_subset.mpr
      ⟨List.Subset.trans own (List.cons_subset_cons path (List.nil_subset rest)),
        List.subset_cons_of_subset path (inductionHypothesis others)⟩

theorem deleted_writing {texts : Named Text}
    (returned : Returns (inTurn (fun (path, text) => writePage folder path text) texts)
      world changes
      later) : changes.deleted = [] := by
  induction texts generalizing world changes with
  | nil =>
    obtain ⟨rfl, -⟩ := returns_pure_iff.mp returned
    rfl
  | cons page rest inductionHypothesis =>
    obtain ⟨first, middle, more, stepped, others, rfl⟩ := returns_inTurn_cons_iff.mp returned
    have later := inductionHypothesis others
    rcases writePage_cases stepped with ⟨rfl, -⟩ | ⟨rfl, -⟩ | ⟨fault, rfl⟩ <;> exact later

/-- What is reported of a path: it was written, it was found, or there was an error for its file. -/
def Mentions (changes : Changes) (folder : Path) (path : Text) : Prop :=
  path ∈ changes.written ∨ path ∈ changes.unchanged ∨
    ∃ diagnostic ∈ changes.diagnostics, diagnostic.isError = true ∧
      diagnostic.file = (folder.child path).text

/-- A run deletes what the manifest lists for its language, and mentions each of its pages. -/
theorem session_cases (returned : Returns (session file given) world changes later) :
    (∃ store loaded, Returns (Store.load (some file)) world store loaded ∧
      ∀ path ∈ changes.deleted, path ∈ store.manifest.outputsFor given.lang) ∧
    ∀ path ∈ given.paths, Mentions changes given.folder path := by
  obtain ⟨store, loaded, loading, returned⟩ := returns_bind_iff.mp returned
  obtain ⟨⟨result, saved⟩, last, reconciling, returned⟩ := returns_bind_iff.mp returned
  obtain ⟨rfl, -⟩ := returns_pure_iff.mp returned
  obtain ⟨removals, additions, _, _, _, _, _, deletes, writes, rfl, -⟩ :=
    reconcile_cases reconciling
  refine ⟨⟨store, loaded, loading, fun path gone => ?_⟩, fun path listed => ?_⟩
  · rcases List.mem_append.mp gone with early | late
    · exact mem_of_mem_stale (deleted_subset deletes early)
    · rw [deleted_writing writes] at late
      cases late
  · obtain ⟨failed, accounted, reported⟩ := inTurn_writePage_accounts writes
    have order := (Text.sortOn_perm (fun page : Text × Text => page.1) given.texts).map
      fun page => normalize page.1
    have named := (Text.sortOn_perm id _).mem_iff.mp listed
    rcases List.mem_append.mp ((accounted.trans order).mem_iff.mpr named) with there | failing
    · rcases List.mem_append.mp there with written | unchanged
      · exact Or.inl (List.mem_append_right _ written)
      · exact Or.inr (Or.inl (List.mem_append_right _ unchanged))
    · have known : (true, (given.folder.child path).text) ∈ additions.diagnostics.map
          (fun diagnostic => (diagnostic.isError, diagnostic.file)) := by
        rw [reported]
        exact List.mem_map_of_mem failing
      obtain ⟨diagnostic, member, same⟩ := List.mem_map.mp known
      obtain ⟨isError, sameFile⟩ := Prod.mk.inj same
      exact Or.inr (Or.inr ⟨diagnostic, List.mem_append_right _ member, isError, sameFile⟩)

end

/-! ### Runs with others at work between them -/

/-- What a run reports, if it comes to an end. -/
def reported (file : Path) (given : Pages) (world : World) : Option Changes :=
  (Run.outcome (session file given) world).1.toOption

theorem reported_eq_some_iff {file : Path} {given : Pages} {world : World} {changes : Changes} :
    reported file given world = some changes ↔
      ∃ later, Returns (session file given) world changes later := by
  unfold reported Returns
  rcases Run.outcome (session file given) world with ⟨failure | value, later⟩
  · simp [Except.toOption]
  · simp [Except.toOption]

/-- Runs one after the other with what each of them reports, whatever becomes of them. Between two
runs others may change everything on the disk but the manifest, as long as they make no links. -/
inductive Chronicle (file : Path) (origin : Disk) : List (Pages × Option Changes) → Disk → Prop
  | start : Chronicle file origin [] origin
  | others {runs : List (Pages × Option Changes)} {before after : Disk}
      (earlier : Chronicle file origin runs before) (plain : after.root.IsPlain)
      (start : after.start = before.start)
      (manifest : after.files (before.placeOf file) = before.files (before.placeOf file)) :
      Chronicle file origin runs after
  | run {runs : List (Pages × Option Changes)} (world : World) (given : Pages)
      (earlier : Chronicle file origin runs world.disk) :
      Chronicle file origin (runs ++ [(given, reported file given world)])
        (worldAfter (session file given) world).disk

/-- Whether one of some runs, of the given language, reported on a path. -/
def WasMentioned (runs : List (Pages × Option Changes)) (lang path : Text) : Prop :=
  ∃ given changes, (given, some changes) ∈ runs ∧ given.lang = lang ∧
    Mentions changes given.folder path

/-- Whether none of the given pages belongs in the place of the manifest. -/
def IsApart (origin : Disk) (file : Path) (given : Pages) : Prop :=
  ∀ page ∈ given.texts,
    origin.placeOf (given.folder.child (normalize page.1)) ≠ origin.placeOf file

/-- What a disk is like after some runs: plain, with the same beginning of all paths, and with a
manifest that lists only what these runs reported on. -/
structure IsAccountedFor (origin : Disk) (file : Path) (runs : List (Pages × Option Changes))
    (disk : Disk) : Prop where
  plain : disk.root.IsPlain
  start : disk.start = origin.start
  listed : KeepsListed origin file (WasMentioned runs) disk

section

variable {origin disk : Disk} {file : Path} {runs : List (Pages × Option Changes)}

theorem WasMentioned.append {lang path : Text} (mentioned : WasMentioned runs lang path)
    (more : List (Pages × Option Changes)) : WasMentioned (runs ++ more) lang path := by
  obtain ⟨given, changes, member, rest⟩ := mentioned
  exact ⟨given, changes, List.mem_append_left _ member, rest⟩

/-- A run leaves a manifest that lists what the runs up to it reported on. -/
theorem IsAccountedFor.run {world : World} (accounted : IsAccountedFor origin file runs world.disk)
    {given : Pages} (apart : IsApart origin file given) :
    IsAccountedFor origin file (runs ++ [(given, reported file given world)])
      (worldAfter (session file given) world).disk := by
  obtain ⟨plain, start, listed⟩ := accounted
  -- In the place of the manifest there are no pages, so only saving can put something new there.
  let mayBecome (place : Place) (content : Option (List UInt8)) : Prop :=
    place = origin.placeOf file → ∀ bytes, content = some bytes →
      ∃ manifest : Manifest,
        manifest.Lists (WasMentioned (runs ++ [(given, reported file given world)])) ∧
          bytes = Text.utf8 manifest.write
  have pages : PagesMayChange origin given (WasMentioned runs) mayBecome :=
    ⟨fun path _ _ bytes gone => (nomatch gone),
      fun page member here => absurd here (apart page member)⟩
  have alters : OnlyAlters origin mayBecome world.disk
      (worldAfter (session file given) world).disk := by
    cases outcome : reported file given world with
    | none =>
      refine alters_session_of_not_finishes plain start listed pages ?_
      rintro ⟨changes, later, returned⟩
      exact nomatch outcome.symm.trans (reported_eq_some_iff.mpr ⟨later, returned⟩)
    | some changes =>
      refine alters_session plain start listed pages fun manifest lists _ bytes same => ?_
      refine ⟨manifest, lists.imp fun lang path admitted => ?_, (Option.some.inj same).symm⟩
      obtain ⟨later, returned⟩ := reported_eq_some_iff.mp outcome
      rcases admitted with before | ⟨own, member⟩
      · exact before.append _
      · exact ⟨given, changes, List.mem_append_right _ (outcome ▸ List.mem_singleton_self _),
          own.symm, (session_cases returned).2 path member⟩
  obtain ⟨plain, start, files⟩ := alters plain start
  refine ⟨plain, start, fun bytes present => ?_⟩
  rcases files (origin.placeOf file) with same | changed
  · obtain ⟨manifest, lists, written⟩ := listed bytes (same.symm.trans present)
    exact ⟨manifest, lists.imp fun _ _ mentioned => mentioned.append _, written⟩
  · exact changed rfl bytes present

theorem Chronicle.isAccountedFor (chronicle : Chronicle file origin runs disk)
    (plain : origin.root.IsPlain) (absent : origin.files (origin.placeOf file) = none)
    (apart : ∀ run ∈ runs, IsApart origin file run.1) : IsAccountedFor origin file runs disk := by
  induction chronicle with
  | start => exact ⟨plain, rfl, fun bytes present => nomatch absent.symm.trans present⟩
  | others earlier plain start manifest inductionHypothesis =>
    have before := inductionHypothesis apart
    refine ⟨plain, start.trans before.start, fun bytes present => before.listed bytes ?_⟩
    rw [Disk.placeOf_of_start before.start] at manifest
    exact manifest.symm.trans present
  | run world given earlier inductionHypothesis =>
    obtain ⟨before, own⟩ := List.forall_mem_append.mp apart
    exact (inductionHypothesis before).run (own _ List.mem_cons_self)

end

/-- A run deletes only what an earlier run of its language wrote, found or failed to write: whatever
became of the runs before, which began without a manifest, and whatever others did between them,
each path that is deleted was mentioned by an earlier run of the same language. -/
theorem deleted_were_mentioned {origin : Disk} {file : Path} {runs : List (Pages × Option Changes)}
    {world later : World} {given : Pages} {changes : Changes} (plain : origin.root.IsPlain)
    (absent : origin.files (origin.placeOf file) = none)
    (chronicle : Chronicle file origin runs world.disk)
    (apart : ∀ run ∈ runs, IsApart origin file run.1)
    (returned : Returns (session file given) world changes later) :
    ∀ path ∈ changes.deleted, WasMentioned runs given.lang path := by
  intro path gone
  have accounted := chronicle.isAccountedFor plain absent apart
  obtain ⟨⟨store, loaded, loading, listed⟩, -⟩ := session_cases returned
  obtain ⟨-, -, lists⟩ := lists_load accounted.plain accounted.start accounted.listed loading
  exact lists.admits given.lang path (listed path gone)

/-! ### Two chronicles of two runs -/

section Samples

/-- The disk with only the given entries in the folder of pages. -/
def samplePagesOnly (entries : List (Text × Entry)) : World :=
  sampleWorld [("out".toList, .folder entries)]

theorem isPlain_samplePagesOnly {entries : List (Text × Entry)}
    (distinct : (Named.names entries).Nodup) (plain : ∀ item ∈ entries, item.2.IsPlain) :
    (samplePagesOnly entries).disk.root.IsPlain :=
  .folder (List.nodup_singleton _) (List.forall_mem_singleton.mpr (.folder distinct plain))

theorem isPlain_sampleLater {entries : List (Text × Entry)}
    (distinct : (Named.names entries).Nodup) (plain : ∀ item ∈ entries, item.2.IsPlain)
    (bytes : List UInt8) : (sampleLater (.folder entries) bytes).disk.root.IsPlain := by
  refine .folder ?_ ?_
  · show (["out".toList, "m".toList] : List Text).Nodup
    decide
  · exact List.forall_mem_cons.mpr
      ⟨.folder distinct plain, List.forall_mem_singleton.mpr (.file bytes)⟩

theorem isApart_samplePage (entries : List (Text × Entry)) :
    IsApart (samplePagesOnly entries).disk sampleFile (samplePage sampleFolder "a".toList) := by
  have elsewhere : (["out".toList, "a".toList] : Place) ≠ ["m".toList] := by decide
  exact List.forall_mem_singleton.mpr elsewhere

/-- A run with the page `a`, after which others may change the folder of pages. -/
theorem chronicle_samplePage {entries : List (Text × Entry)} (now : List (Text × Entry))
    {additions : Changes} {later : World} {out : Entry} {bytes : List UInt8}
    (returned : Returns (session sampleFile (samplePage sampleFolder "a".toList))
      (samplePagesOnly entries) additions later) (left : later.disk = (sampleLater out bytes).disk)
    (distinct : (Named.names now).Nodup) (plain : ∀ item ∈ now, item.2.IsPlain) :
    Chronicle sampleFile (samplePagesOnly entries).disk
      [(samplePage sampleFolder "a".toList, some additions)]
      (sampleLater (.folder now) bytes).disk := by
  have begun : Chronicle sampleFile (samplePagesOnly entries).disk []
      (samplePagesOnly entries).disk :=
    .start
  have first := begun.run (samplePagesOnly entries) (samplePage sampleFolder "a".toList)
  rw [returned.worldAfter_eq, left, reported_eq_some_iff.mpr ⟨later, returned⟩] at first
  exact first.others (isPlain_sampleLater distinct plain bytes) rfl rfl

/-- A run with the page `b` deletes the file `a` of the run before. -/
theorem session_samplePage_deletes (bytes : List UInt8) :
    ∃ changes later, Returns (session sampleFile (samplePage sampleFolder "b".toList))
        (sampleLater (.folder [("a".toList, .file bytes)]) (Text.utf8 sampleManifest.write))
        changes later ∧
      "a".toList ∈ changes.deleted := by
  have deleting (manifest : List UInt8) : Returns (deleteStale sampleFolder "a".toList)
      (sampleLater (.folder [("a".toList, .file bytes)]) manifest) { deleted := ["a".toList] }
      (sampleLater (.folder []) manifest) := rfl
  have writing (manifest : List UInt8) : Returns (writePage sampleFolder "b".toList [])
      (sampleLater (.folder []) manifest) { written := ["b".toList] }
      (sampleLater (.folder [("b".toList, .file [])]) manifest) := returns_writePage rfl rfl rfl
  obtain ⟨later, _, returned, -⟩ := sample_second deleting writing fun _ => rfl
  exact ⟨_, later, returned, List.mem_cons_self⟩

/-- A page that others have changed since it was written is deleted, and the run before wrote it. -/
theorem deleted_were_mentioned_changed :
    ∃ runs world changes later,
      Chronicle sampleFile (samplePagesOnly []).disk runs world.disk ∧
      Returns (session sampleFile (samplePage sampleFolder "b".toList)) world changes later ∧
      "a".toList ∈ changes.deleted ∧ WasMentioned runs [] "a".toList := by
  have writing : Returns (writePage sampleFolder "a".toList []) (samplePagesOnly [])
      { written := ["a".toList] } (samplePagesOnly [("a".toList, .file [])]) :=
    returns_writePage rfl rfl rfl
  obtain ⟨between, began, left⟩ := sample_first rfl writing rfl rfl rfl
  have chronicle := chronicle_samplePage [("a".toList, .file [1])] began left
    (List.nodup_singleton _) (List.forall_mem_singleton.mpr (.file [1]))
  obtain ⟨changes, later, returned, gone⟩ := session_samplePage_deletes [1]
  have plain : (samplePagesOnly []).disk.root.IsPlain :=
    isPlain_samplePagesOnly List.nodup_nil (List.forall_mem_nil _)
  exact ⟨_, _, changes, later, chronicle, returned, gone,
    deleted_were_mentioned plain rfl chronicle
      (List.forall_mem_singleton.mpr (isApart_samplePage [])) returned _ gone⟩

/-- A folder in the place of the page `a`. -/
def blocked : List (Text × Entry) := [("a".toList, .folder [("x".toList, .file [])])]

theorem returns_writePage_blocked : ∃ additions second,
    Returns (writePage sampleFolder "a".toList []) (samplePagesOnly blocked) additions second ∧
      additions.written = [] ∧ additions.unchanged = [] ∧
      second.disk = (samplePagesOnly blocked).disk ∧ second.clock (second.readings + 1) = [] :=
  ⟨_, _, rfl, rfl, rfl, rfl, rfl⟩

/-- Where a folder is in the place of the page `a`, the first run reports an error for it. Others
put a file of their own there, and the second run deletes it, although no run wrote or found it. -/
theorem not_deleted_were_written : ¬ ∀ (origin : Disk) (file : Path)
    (runs : List (Pages × Option Changes)) (world later : World) (given : Pages)
    (changes : Changes),
    origin.root.IsPlain → origin.files (origin.placeOf file) = none →
    Chronicle file origin runs world.disk → (∀ run ∈ runs, IsApart origin file run.1) →
    Returns (session file given) world changes later →
    ∀ path ∈ changes.deleted, ∃ earlier reported, (earlier, some reported) ∈ runs ∧
      earlier.lang = given.lang ∧ (path ∈ reported.written ∨ path ∈ reported.unchanged) := by
  intro claim
  obtain ⟨additions, second, writing, noneWritten, noneUnchanged, disk, timeless⟩ :=
    returns_writePage_blocked
  obtain ⟨between, began, left⟩ := sample_first rfl writing disk timeless rfl
  have chronicle := chronicle_samplePage [("a".toList, .file [1])] began left
    (List.nodup_singleton _) (List.forall_mem_singleton.mpr (.file [1]))
  obtain ⟨changes, later, returned, gone⟩ := session_samplePage_deletes [1]
  have plain : (samplePagesOnly blocked).disk.root.IsPlain :=
    isPlain_samplePagesOnly (List.nodup_singleton _) (List.forall_mem_singleton.mpr
      (.folder (List.nodup_singleton _) (List.forall_mem_singleton.mpr (.file []))))
  obtain ⟨earlier, reported, member, -, written | unchanged⟩ :=
    claim _ _ _ _ _ _ _ plain rfl chronicle
    (List.forall_mem_singleton.mpr (isApart_samplePage blocked)) returned _ gone
  all_goals
    obtain ⟨-, same⟩ := Prod.mk.inj (List.mem_singleton.mp member)
    obtain rfl := Option.some.inj same
  · have none : ({} ++ (additions ++ {}) : Changes).written = [] :=
      congrArg ([] ++ · ++ []) noneWritten
    exact absurd (none ▸ written) List.not_mem_nil
  · have none : ({} ++ (additions ++ {}) : Changes).unchanged = [] :=
      congrArg ([] ++ · ++ []) noneUnchanged
    exact absurd (none ▸ unchanged) List.not_mem_nil

end Samples

end Manifest

end LuauReference
