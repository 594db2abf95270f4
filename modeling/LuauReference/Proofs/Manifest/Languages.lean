/-
This file proves that languages which share a manifest do not disturb each other. Runs of several
languages in any order leave, for each of them, the same pages and the same lines in the manifest as
its own runs alone would have left. So each language can be built without a thought for the others.

Two disks are followed side by side, one through all runs and one through those of a single
language. They look alike from the place of that language, and what they remember agrees on it. A
run of the language does the same to both, and a run of another one changes only the first, where it
is not seen.
-/

import LuauReference.Proofs.Manifest.Overlooking
import LuauReference.Proofs.Manifest.Sharing

namespace LuauReference

open Run (Returns Overlooks returns_bind_iff returns_pure_iff)

namespace Manifest

open Disk (Apart Spares SparesIn View Alike HasLinksOf)

section

variable {origin : Disk} {file : Path} {out : Text → Place} {langs : List Text} {lang : Text}
  {given : Pages} {world later : World} {changes : Changes} {mixed own : Disk}

/-! ### Saving on both disks -/

/-- The folders above the manifest are those that its path passes. -/
theorem IsShared.mem_placesPassed (shared : IsShared origin file out langs) {disk : Disk}
    (start : disk.start = origin.start) {place : Place}
    (member : place ∈ disk.placesPassed file.parent ++ [disk.placeOf file.parent]) :
    place ∈ origin.placesPassed file := by
  rwa [← Disk.placesPassed_eq shared.names_ne_nil, Disk.placesPassed, Disk.startOf, start,
    ← Disk.startOf, ← Disk.placesPassed] at member

/-- When the folders above the manifest are made on one disk, they are made on another one that is
alike, and the manifest can be written there unless a folder was in its place. -/
theorem IsShared.exists_ensureFolders (shared : IsShared origin file out langs)
    (member : lang ∈ langs)
    {one two left : Disk} (alike : Alike (shared.view member) one two)
    (vacant : ¬ two.root.HasFolderAt (origin.placeOf file)) (usable : file.IsUsable)
    (made : one.ensureFolders file.parent.names.length file.parent = (.ok (), left)) :
    ∃ right, two.ensureFolders file.parent.names.length file.parent = (.ok (), right) ∧
      Alike (shared.view member) left right ∧ right.CanFollow file ∧
      ¬ right.root.HasFolderAt (right.placeOf file) := by
  have begins : one.startOf file.parent = origin.startOf file := by
    rw [Disk.startOf, alike.starts.1]
    rfl
  obtain ⟨right, again, upper, folders⟩ := alike.exists_ensureFolders usable.parent.isTaken
    (begins ▸ shared.isLeftAlone_startOf)
    (fun place above => Or.inr (Or.inl (Or.inr (shared.mem_placesPassed alike.starts.1 above))))
    made
  have spares : Spares (origin.placeOf file) Disk.anywhere two right := by
    have spared :=
      Disk.spares_ensureFolders alike.plain.2 file.parent.names.length fun place above =>
      (shared.fileWay place (shared.mem_placesPassed alike.starts.2 above)).1
    rwa [again] at spared
  refine ⟨right, again, upper, ⟨usable, fun place passed => (folders place ?_).2⟩, ?_⟩
  · rw [← Disk.placesPassed_eq shared.names_ne_nil]
    rwa [Disk.placesPassed, Disk.startOf, upper.starts.2, ← alike.starts.1, ← Disk.startOf,
      ← Disk.placesPassed] at passed
  · rw [Disk.placeOf_of_start upper.starts.2]
    rintro ⟨entries, present⟩
    exact vacant ⟨entries, spares.entry.symm.trans present⟩

/-- What is written in the place of the manifest is not seen from the place of a language. -/
theorem IsShared.alike_written (shared : IsShared origin file out langs) (member : lang ∈ langs)
    {one two left right : Disk} {bytes others : List UInt8}
    (alike : Alike (shared.view member) one two)
    (written : one.writeBytes file bytes = .ok left)
    (again : two.writeBytes file others = .ok right) :
    Alike (shared.view member) left right := by
  have spared {disk after : Disk} {bytes : List UInt8} (plain : disk.root.IsPlain)
      (start : disk.start = origin.start) (written : disk.writeBytes file bytes = .ok after) :
      Spares (out lang) (Disk.outside (origin.placeOf file)) disk after :=
    Disk.spares_writeBytes plain (shared.beside lang member).symm
      (Disk.placeOf_of_start start file ▸ List.prefix_rfl) written
  have unseen (place : Place)
      (seen : (shared.view member).way place ∨ (shared.view member).kept place) :
      Disk.outside (origin.placeOf file) place := (shared.clear member (or_assoc.mp seen)).1
  have half := alike.spared (spared alike.plain.1 alike.starts.1 written) unseen
  exact (half.symm.spared (spared alike.plain.2 alike.starts.2 again) unseen).symm

/-- A manifest that can be written to one disk can be written to another one that is alike, whatever
each of them says, and they are alike afterwards. -/
theorem IsShared.writeText_returns (shared : IsShared origin file out langs) (member : lang ∈ langs)
    {one two after : World} {text : Text} (alike : Alike (shared.view member) one.disk two.disk)
    (vacant : ¬ two.disk.root.HasFolderAt (origin.placeOf file)) {result : Unit}
    (returned : Returns (Run.writeText file text) one result after) (other : Text) :
    ∃ last, Returns (Run.writeText file other) two () last ∧
      Alike (shared.view member) after.disk last.disk := by
  obtain ⟨_, _, made, changed⟩ := returns_bind_iff.mp returned
  obtain ⟨middle, ensured, rfl⟩ := Run.returns_ensureFolders_iff.mp made
  obtain ⟨written, stored, rfl⟩ := Run.returns_change_iff.mp changed
  have usable : file.IsUsable :=
    (Disk.exists_of_writeBytes
      (Disk.ensureFolders_eq_ok alike.plain.1 ensured).1.plain stored).1.usable
  obtain ⟨right, again, upper, can, free⟩ :=
    shared.exists_ensureFolders member alike vacant usable ensured
  have restored := can.writeText_of_vacant upper.plain.2 free other
  exact ⟨_, returns_bind_iff.mpr ⟨(), _, Run.returns_ensureFolders_iff.mpr ⟨right, again, rfl⟩,
    Run.returns_change_iff.mpr ⟨_, restored, rfl⟩⟩,
    shared.alike_written member upper stored restored⟩

theorem IsShared.save_returns (shared : IsShared origin file out langs) (member : lang ∈ langs)
    {one two after : World} {noted again saved : Store}
    (alike : Alike (shared.view member) one.disk two.disk)
    (vacant : ¬ two.disk.root.HasFolderAt (origin.placeOf file)) (path : noted.path = some file)
    (samePath : again.path = some file) (unsaved : again.isUnsaved = noted.isUnsaved)
    (returned : Returns noted.save one saved after) :
    ∃ stored last, Returns again.save two stored last ∧
      Alike (shared.view member) after.disk last.disk := by
  unfold Store.save at returned ⊢
  rw [path] at returned
  rw [samePath, unsaved]
  dsimp only at returned ⊢
  split at returned
  · next outdated =>
    obtain ⟨_, between, written, finished⟩ := returns_bind_iff.mp returned
    obtain ⟨-, rfl⟩ := returns_pure_iff.mp finished
    obtain ⟨last, restored, likewise⟩ :=
      shared.writeText_returns member alike vacant written again.manifest.write
    rw [if_pos outdated]
    exact ⟨_, last, returns_bind_iff.mpr ⟨(), last, restored, returns_pure_iff.mpr ⟨rfl, rfl⟩⟩,
      likewise⟩
  · next upToDate =>
    obtain ⟨-, rfl⟩ := returns_pure_iff.mp returned
    rw [if_neg upToDate]
    exact ⟨again, two, returns_pure_iff.mpr ⟨rfl, rfl⟩, alike⟩

/-! ### Two disks side by side -/

/-- Whether two disks between runs look alike from the place of a language, and the manifests that
are opened from them say the same of it. -/
structure IsShared.Resemble (shared : IsShared origin file out langs) (member : lang ∈ langs)
    (mixed own : Disk) : Prop where
  alike : Alike (shared.view member) mixed own
  remembered : ∃ left right : Manifest, Remembers origin file out mixed left ∧
    Remembers origin file out own right ∧ right.told lang = left.told lang

theorem IsShared.resemble_origin (shared : IsShared origin file out langs) (member : lang ∈ langs)
    (plain : origin.root.IsPlain) : shared.Resemble member origin origin where
  alike := ⟨⟨rfl, rfl⟩, ⟨plain, plain⟩, rfl, fun _ _ => rfl, fun _ kept => ⟨kept.1, kept.1⟩⟩
  remembered := ⟨{}, {}, shared.remembers plain, shared.remembers plain, rfl⟩

/-- From two opened manifests that say the same of its language a run begins in the same way. -/
theorem agreeOn_of_told {left right : Manifest}
    (told : right.told given.lang = left.told given.lang)
    (leftRemembers : Remembers origin file out mixed left)
    (rightRemembers : Remembers origin file out own right) :
    Store.AgreeOn { path := some file, manifest := left }
      { path := some file, manifest := right } given := by
  obtain ⟨outputs, inputs⟩ := Prod.mk.inj told
  rw [rightRemembers.ordered, leftRemembers.ordered] at inputs
  exact ⟨outputs, inputs, rfl⟩

/-- Two runs that are taken down at the same time from manifests that say the same of their language
take down the same. -/
theorem told_of_recorded {left right : Manifest} {noted again : Store} {time : Text}
    (told : right.told given.lang = left.told given.lang)
    (unsaved : again.isUnsaved = noted.isUnsaved)
    (recorded : (noted.isUnsaved = false ∧ noted.manifest = left) ∨ noted.isUnsaved = true ∧
      noted.manifest = left.recordAt given.lang given.paths given.input time)
    (recordedAgain : (again.isUnsaved = false ∧ again.manifest = right) ∨ again.isUnsaved = true ∧
      again.manifest = right.recordAt given.lang given.paths given.input time) :
    again.manifest.told given.lang = noted.manifest.told given.lang := by
  rcases recorded with ⟨saved, rfl⟩ | ⟨outdated, noting⟩
  · rcases recordedAgain with ⟨-, rfl⟩ | ⟨other, -⟩
    · exact told
    · exact nomatch saved.symm.trans (unsaved.symm.trans other)
  · rcases recordedAgain with ⟨other, -⟩ | ⟨-, notingAgain⟩
    · exact nomatch other.symm.trans (unsaved.trans outdated)
    · rw [noting, notingAgain, told_recordAt_self, told_recordAt_self]

/-- A run of the language does the same on both disks. -/
theorem IsShared.Resemble.session {shared : IsShared origin file out langs}
    {member : given.lang ∈ langs}
    {one two : World} (resemble : shared.Resemble member one.disk two.disk)
    (fits : Fits origin out langs given)
    (sameTime : two.clock (two.readings + 1) = one.clock (one.readings + 1))
    (returned : Returns (Manifest.session file given) one changes later) :
    ∃ result last, Returns (Manifest.session file given) two result last ∧
      shared.Resemble member later.disk last.disk := by
  obtain ⟨alike, left, right, leftRemembers, rightRemembers, told⟩ := resemble
  obtain ⟨loaded, applied, after, noted, saved, -, same, time, applying, saving, leaves⟩ :=
    leftRemembers.steps shared.named returned
  obtain ⟨loadedAgain, loading, sameAgain, timeAgain⟩ := rightRemembers.load shared.named
  rw [← same, ← sameAgain] at alike
  rw [← same] at leftRemembers
  rw [← sameAgain] at rightRemembers
  -- The pages are brought in line on both disks, and the manifest is saved to both or to none.
  obtain ⟨⟨result, again⟩, appliedAgain, applyingAgain, unsaved, alikeThen⟩ :=
    (mirrors_apply (fits.isReached shared) (agreeOn_of_told told leftRemembers rightRemembers)
      (leftRemembers.lists.admits given.lang) fits.stays).exists_returns alike applying
  obtain ⟨path, lists, recorded⟩ := noted_cases leftRemembers.lists fits applying
  obtain ⟨pathAgain, listsAgain, recordedAgain⟩ :=
    noted_cases rightRemembers.lists fits applyingAgain
  have leftApplied := leftRemembers.applied shared fits rfl applying
  have rightApplied := rightRemembers.applied shared fits rfl applyingAgain
  obtain ⟨savedAgain, afterAgain, savingAgain, alikeLast⟩ :=
    shared.save_returns fits.shared alikeThen
    rightApplied.not_hasFolderAt path pathAgain unsaved saving
  obtain ⟨last, returnedAgain, leavesAgain⟩ := session_of_steps loading applyingAgain savingAgain
  obtain ⟨next, nextRemembers, nextTold⟩ :=
    leftApplied.save path lists (kept_of_recorded recorded) saving
  obtain ⟨nextAgain, nextRemembersAgain, nextToldAgain⟩ :=
    rightApplied.save pathAgain listsAgain (kept_of_recorded recordedAgain) savingAgain
  rw [time] at recorded
  rw [timeAgain, sameTime] at recordedAgain
  refine ⟨result, last, returnedAgain, ?_⟩
  rw [leaves, leavesAgain]
  refine ⟨alikeLast, next, nextAgain, nextRemembers, nextRemembersAgain, ?_⟩
  rw [nextTold, nextToldAgain]
  exact told_of_recorded told unsaved recorded recordedAgain

/-- A run of another language changes nothing that is seen from the place of a language. -/
theorem IsShared.spares_session (shared : IsShared origin file out langs) (member : lang ∈ langs)
    (fits : Fits origin out langs given) (different : lang ≠ given.lang) {opened : Manifest}
    (remembers : Remembers origin file out world.disk opened)
    (returned : Returns (session file given) world changes later) :
    Spares (out lang)
      (fun place => ¬ origin.placeOf file <+: place ∧ ∀ other ∈ langs, ¬ out other <+: place)
      world.disk later.disk := by
  obtain ⟨loaded, applied, after, noted, saved, -, same, -, applying, saving, leaves⟩ :=
    remembers.steps shared.named returned
  let spares := SparesIn origin (out lang) fun place =>
    ¬ origin.placeOf file <+: place ∧ ∀ other ∈ langs, ¬ out other <+: place
  have apart : Apart (out given.lang) (out lang) :=
    ⟨shared.apart _ fits.shared lang member different.symm,
      shared.apart lang member _ fits.shared different⟩
  have permits : Permits spares given (IsListable out given.lang) :=
    fits.permits shared apart
      (fun _ seen => (shared.not_isPrefix_of_sees fits.shared seen).2 lang member
      different) fun _ away => away.2 _ fits.shared
  have pages : Run.Moves spares
      (Store.apply { path := some file, manifest := opened } given) loaded :=
    moves_apply permits (remembers.lists.admits given.lang)
  have manifest : Run.Moves spares noted.save applied := by
    refine moves_save (noted_cases remembers.lists fits applying).1
      (fun disk above plain start => ?_) fun disk after written plain start => ?_
    · refine (Disk.spares_ensureFolders plain above fun place passed => ?_).weaken
        fun _ _ => trivial
      exact (shared.fileWay place (shared.mem_placesPassed start passed)).2 lang member
    · refine (Disk.spares_writeBytes plain (shared.beside lang member).symm ?_ written).weaken
        fun _ away => away.1
      rw [Disk.placeOf_of_start start]
  rw [Run.Moves, applying.worldAfter_eq] at pages
  rw [Run.Moves, saving.worldAfter_eq] at manifest
  rw [leaves, ← same]
  exact trans_of spares pages manifest (same ▸ remembers.plain) (same ▸ remembers.start)

theorem IsShared.Resemble.other_session {shared : IsShared origin file out langs}
    {member : lang ∈ langs}
    (resemble : shared.Resemble member world.disk own) (fits : Fits origin out langs given)
    (different : lang ≠ given.lang)
    (returned : Returns (Manifest.session file given) world changes later) :
    shared.Resemble member later.disk own := by
  obtain ⟨alike, left, right, leftRemembers, rightRemembers, told⟩ := resemble
  obtain ⟨next, nextRemembers, nextTold⟩ := leftRemembers.session shared fits returned
  have spares := shared.spares_session member fits different leftRemembers returned
  refine ⟨alike.spared spares fun place seen => shared.clear member (or_assoc.mp seen), next, right,
    nextRemembers, rightRemembers, ?_⟩
  rw [told, nextTold lang different]

end

/-! ### Any number of runs -/

/-- Runs one after the other that come to an end. Each of them has a clock, messages and home
folders of its own, and finds the disk that the run before it has left. -/
inductive Visits (file : Path) : Disk → List (World × Pages) → Disk → Prop
  | none (disk : Disk) : Visits file disk [] disk
  | visit {disk after : Disk} {shell later : World} {given : Pages} {rest : List (World × Pages)}
      {changes : Changes}
      (returned : Returns (session file given) { shell with disk := disk } changes later)
      (more : Visits file later.disk rest after) : Visits file disk ((shell, given) :: rest) after

/-- The runs of a language among some runs. -/
def visitsOf (lang : Text) (visits : List (World × Pages)) : List (World × Pages) :=
  visits.filter fun visit => visit.2.lang = lang

section

variable {origin mixed own : Disk} {file : Path} {out : Text → Place} {langs : List Text}
    {lang : Text}
  {visits : List (World × Pages)}

/-- Disks that resemble each other still do after all runs on the one and those of the language on
the other. -/
theorem IsShared.Resemble.after_visits {shared : IsShared origin file out langs}
    {member : lang ∈ langs}
    {before after : Disk} (resemble : shared.Resemble member before own)
    (fits : ∀ visit ∈ visits, Fits origin out langs visit.2)
    (history : Visits file before visits after) :
    ∃ last, Visits file own (visitsOf lang visits) last ∧ shared.Resemble member after last := by
  induction history generalizing own with
  | none disk => exact ⟨own, .none own, resemble⟩
  | @visit disk after shell later given rest changes returned more inductionHypothesis =>
    obtain ⟨here, others⟩ := List.forall_mem_cons.mp fits
    by_cases same : given.lang = lang
    · subst same
      have alike : shared.Resemble here.shared ({ shell with disk := disk } : World).disk
          ({ shell with disk := own } : World).disk := resemble
      obtain ⟨result, middle, returnedAgain, likewise⟩ := alike.session here rfl returned
      obtain ⟨last, history, finish⟩ := inductionHypothesis likewise others
      refine ⟨last, ?_, finish⟩
      rw [visitsOf, List.filter_cons_of_pos (by simp)]
      exact .visit returnedAgain history
    · have alike : shared.Resemble member ({ shell with disk := disk } : World).disk own := resemble
      obtain ⟨last, history, finish⟩ :=
        inductionHypothesis (alike.other_session here (Ne.symm same) returned) others
      refine ⟨last, ?_, finish⟩
      rw [visitsOf, List.filter_cons_of_neg (by simpa using same)]
      exact history

end

/-! ### Runs beside links -/

section

variable {origin disk before after : Disk} {file : Path} {out : Text → Place} {langs : List Text}
  {given : Pages} {world : World} {opened : Manifest} {visits : List (World × Pages)}

/-- A run overlooks the links of a disk on which the languages share a manifest. -/
theorem IsShared.overlooks_session (shared : IsShared origin file out langs)
    (fits : Fits origin out langs given) (linked : HasLinksOf origin world.disk)
    (remembers : Remembers origin.erased file out world.erased.disk opened) :
    Overlooks origin (session file given) world := by
  refine Manifest.overlooks_session shared.meetsNoLink ?_
    (fun store later loading path listed => ?_) fun page member => ?_
  · have stays : Disk.StaysIn (out given.lang) [] := List.forall_mem_singleton.mpr List.prefix_rfl
    rw [← Disk.inside_nil given.folder]
    exact fits.meetsNoLink shared stays
  · obtain ⟨_, again, -⟩ := remembers.load shared.named
    have bare := ((overlooks_load shared.meetsNoLink).returns_erased linked loading).1
    cases again.symm.trans bare
    obtain ⟨normal, kept⟩ := remembers.lists.admits given.lang path listed
    rw [← normal, child_normalize]
    exact fits.meetsNoLink shared kept
  · rw [child_normalize]
    exact fits.meetsNoLink shared (fits.stays page member)

/-- Runs that come to an end do so without the links of the disk. -/
theorem IsShared.visits_erased (shared : IsShared origin file out langs)
    (fits : ∀ visit ∈ visits, Fits origin out langs visit.2)
    (history : Visits file before visits after) (linked : HasLinksOf origin before)
    (remembers : ∃ opened, Remembers origin.erased file out before.erased opened) :
    Visits file before.erased visits after.erased ∧ HasLinksOf origin after := by
  induction history with
  | none disk => exact ⟨.none _, linked⟩
  | @visit disk after shell later given rest changes returned more inductionHypothesis =>
    obtain ⟨here, others⟩ := List.forall_mem_cons.mp fits
    obtain ⟨opened, known⟩ := remembers
    let world : World := { shell with disk := disk }
    have overlooks : Overlooks origin (session file given) world :=
      shared.overlooks_session here linked known
    obtain ⟨again, still⟩ := overlooks.returns_erased linked returned
    have bare : Remembers origin.erased file out world.erased.disk opened := known
    obtain ⟨next, nextKnown, -⟩ := bare.session shared.erased here.erased again
    obtain ⟨whole, last⟩ := inductionHypothesis others still ⟨next, nextKnown⟩
    exact ⟨.visit again whole, last⟩

/-- Runs that come to an end without the links of a disk do so on the disk. -/
theorem IsShared.visits_of_erased (shared : IsShared origin file out langs)
    (fits : ∀ visit ∈ visits, Fits origin out langs visit.2) {bare left : Disk}
    (history : Visits file bare visits left) (same : before.erased = bare)
    (linked : HasLinksOf origin before)
    (remembers : ∃ opened, Remembers origin.erased file out bare opened) :
    ∃ last, Visits file before visits last ∧ last.erased = left ∧ HasLinksOf origin last := by
  induction history generalizing before with
  | none disk => exact ⟨before, .none before, same, linked⟩
  | @visit disk left shell later given rest changes returned more inductionHypothesis =>
    obtain ⟨here, others⟩ := List.forall_mem_cons.mp fits
    obtain ⟨opened, known⟩ := remembers
    subst same
    let world : World := { shell with disk := before }
    have overlooks : Overlooks origin (session file given) world :=
      shared.overlooks_session here linked known
    obtain ⟨after, again, rfl, still⟩ := overlooks.returns_of_erased linked returned
    have bare : Remembers origin.erased file out world.erased.disk opened := known
    obtain ⟨next, nextKnown, -⟩ := bare.session shared.erased here.erased returned
    obtain ⟨last, whole, finish⟩ := inductionHypothesis others rfl still ⟨next, nextKnown⟩
    exact ⟨last, .visit again whole, finish⟩

end

/-! ### Languages do not disturb each other -/

section

variable {origin mixed : Disk} {file : Path} {out : Text → Place} {langs : List Text} {lang : Text}
  {visits : List (World × Pages)}

/-- What a manifest that is opened anew says of a language: its files and what they were made
from. -/
def recollect (file : Path) (lang : Text) : Run (List Text × Option Fields) := do
  let store ← Store.load (some file)
  pure (store.manifest.outputsFor lang, store.manifest.inputFor lang)

theorem overlooks_recollect (meets : origin.MeetsNoLink file) (lang : Text) (world : World) :
    Overlooks origin (recollect file lang) world :=
  (overlooks_load meets).bind fun _ _ _ => Run.overlooks_pure _

theorem Remembers.recollect {disk : Disk} {opened : Manifest}
    (remembers : Remembers origin file out disk opened)
    (named : '\x00' ∉ file.text) (lang : Text) (shell : World) :
    ∃ later, Returns (Manifest.recollect file lang) { shell with disk := disk }
      (opened.outputsFor lang, opened.inputFor lang) later := by
  have here : Remembers origin file out ({ shell with disk := disk } : World).disk opened :=
    remembers
  obtain ⟨later, loading, -⟩ := here.load named
  exact ⟨later, returns_bind_iff.mpr ⟨_, later, loading, returns_pure_iff.mpr ⟨rfl, rfl⟩⟩⟩

/-- Languages that share a manifest are independent: after any number of runs of several languages
in any order, which began without a manifest, the place of each language holds what its own runs
alone leave there, and the manifest says of it what it says after those. Where the runs of all
languages come to an end, those of a single language do. -/
theorem languages_are_independent (shared : IsShared origin file out langs)
    (fits : ∀ visit ∈ visits, Fits origin out langs visit.2)
    (history : Visits file origin visits mixed)
    (member : lang ∈ langs) :
    ∃ own, Visits file origin (visitsOf lang visits) own ∧
      own.root.at? (out lang) = mixed.root.at? (out lang) ∧
      ∀ shell : World, ∃ said later last,
        Returns (recollect file lang) { shell with disk := mixed } said later ∧
          Returns (recollect file lang) { shell with disk := own } said last := by
  have plain := shared.tree.isPlain_erased
  have known := shared.erased.remembers plain
  have fitsVisits : ∀ visit ∈ visits, Fits origin.erased out langs visit.2 :=
    fun visit listed => (fits visit listed).erased
  -- All of it is done without the links first, and then carried over to the disk itself.
  obtain ⟨bare, linked⟩ := shared.visits_erased fits history (.refl origin) ⟨_, known⟩
  obtain ⟨_, alone, alike, left, right, leftRemembers, rightRemembers, told⟩ :=
    (shared.erased.resemble_origin member plain).after_visits fitsVisits bare
  obtain ⟨own, again, rfl, ownLinked⟩ := shared.visits_of_erased
    (fun visit listed => fits visit (List.mem_of_mem_filter listed)) alone rfl (.refl origin)
    ⟨_, known⟩
  have unlinked {disk : Disk} (linked : HasLinksOf origin disk) (inner : Place) (target : Text) :
      disk.root.at? (out lang ++ inner) ≠ some (.link target) := fun found =>
    ((shared.unlinked _ target (linked.links _ target found)).2 lang member).left
      (List.prefix_append _ inner)
  refine ⟨own, again, Entry.at?_eq_of_erased alike.plain.1 (unlinked linked) (unlinked ownLinked)
    alike.entry, fun shell => ?_⟩
  have overlooks := overlooks_recollect shared.meetsNoLink lang
  obtain ⟨_, recalled⟩ := leftRemembers.recollect shared.named lang shell
  obtain ⟨_, recalledAgain⟩ := rightRemembers.recollect shared.named lang shell
  obtain ⟨outputs, inputs⟩ := Prod.mk.inj told
  rw [rightRemembers.ordered, leftRemembers.ordered] at inputs
  rw [outputsFor, inputFor, outputs, inputs] at recalledAgain
  obtain ⟨later, returned, -⟩ :=
    (overlooks { shell with disk := mixed }).returns_of_erased linked recalled
  obtain ⟨last, returnedAgain, -⟩ :=
    (overlooks { shell with disk := own }).returns_of_erased ownLinked recalledAgain
  exact ⟨_, later, last, returned, returnedAgain⟩

end

/-! ### Two languages with a run each -/

section Samples

/-- A single empty page under a path, in a folder that is named after its language. -/
def languagePage (lang path : Text) : Pages :=
  { folder := ⟨0, [lang]⟩, lang := lang, texts := [(path, [])] }

/-- A world with the page `x` of the language `a`, the manifest and possibly more. -/
def languageWorld (bytes : List UInt8) (pages more : List (Text × Entry)) : World :=
  sampleWorld
    ([("a".toList, .folder (("x".toList, .file []) :: pages)), ("m".toList, .file bytes)] ++ more)

/-- The manifest after the run of the language `a`. -/
def languageManifest : Manifest :=
  recordAt {} "a".toList ["x".toList] {} []

theorem isRegular_languageManifest : languageManifest.IsRegular :=
  isRegular_empty.recordAt (by decide) "a".toList {} []

/-- The first run is one of the language `a`. -/
theorem session_first : ∃ changes later,
    Returns (session sampleFile (languagePage "a".toList "x".toList))
      (sampleWorld []) changes later ∧
      later.disk = (languageWorld (Text.utf8 languageManifest.write) [] []).disk := by
  let pages : World := sampleWorld [("a".toList, .folder [("x".toList, .file [])])]
  have writing : Returns (writePage ⟨0, ["a".toList]⟩ "x".toList []) (sampleWorld [])
      { written := ["x".toList] } pages := returns_writePage rfl rfl rfl
  have pruning : pages.disk.prune ⟨0, ["a".toList]⟩ = .ok (false, pages.disk) := rfl
  have ensuring : pages.disk.ensureFolders sampleFile.parent.names.length sampleFile.parent =
      (.ok (), pages.disk) := rfl
  have storing (text : Text) : pages.disk.writeText sampleFile text =
      .ok (languageWorld (Text.utf8 text) [] []).disk := rfl
  have listed : (languagePage "a".toList "x".toList).paths = ["x".toList] :=
    List.mergeSort_singleton _
  obtain ⟨later, returned, same⟩ := session_of_missing (languagePage "a".toList "x".toList) rfl
    (returns_singlePage rfl writing) pruning ensuring (storing _)
  rw [listed] at same
  exact ⟨_, later, returned, same⟩

/-- The second run is one of the language `b`. -/
theorem session_second {path : Text} {pages more : List (Text × Entry)} {additions : Changes}
    {gone : Bool}
    {written : List UInt8 → World}
    (writing : ∀ bytes, Returns (writePage ⟨0, ["b".toList]⟩ path [])
      (languageWorld bytes [] []) additions
      (written bytes))
    (pruning : ∀ bytes, (written bytes).disk.prune ⟨0, ["b".toList]⟩ =
      .ok (gone, (languageWorld bytes pages more).disk)) :
    ∃ changes later bytes, Returns (session sampleFile (languagePage "b".toList path))
        (languageWorld (Text.utf8 languageManifest.write) [] []) changes later ∧
      later.disk = (languageWorld bytes pages more).disk := by
  have reading : (languageWorld (Text.utf8 languageManifest.write) [] []).disk.readText sampleFile =
      .ok languageManifest.write := Disk.readText_of_readBytes rfl languageManifest.unbroken_write
  have loading := load_of_written isRegular_languageManifest reading
  have unlisted : (ofJson languageManifest.toJson.sorted).outputs.get? "b".toList = none := by
    rw [get?_ofJson_outputs isRegular_languageManifest.isLegible]
    decide
  generalize Text.utf8 languageManifest.write = bytes at loading ⊢
  have ensuring : (languageWorld bytes pages more).disk.ensureFolders sampleFile.parent.names.length
      sampleFile.parent = (.ok (), (languageWorld bytes pages more).disk) := rfl
  have storing (text : Text) : (languageWorld bytes pages more).disk.writeText sampleFile text =
      .ok (languageWorld (Text.utf8 text) pages more).disk := rfl
  obtain ⟨later, returned, same⟩ :=
    session_of_unlisted (languagePage "b".toList path) loading rfl unlisted
    (returns_singlePage rfl (writing bytes)) (pruning bytes) ensuring (storing _)
  exact ⟨_, later, _, returned, same⟩

/-- Both runs, one after the other. -/
theorem visits_both {path : Text} {pages more : List (Text × Entry)} {additions : Changes}
    {gone : Bool}
    {written : List UInt8 → World}
    (writing : ∀ bytes, Returns (writePage ⟨0, ["b".toList]⟩ path [])
      (languageWorld bytes [] []) additions
      (written bytes))
    (pruning : ∀ bytes, (written bytes).disk.prune ⟨0, ["b".toList]⟩ =
      .ok (gone, (languageWorld bytes pages more).disk)) :
    ∃ bytes, Visits sampleFile (sampleWorld []).disk
      [(sampleWorld [], languagePage "a".toList "x".toList),
        (sampleWorld [], languagePage "b".toList path)]
      (languageWorld bytes pages more).disk := by
  obtain ⟨one, between, began, left⟩ := session_first
  obtain ⟨two, last, bytes, ended, same⟩ := session_second writing pruning
  have first : Returns (session sampleFile (languagePage "a".toList "x".toList))
      { sampleWorld [] with disk := (sampleWorld []).disk } one between := began
  have second : Returns (session sampleFile (languagePage "b".toList path))
      { sampleWorld [] with disk := between.disk } two last := by
    rw [left]
    exact ended
  exact ⟨bytes, .visit first (.visit second (same ▸ .none _))⟩

theorem isShared_sample : IsShared (sampleWorld []).disk sampleFile (fun lang => [lang])
    ["a".toList, "b".toList] where
  tree := Entry.isPlain_folder_nil.isTree
  begins := ⟨_, rfl⟩
  named := by decide
  absent := rfl
  apart := by decide
  beside := List.forall_mem_cons.mpr
    ⟨⟨by decide, by decide⟩, List.forall_mem_singleton.mpr ⟨by decide, by decide⟩⟩
  fileWay := by decide
  unlinked place target found := absurd found (Entry.isPlain_folder_nil.at?_ne_link place target)

/-- The folder of a language in the sample leads straight to its place. -/
theorem languageFolder_way {lang : Text} (member : lang ∈ ["a".toList, "b".toList]) :
    (⟨0, [lang]⟩ : Path).IsUsable ∧ (sampleWorld []).disk.placeOf ⟨0, [lang]⟩ = [lang] ∧
      ∀ place ∈ (sampleWorld []).disk.placesPassed ⟨0, [lang]⟩, place <+: [lang] := by
  rcases List.mem_pair.mp member with rfl | rfl
  · exact ⟨⟨by decide, by decide, by decide⟩, rfl, by decide⟩
  · exact ⟨⟨by decide, by decide, by decide⟩, rfl, by decide⟩

theorem fits_languagePage {lang path : Text} (member : lang ∈ ["a".toList, "b".toList])
    (stays : IsKeptIn [lang] path) :
    Fits (sampleWorld []).disk (fun lang => [lang]) ["a".toList, "b".toList]
      (languagePage lang path) where
  shared := member
  usable := (languageFolder_way member).1
  place := (languageFolder_way member).2.1
  way place passed := Or.inl ((languageFolder_way member).2.2 place passed)
  stays := List.forall_mem_singleton.mpr stays

/-- With a page of each language, the place of `b` is as after the run of `b` alone. -/
theorem languages_are_independent_two_runs : ∃ bytes own,
    Visits sampleFile (sampleWorld []).disk
      [(sampleWorld [], languagePage "a".toList "x".toList),
        (sampleWorld [], languagePage "b".toList "y".toList)]
      (languageWorld bytes [] [("b".toList, .folder [("y".toList, .file [])])]).disk ∧
    Visits sampleFile (sampleWorld []).disk
      [(sampleWorld [], languagePage "b".toList "y".toList)] own ∧
    own.root.at? ["b".toList] = some (.folder [("y".toList, .file [])]) := by
  have writing (bytes : List UInt8) : Returns (writePage ⟨0, ["b".toList]⟩ "y".toList [])
      (languageWorld bytes [] []) { written := ["y".toList] }
      (languageWorld bytes [] [("b".toList, .folder [("y".toList, .file [])])]) :=
        returns_writePage rfl rfl rfl
  have pruning (bytes : List UInt8) :
      (languageWorld bytes [] [("b".toList, .folder [("y".toList, .file [])])]).disk.prune
        ⟨0, ["b".toList]⟩ =
        .ok (false,
          (languageWorld bytes [] [("b".toList, .folder [("y".toList, .file [])])]).disk) := rfl
  obtain ⟨bytes, history⟩ := visits_both writing pruning
  have fits : ∀ visit ∈ [(sampleWorld [], languagePage "a".toList "x".toList),
      (sampleWorld [], languagePage "b".toList "y".toList)],
      Fits (sampleWorld []).disk (fun lang => [lang]) ["a".toList, "b".toList] visit.2 :=
    List.forall_mem_cons.mpr
      ⟨fits_languagePage (by decide) (by unfold IsKeptIn Disk.StaysIn; decide),
      List.forall_mem_singleton.mpr
        (fits_languagePage (by decide) (by unfold IsKeptIn Disk.StaysIn; decide))⟩
  have member : "b".toList ∈ ["a".toList, "b".toList] := by decide
  obtain ⟨own, alone, same, -⟩ := languages_are_independent isShared_sample fits history member
  exact ⟨bytes, own, history, alone, same⟩

/-- The path of a page may lead out of the folder of its language. The page `../a/y` of the language
`b` goes to the place of `a`, where the run of `a` alone leaves nothing but its own page. -/
theorem not_languages_are_independent : ¬ ∀ (origin mixed : Disk) (file : Path) (out : Text → Place)
    (langs : List Text) (visits : List (World × Pages)) (lang : Text),
    IsShared origin file out langs →
    (∀ visit ∈ visits, visit.2.lang ∈ langs ∧ visit.2.folder.IsUsable ∧
      origin.placeOf visit.2.folder = out visit.2.lang ∧
      ∀ place ∈ origin.placesPassed visit.2.folder, place <+: out visit.2.lang) →
    Visits file origin visits mixed → lang ∈ langs →
    ∃ own, Visits file origin (visitsOf lang visits) own ∧
      own.root.at? (out lang) = mixed.root.at? (out lang) := by
  intro claim
  have writing (bytes : List UInt8) : Returns (writePage ⟨0, ["b".toList]⟩ "../a/y".toList [])
      (languageWorld bytes [] []) { written := ["../a/y".toList] }
      (languageWorld bytes [("y".toList, .file [])] [("b".toList, .folder [])]) :=
    returns_writePage rfl rfl rfl
  have pruning (bytes : List UInt8) :
      (languageWorld bytes [("y".toList, .file [])] [("b".toList, .folder [])]).disk.prune
        ⟨0, ["b".toList]⟩ = .ok
          (true, (languageWorld bytes [("y".toList, .file [])] []).disk) := rfl
  obtain ⟨bytes, history⟩ := visits_both writing pruning
  obtain ⟨own, alone, same⟩ := claim _ _ _ _ _ _ "a".toList isShared_sample
    (List.forall_mem_cons.mpr ⟨⟨by decide, languageFolder_way (by decide)⟩,
      List.forall_mem_singleton.mpr ⟨by decide, languageFolder_way (by decide)⟩⟩) history
        (by decide)
  obtain ⟨_, between, began, left⟩ := session_first
  have single : visitsOf "a".toList [(sampleWorld [], languagePage "a".toList "x".toList),
      (sampleWorld [], languagePage "b".toList "../a/y".toList)] =
      [(sampleWorld [], languagePage "a".toList "x".toList)] := rfl
  rw [single] at alone
  cases alone with
  | visit returned more =>
    cases more
    cases returned.symm.trans began
    rw [left] at same
    have both : some (Entry.folder [("x".toList, .file [])]) =
      some (.folder [("x".toList, .file []), ("y".toList, .file [])]) := same
    exact nomatch both

end Samples

end Manifest

end LuauReference
