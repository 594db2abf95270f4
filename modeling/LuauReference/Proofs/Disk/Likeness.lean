/-
This file compares disks by what a program sees of them that works below one place. A change
elsewhere spares the entry at that place. Two disks are alike when they have the same entry there,
the same files on the way, and certain folders in common that stay; an operation whose path leads
into the place then does the same on both.

On the way to the place two disks that are alike may differ in one thing: folders above it may be
missing on one of them as long as there is nothing at the place on both. Looking something up then
fails on both, if not at the same name, and making folders makes up for the difference.
-/

import LuauReference.Proofs.Disk.Operation
import LuauReference.Proofs.Disk.Subtree

namespace LuauReference

namespace Disk

/-! ### Places apart -/

/-- Whether none of two places is at or below the other. -/
structure Apart (one two : Place) : Prop where
  left : ¬ one <+: two
  right : ¬ two <+: one

theorem Apart.symm {one two : Place} (apart : Apart one two) : Apart two one :=
  ⟨apart.right, apart.left⟩

theorem Apart.of_isPrefix {inside here place : Place} (apart : Apart inside here)
    (below : inside <+: place) : Apart place here where
  left above := apart.left (below.trans above)
  right under := (List.prefix_or_prefix_of_prefix below under).elim apart.left apart.right

/-! ### Changes that spare a place -/

/-- Whether a change leaves the entry at a place, and of other places the files and the folders that
are there. -/
structure Spares (here : Place) (spared : Place → Prop) (before after : Disk) : Prop where
  keeps : Keeps spared before after
  files : ∀ place, spared place → after.files place = before.files place
  entry : after.root.at? here = before.root.at? here

section

variable {here inside : Place} {spared : Place → Prop} {disk after : Disk} {path : Path}

theorem Spares.refl (plain : disk.root.IsPlain) : Spares here spared disk disk :=
  ⟨.refl plain spared, fun _ _ => rfl, rfl⟩

theorem Spares.trans {first second third : Disk} (early : Spares here spared first second)
    (late : Spares here spared second third) : Spares here spared first third where
  keeps := early.keeps.trans late.keeps
  files place away := (late.files place away).trans (early.files place away)
  entry := late.entry.trans early.entry

theorem Spares.weaken {fewer : Place → Prop} (spares : Spares here spared disk after)
    (weaker : ∀ place, fewer place → spared place) : Spares here fewer disk after where
  keeps := ⟨spares.keeps.start, spares.keeps.plain,
    fun place away present => spares.keeps.folders place (weaker place away) present⟩
  files place away := spares.files place (weaker place away)
  entry := spares.entry

theorem spares_removeFile (plain : disk.root.IsPlain) (apart : Apart inside here)
    (below : inside <+: disk.placeOf path) (removed : disk.removeFile path = .ok after) :
    Spares here (outside inside) disk after where
  keeps := (keeps_removeFile plain removed).weaken _
  files place away := by
    rcases (files_removeFile plain removed).2 place with same | ⟨rfl, -⟩
    · exact same
    · exact absurd below away
  entry := by
    obtain ⟨-, -, rfl⟩ := exists_of_removeFile plain removed
    have other := apart.of_isPrefix below
    exact Entry.at?_remove_of_unrelated other.left other.right

theorem spares_writeBytes (plain : disk.root.IsPlain) (apart : Apart inside here)
    (below : inside <+: disk.placeOf path) {bytes : List UInt8}
    (written : disk.writeBytes path bytes = .ok after) :
    Spares here (outside inside) disk after where
  keeps := (keeps_writeBytes plain written).weaken _
  files place away := by
    rcases files_writeBytes plain written place with same | ⟨rfl, -⟩
    · exact same
    · exact absurd below away
  entry := by
    obtain ⟨-, -, rfl⟩ := exists_of_writeBytes plain written
    have other := apart.of_isPrefix below
    exact Entry.at?_put_of_unrelated _ other.left other.right

theorem spares_putEmpty (plain : disk.root.IsPlain) {place : Place}
    (absent : disk.root.at? place = none) (apart : ¬ here <+: place) :
    Spares here anywhere disk { disk with root := disk.root.put place (.folder []) } where
  keeps := (keeps_putEmpty plain absent).1
  files other _ := congrFun (keeps_putEmpty plain absent).2 other
  entry := Entry.at?_put_empty absent apart

theorem spares_ensureFolder (plain : disk.root.IsPlain) (apart : ¬ here <+: disk.placeOf path)
    (made : disk.ensureFolder path = .ok after) : Spares here anywhere disk after := by
  obtain ⟨-, rfl | ⟨absent, rfl⟩⟩ := exists_of_ensureFolder plain made
  · exact .refl plain
  · exact spares_putEmpty plain absent apart

/-- Making folders spares a place that is not above them. -/
theorem spares_ensureFolders (plain : disk.root.IsPlain) (above : Nat)
    (apart : ∀ place ∈ disk.placesPassed path ++ [disk.placeOf path], ¬ here <+: place) :
    Spares here anywhere disk (disk.ensureFolders above path).2 := by
  refine ensureFolders_keeps (Spares here anywhere disk)
    (fun path => ∀ place ∈ disk.placesPassed path ++ [disk.placeOf path], ¬ here <+: place)
    (fun apart place member => apart place (mem_way_of_parent member)) ?_ (.refl plain) apart above
  intro now made path spared apart done
  have only := apart _ (List.mem_append_right _ List.mem_cons_self)
  rw [← spared.keeps.placeOf] at only
  exact spared.trans (spares_ensureFolder spared.keeps.plain only done)

/-- Removing empty folders inside of a folder spares a place apart from it. -/
theorem spares_sweep (plain : disk.root.IsPlain) (apart : Apart (disk.placeOf path) here)
    (places : List Place) :
    Spares here (outside (disk.placeOf path)) disk (disk.sweep path places) where
  keeps := (keeps_sweep plain path places).1
  files place _ := congrFun (keeps_sweep plain path places).2 place
  entry := by
    induction places generalizing disk with
    | nil => rfl
    | cons inner places inductionHypothesis =>
      have keeps := (keeps_removeIfEmpty plain path inner).1
      refine (inductionHypothesis keeps.plain (keeps.placeOf path ▸ apart)).trans ?_
      rcases removeIfEmpty_cases plain path inner with same | ⟨-, same⟩
      · rw [same]
      · rw [same]
        have other := apart.of_isPrefix (List.prefix_append _ inner)
        exact Entry.at?_remove_of_unrelated other.left other.right

/-- Pruning a folder spares a place apart from it. -/
theorem spares_prune (plain : disk.root.IsPlain) (apart : Apart (disk.placeOf path) here)
    {gone : Bool}
    (pruned : disk.prune path = .ok (gone, after)) :
    Spares here (outside (disk.placeOf path)) disk after where
  keeps := (prune_eq_ok plain pruned).1
  files place _ := congrFun (prune_eq_ok plain pruned).2 place
  entry := by
    obtain ⟨places, swept⟩ := exists_of_prune plain pruned
    have spares := spares_sweep plain apart places
    rcases swept with rfl | removed
    · exact spares.entry
    · obtain ⟨-, -, rfl⟩ := exists_of_removeFolder spares.keeps.plain removed
      rw [spares.keeps.placeOf, ← spares.entry]
      exact Entry.at?_remove_of_unrelated apart.left apart.right

end

/-! ### Disks that look alike from a place -/

/-- What two disks are compared by: the entry at a place, the files on the way, among them all above
the place, and folders that stay where they are. -/
structure View where
  start : Place
  here : Place
  way : Place → Prop
  kept : Place → Prop
  apart : ∀ place, way place ∨ kept place → ¬ here <+: place
  above : ∀ place, place <+: here → place ≠ here → way place

/-- The places that are compared in some respect. -/
def View.Sees (view : View) (place : Place) : Prop :=
  view.here <+: place ∨ view.way place ∨ view.kept place

/-- The places of which the same is known on both disks: those in the place of the view and the
folders that stay. -/
def View.Knows (view : View) (place : Place) : Prop :=
  view.here <+: place ∨ view.kept place

/-- Whether all folders above the place of a view stay. -/
structure View.IsFirm (view : View) : Prop where
  proper : view.here ≠ []
  above : ∀ place, place <+: view.here → place ≠ view.here → view.kept place

theorem View.IsFirm.kept_dropLast {view : View} (firm : view.IsFirm) :
    view.kept view.here.dropLast := by
  refine firm.above _ (List.dropLast_prefix _) fun same => ?_
  have shorter := congrArg List.length same
  have positive := List.length_pos_iff.mpr firm.proper
  rw [List.length_dropLast] at shorter
  omega

/-- Whether two disks are alike in a view. -/
structure Alike (view : View) (one two : Disk) : Prop where
  starts : one.start = view.start ∧ two.start = view.start
  plain : one.root.IsPlain ∧ two.root.IsPlain
  entry : two.root.at? view.here = one.root.at? view.here
  files : ∀ place, view.way place → two.files place = one.files place
  folders : ∀ place, view.kept place → one.root.HasFolderAt place ∧ two.root.HasFolderAt place

section

variable {view : View} {one two : Disk} {path : Path}

theorem Alike.symm (alike : Alike view one two) : Alike view two one where
  starts := alike.starts.symm
  plain := alike.plain.symm
  entry := alike.entry.symm
  files place seen := (alike.files place seen).symm
  folders place kept := (alike.folders place kept).symm

theorem Alike.start (alike : Alike view one two) : two.start = one.start :=
  alike.starts.2.trans alike.starts.1.symm

theorem Alike.startOf (alike : Alike view one two) (path : Path) :
    two.startOf path = one.startOf path := by
  rw [Disk.startOf, Disk.startOf, alike.start]

theorem Alike.placeOf (alike : Alike view one two) (path : Path) :
    two.placeOf path = one.placeOf path := by
  rw [Disk.placeOf, Disk.placeOf, alike.startOf]

theorem Alike.placesPassed (alike : Alike view one two) (path : Path) :
    two.placesPassed path = one.placesPassed path := by
  rw [Disk.placesPassed, Disk.placesPassed, alike.startOf]

/-- Below the place the entries are the same. -/
theorem Alike.at?_eq (alike : Alike view one two) {place : Place} (below : view.here <+: place) :
    two.root.at? place = one.root.at? place := by
  obtain ⟨inner, rfl⟩ := below
  rw [Entry.at?_append, Entry.at?_append, alike.entry]

/-- The files are the same in all places that are compared. -/
theorem Alike.files_of_sees (alike : Alike view one two) {place : Place} (sees : view.Sees place) :
    two.files place = one.files place := by
  rcases sees with below | seen | kept
  · exact Entry.fileAt?_of_at? (alike.at?_eq below)
  · exact alike.files _ seen
  · exact (Entry.fileAt?_of_hasFolderAt (alike.folders _ kept).2).trans
      (Entry.fileAt?_of_hasFolderAt (alike.folders _ kept).1).symm

/-- Disks stay alike when both change at or below the place, and there in the same way. -/
theorem Alike.change (alike : Alike view one two) {left right : Disk}
    (keepsLeft : Keeps view.kept one left)
    (keepsRight : Keeps view.kept two right)
    (filesLeft : ∀ place, view.way place → left.files place = one.files place)
    (filesRight : ∀ place, view.way place → right.files place = two.files place)
    (entry : right.root.at? view.here = left.root.at? view.here) : Alike view left right where
  starts := ⟨keepsLeft.start.trans alike.starts.1, keepsRight.start.trans alike.starts.2⟩
  plain := ⟨keepsLeft.plain, keepsRight.plain⟩
  entry := entry
  files place seen :=
    ((filesRight place seen).trans (alike.files place seen)).trans (filesLeft place seen).symm
  folders place kept := ⟨keepsLeft.folders place kept (alike.folders place kept).1,
    keepsRight.folders place kept (alike.folders place kept).2⟩

/-- Disks stay alike when one of them changes elsewhere. -/
theorem Alike.spared (alike : Alike view one two) {spared : Place → Prop} {after : Disk}
    (spares : Spares view.here spared one after)
    (outside : ∀ place, view.way place ∨ view.kept place → spared place) :
    Alike view after two := by
  have fewer := spares.weaken outside
  refine alike.change ⟨fewer.keeps.start, fewer.keeps.plain, fun place kept => ?_⟩
    (.refl alike.plain.2 _)
    (fun place seen => fewer.files place (Or.inl seen)) (fun _ _ => rfl)
    (alike.entry.trans fewer.entry.symm)
  exact fewer.keeps.folders place (Or.inr kept)

end

/-! ### Paths into the place -/

/-- Whether names stay at or below the place where they begin. -/
def StaysIn (place : Place) (names : List Text) : Prop :=
  ∀ other ∈ passed place names ++ [destination place names], place <+: other

/-- Whether a path leads to the place of a view by places that are above it, below it or stay. It
begins in a folder that stays, or in the place itself when all folders above this stay. -/
structure View.IsReached (view : View) (disk : Disk) (folder : Path) : Prop where
  start : disk.start = view.start
  usable : folder.IsUsable
  begins : view.kept (disk.startOf folder) ∨ view.here <+: disk.startOf folder ∧ view.IsFirm
  place : disk.placeOf folder = view.here
  way : ∀ place ∈ disk.placesPassed folder,
    place <+: view.here ∨ view.here <+: place ∨ view.kept place

/-- The path of names in a folder. -/
def inside (folder : Path) (names : List Text) : Path :=
  ⟨folder.slashes, folder.names ++ names⟩

/-- Whether looking a path up has found nothing, for a reason other than the length of a name. -/
def IsLost (result : Except Failure Location) : Prop :=
  (∃ place, result = .ok ⟨place, none⟩) ∨
    ∃ cause text, cause ≠ .nameTooLong ∧ result = .error (.disk ⟨cause, text⟩)

/-- A path whose text is not taken is refused by all disks alike. -/
theorem exists_locate_eq_error {path : Path} (unfit : ¬ path.IsTaken) :
    ∃ failure, (failure = .badValue ∨ failure = refused path .nameTooLong) ∧
      ∀ (disk : Disk) (followLast : Bool), disk.locate followLast path = .error failure := by
  by_cases null : path.text.contains '\x00' = true
  · refine ⟨_, Or.inl rfl, fun disk followLast => ?_⟩
    rw [locate, if_pos null]
  · have long : longestPath < (Text.utf8 path.text).length := by
      refine Nat.lt_of_not_le fun short => unfit ⟨?_, short⟩
      simpa using null
    refine ⟨_, Or.inr rfl, fun disk followLast => ?_⟩
    rw [locate, if_neg null, if_pos long]

theorem locate_inside {disk : Disk} (plain : disk.root.IsPlain) {folder : Path} {names : List Text}
    (taken : (inside folder names).IsTaken) (followLast : Bool) :
    disk.locate followLast (inside folder names) =
      match descend disk.root false (disk.startOf folder) (folder.names ++ names) with
      | .arrived location => .ok location
      | .refused cause => .error (refused (inside folder names) cause)
      | .link _ _ _ => .error (refused (inside folder names) .tooManyLinks) :=
  locate_of_isTaken plain taken followLast

/-- Names in a folder whose own names lead to nothing are not found. -/
theorem isLost_locate {disk : Disk} (plain : disk.root.IsPlain) {folder : Path}
    (begins : disk.root.HasFolderAt (disk.startOf folder)) (usable : folder.IsUsable)
    (lost : ∀ place entry, descend disk.root false (disk.startOf folder) folder.names ≠
      .arrived ⟨place, some entry⟩) {names : List Text} (taken : (inside folder names).IsTaken)
    (followLast : Bool) : IsLost (disk.locate followLast (inside folder names)) := by
  have outer :
      (∃ place, descend disk.root false (disk.startOf folder) folder.names =
        .arrived ⟨place, none⟩) ∨
      ∃ cause, cause ≠ .nameTooLong ∧
        descend disk.root false (disk.startOf folder) folder.names = .refused cause := by
    cases found : descend disk.root false (disk.startOf folder) folder.names with
    | arrived location =>
      obtain ⟨place, _ | entry⟩ := location
      · exact Or.inl ⟨place, rfl⟩
      · exact absurd found (lost place entry)
    | refused cause =>
      refine Or.inr ⟨cause, fun long => ?_, rfl⟩
      exact descend_ne_tooLong plain usable.names false (disk.startOf folder) (long ▸ found)
    | link folder target rest => exact absurd found (descend_ne_link plain _ _ _ _ _ _)
  have whole : (∃ place, descend disk.root false (disk.startOf folder) (folder.names ++ names) =
        .arrived ⟨place, none⟩) ∨
      ∃ cause, cause ≠ .nameTooLong ∧
        descend disk.root false (disk.startOf folder) (folder.names ++ names) = .refused cause := by
    by_cases last : names = []
    · rw [last, List.append_nil]
      exact outer
    · rw [descend_append plain begins folder.names last]
      rcases outer with ⟨place, found⟩ | ⟨cause, other, found⟩
      · exact Or.inr ⟨.notFound, DiskCause.noConfusion, by rw [found]⟩
      · exact Or.inr ⟨cause, other, by rw [found]⟩
  rw [locate_inside plain taken]
  rcases whole with ⟨place, found⟩ | ⟨cause, other, found⟩
  · exact Or.inl ⟨place, by rw [found]⟩
  · refine Or.inr ⟨cause, (inside folder names).text, other, ?_⟩
    rw [found]
    rfl

section

variable {view : View} {one two : Disk} {folder : Path} {names : List Text}

theorem View.IsReached.of_start (reached : view.IsReached one folder)
    (same : two.start = view.start) :
    view.IsReached two folder := by
  have begins : two.startOf folder = one.startOf folder := by
    rw [startOf, startOf, same, reached.start]
  refine ⟨same, reached.usable, ?_, ?_, ?_⟩
  · rw [begins]
    exact reached.begins
  · rw [placeOf, begins]
    exact reached.place
  · rw [placesPassed, begins]
    exact reached.way

/-- A path into the place passes places that are above it, below it or stay. -/
theorem View.IsReached.way_inside {disk : Disk} (reached : view.IsReached disk folder)
    (stays : StaysIn view.here names) :
    ∀ place ∈ disk.placesPassed (inside folder names) ++ [disk.placeOf (inside folder names)],
      place <+: view.here ∨ view.here <+: place ∨ view.kept place := by
  have passes : disk.placesPassed (inside folder names) ++ [disk.placeOf (inside folder names)] =
      disk.placesPassed folder ++ (passed view.here names ++ [destination view.here names]) := by
    rw [← reached.place, ← List.append_assoc]
    exact congrArg₂ (· ++ [·]) (passed_append _ _ _) (destination_append _ _ _)
  rw [passes]
  exact List.forall_mem_append.mpr
    ⟨reached.way, fun place member => Or.inr (Or.inl (stays place member))⟩

/-- A path into the place passes compared places only. -/
theorem View.IsReached.sees {disk : Disk} (reached : view.IsReached disk folder)
    (stays : StaysIn view.here names) :
    ∀ place ∈ disk.placesPassed (inside folder names) ++ [disk.placeOf (inside folder names)],
      view.Sees place := by
  intro place member
  rcases reached.way_inside stays place member with higher | seen
  · by_cases equal : place = view.here
    · exact Or.inl (equal ▸ List.prefix_rfl)
    · exact Or.inr (Or.inl (view.above place higher equal))
  · exact seen.imp_right Or.inr

/-- Where all folders above the place stay, the same is known of all places that a path into it
passes. -/
theorem View.IsReached.knows {disk : Disk} (reached : view.IsReached disk folder)
    (firm : view.IsFirm)
    (stays : StaysIn view.here names) :
    ∀ place ∈ disk.placesPassed (inside folder names) ++ [disk.placeOf (inside folder names)],
      view.Knows place := by
  intro place member
  rcases reached.way_inside stays place member with higher | seen
  · by_cases equal : place = view.here
    · exact Or.inl (equal ▸ List.prefix_rfl)
    · exact Or.inr (firm.above place higher equal)
  · exact seen

theorem isPrefix_placeOf_inside {disk : Disk} (reached : view.IsReached disk folder)
    (stays : StaysIn view.here names) : view.here <+: disk.placeOf (inside folder names) := by
  have place : disk.placeOf (inside folder names) = destination (disk.placeOf folder) names :=
    destination_append _ _ _
  rw [place, reached.place]
  exact stays _ (List.mem_append_right _ List.mem_cons_self)

/-- Names that pass known places only lead to the same on both disks, or to a folder that stays. -/
theorem Alike.descend_cases (alike : Alike view one two) {place : Place}
    (known : ∀ other ∈ passed place names ++ [destination place names], view.Knows other) :
    descend two.root false place names = descend one.root false place names ∨
      ∃ entries others,
        descend one.root false place names =
          .arrived ⟨destination place names, some (.folder entries)⟩ ∧
        descend two.root false place names =
          .arrived ⟨destination place names, some (.folder others)⟩ := by
  induction names generalizing place with
  | nil =>
    rw [descend_nil, descend_nil, destination_nil]
    rcases known place List.mem_cons_self with below | kept
    · exact Or.inl (by rw [alike.at?_eq below])
    · obtain ⟨⟨entries, first⟩, others, second⟩ := alike.folders place kept
      exact Or.inr ⟨entries, others, by rw [first], by rw [second]⟩
  | cons name rest inductionHypothesis =>
    have later : ∀ other ∈ passed
        (stepTo place name) rest ++ [destination (stepTo place name) rest],
        view.Knows other := fun other member => known other (List.mem_cons_of_mem _ member)
    have next := later _ (mem_passed_start _ rest)
    have both := inductionHypothesis later
    rw [destination_cons]
    by_cases dots : name = "..".toList
    · rw [dots, stepTo_dots] at both ⊢
      rw [descend_dots, descend_dots]
      exact both
    · rw [stepTo_of_ne dots] at both next ⊢
      rcases Nat.lt_or_ge longestName (Text.utf8 name).length with long | short
      · exact Or.inl (by rw [descend_tooLong dots long, descend_tooLong dots long])
      · rw [descend_short dots short, descend_short dots short]
        rcases next with below | kept
        · rw [alike.at?_eq below]
          split
          · exact Or.inl rfl
          · exact both
          · exact Or.inl rfl
          · exact Or.inl rfl
        · obtain ⟨⟨entries, first⟩, others, second⟩ := alike.folders _ kept
          rw [first, second]
          exact both

/-- Names that pass known places only and lead into the place are looked up alike. -/
theorem Alike.descend_eq (alike : Alike view one two) {place : Place}
    (known : ∀ other ∈ passed place names ++ [destination place names], view.Knows other)
    (below : view.here <+: destination place names) :
    descend two.root false place names = descend one.root false place names := by
  rcases alike.descend_cases known with same | ⟨entries, others, first, second⟩
  · exact same
  · have foundOne := (Location.mk.inj (descend_eq_arrived alike.plain.1 first).1).2
    have foundTwo := (Location.mk.inj (descend_eq_arrived alike.plain.2 second).1).2
    rw [first, second, foundOne, foundTwo, alike.at?_eq below]

/-- Where all folders above the place stay, a path into it is looked up alike on both disks. -/
theorem Alike.locate_eq (alike : Alike view one two) (reached : view.IsReached one folder)
    (firm : view.IsFirm) (stays : StaysIn view.here names) (followLast : Bool) :
    two.locate followLast (inside folder names) = one.locate followLast (inside folder names) := by
  by_cases taken : (inside folder names).IsTaken
  · have begins : two.startOf folder = one.startOf folder := alike.startOf folder
    have same := alike.descend_eq (reached.knows firm stays) (isPrefix_placeOf_inside reached stays)
    rw [locate_inside alike.plain.1 taken, locate_inside alike.plain.2 taken, begins]
    exact congrArg (fun descent : Descent => match descent with
      | .arrived location => Except.ok location
      | .refused cause => .error (refused (inside folder names) cause)
      | .link _ _ _ => .error (refused (inside folder names) .tooManyLinks)) same
  · obtain ⟨failure, -, refusal⟩ := exists_locate_eq_error taken
    rw [refusal, refusal]

/-- Where the place is found on one disk, it is found on the other. -/
theorem Alike.descend_found (alike : Alike view one two) (reached : view.IsReached one folder)
    (begins : view.kept (one.startOf folder)) {place : Place} {entry : Entry}
    (arrived : descend one.root false (one.startOf folder) folder.names =
      .arrived ⟨place, some entry⟩) :
    place = view.here ∧
      descend two.root false (two.startOf folder) folder.names = .arrived ⟨place, some entry⟩ := by
  obtain ⟨same, short, way⟩ := descend_eq_arrived alike.plain.1 arrived
  obtain ⟨rfl, found⟩ := Location.mk.inj same
  have here : destination (one.startOf folder) folder.names = view.here := reached.place
  rw [here] at found ⊢
  refine ⟨rfl, ?_⟩
  have present : two.root.at? view.here = some entry := alike.entry.trans found.symm
  -- The folders on the way that are above the place are there on both disks, as the place is.
  have through : ∀ above ∈ passed (two.startOf folder) folder.names,
      two.root.HasFolderAt above := by
    intro above member
    rw [alike.startOf] at member
    have folderOne : one.root.HasFolderAt above := by
      rcases way above member with folder | before
      · exact folder
      · exact Entry.hasFolderAt_of_isPrefix (alike.folders _ begins).1 before
    have shared (below : view.here <+: above) : two.root.HasFolderAt above := by
      obtain ⟨entries, there⟩ := folderOne
      exact ⟨entries, (alike.at?_eq below).trans there⟩
    rcases reached.way above member with higher | below | kept
    · by_cases equal : above = view.here
      · exact shared (equal ▸ List.prefix_rfl)
      · exact Entry.hasFolderAt_of_strictPrefix present higher equal
    · exact shared below
    · exact (alike.folders above kept).2
  rw [descend_of_way alike.plain.2 short through, alike.startOf, here, present]

/-- A path into the place is looked up alike on both disks, or it is found on neither. -/
theorem Alike.locate_cases (alike : Alike view one two) (reached : view.IsReached one folder)
    (stays : StaysIn view.here names) (followLast : Bool) :
    two.locate followLast (inside folder names) = one.locate followLast (inside folder names) ∨
      IsLost (one.locate followLast (inside folder names)) ∧
        IsLost (two.locate followLast (inside folder names)) := by
  rcases reached.begins with begins | ⟨-, firm⟩
  · by_cases taken : (inside folder names).IsTaken
    · have beginsTwo : view.kept (two.startOf folder) := alike.startOf folder ▸ begins
      by_cases found : ∃ place entry, descend one.root false (one.startOf folder) folder.names =
          .arrived ⟨place, some entry⟩
      · obtain ⟨place, entry, arrived⟩ := found
        obtain ⟨rfl, again⟩ := alike.descend_found reached begins arrived
        have whole : descend two.root false (two.startOf folder) (folder.names ++ names) =
            descend one.root false (one.startOf folder) (folder.names ++ names) := by
          by_cases last : names = []
          · rw [last, List.append_nil, arrived, again]
          · rw [descend_append alike.plain.1 (alike.folders _ begins).1 _ last,
              descend_append alike.plain.2 (alike.folders _ beginsTwo).2 _ last, arrived, again]
            cases entry with
            | folder entries =>
              exact alike.descend_eq (fun other member => Or.inl (stays other member))
                (stays _ (List.mem_append_right _ List.mem_cons_self))
            | file bytes | link target => rfl
        rw [locate_inside alike.plain.1 taken, locate_inside alike.plain.2 taken, whole]
        exact Or.inl rfl
      · refine Or.inr ⟨isLost_locate alike.plain.1 (alike.folders _ begins).1 reached.usable
          (fun place entry arrived => found ⟨place, entry, arrived⟩) taken followLast,
          isLost_locate alike.plain.2 (alike.folders _ beginsTwo).2 reached.usable
            (fun place entry arrived => found ⟨place, entry, ?_⟩) taken followLast⟩
        exact (alike.symm.descend_found (reached.of_start alike.starts.2) beginsTwo arrived).2
    · obtain ⟨failure, -, refusal⟩ := exists_locate_eq_error taken
      rw [refusal, refusal]
      exact Or.inl rfl
  · exact Or.inl (alike.locate_eq reached firm stays followLast)

/-! ### Questions -/

theorem entryAt_of_isLost {disk : Disk} {path : Path} (lost : IsLost (disk.locate true path)) :
    disk.entryAt path = .ok none := by
  unfold entryAt
  rcases lost with ⟨place, found⟩ | ⟨cause, text, other, refused⟩
  · rw [found]
  · rw [refused]
    cases cause with
    | nameTooLong => exact absurd rfl other
    | _ => rfl

theorem Alike.entryAt_eq (alike : Alike view one two) (reached : view.IsReached one folder)
    (stays : StaysIn view.here names) :
    two.entryAt (inside folder names) = one.entryAt (inside folder names) := by
  rcases alike.locate_cases reached stays true with same | ⟨lostOne, lostTwo⟩
  · rw [entryAt, entryAt, same]
  · rw [entryAt_of_isLost lostOne, entryAt_of_isLost lostTwo]

theorem Alike.isFile_eq (alike : Alike view one two) (reached : view.IsReached one folder)
    (stays : StaysIn view.here names) :
    two.isFile (inside folder names) = one.isFile (inside folder names) := by
  rw [isFile, isFile, alike.entryAt_eq reached stays]

theorem readBytes_of_isLost {disk : Disk} {path : Path} (lost : IsLost (disk.locate true path)) :
    ∃ fault, disk.readBytes path = .error (.disk fault) := by
  unfold readBytes
  rcases lost with ⟨place, found⟩ | ⟨cause, text, -, refused⟩
  · rw [found]
    exact ⟨_, rfl⟩
  · rw [refused]
    exact ⟨_, rfl⟩

theorem Alike.readText_follows (alike : Alike view one two) (reached : view.IsReached one folder)
    (stays : StaysIn view.here names) :
    Failure.Follows Eq (one.readText (inside folder names))
      (two.readText (inside folder names)) := by
  have bytes : Failure.Follows Eq (one.readBytes (inside folder names))
      (two.readBytes (inside folder names)) := by
    rcases alike.locate_cases reached stays true with same | ⟨lostOne, lostTwo⟩
    · rw [show two.readBytes (inside folder names) = one.readBytes (inside folder names) by
        rw [readBytes, readBytes, same]]
      exact .refl _
    · obtain ⟨fault, refused⟩ := readBytes_of_isLost lostOne
      obtain ⟨other, again⟩ := readBytes_of_isLost lostTwo
      rw [refused, again]
      exact .refused fault other
  refine bytes.bind fun first second same => ?_
  rw [same]
  exact .refl _

/-! ### Changes in the place -/

/-- Removing the same from both disks keeps them alike. -/
theorem Alike.remove (alike : Alike view one two) {place : Place} (below : view.here <+: place) :
    Alike view { one with root := one.root.remove place }
      { two with root := two.root.remove place } := by
  have away {other : Place} (seen : view.way other ∨ view.kept other) : ¬ place <+: other :=
    fun under => view.apart other seen (below.trans under)
  have keeps {disk : Disk} (plain : disk.root.IsPlain) :
      Keeps view.kept disk { disk with root := disk.root.remove place } :=
    ⟨rfl, plain.remove place, fun other kept present =>
      Entry.hasFolderAt_remove_of_not_isPrefix (away (Or.inr kept)) present⟩
  have files {disk : Disk} (other : Place) (seen : view.way other) :
      (disk.root.remove place).fileAt? other = disk.root.fileAt? other := by
    have outside := away (Or.inl seen)
    have proper : place ≠ [] := fun top => outside (top ▸ List.nil_prefix)
    rw [Entry.fileAt?_remove other proper, if_neg outside]
  refine alike.change (keeps alike.plain.1) (keeps alike.plain.2) files files ?_
  obtain ⟨inner, rfl⟩ := below
  exact Entry.at?_remove_congr alike.entry inner

theorem isPrefix_dropLast {above place : Place} (below : above <+: place) :
    above.dropLast <+: place.dropLast := by
  obtain ⟨inner, rfl⟩ := below
  rcases List.eq_nil_or_concat inner with rfl | ⟨front, last, rfl⟩
  · rw [List.append_nil]
  · rw [List.concat_eq_append, ← List.append_assoc, List.dropLast_concat]
    exact (List.dropLast_prefix _).trans (List.prefix_append _ _)

/-- Putting the same on both disks keeps them alike, given that nothing but folders is above the
place of the view. -/
theorem Alike.put (alike : Alike view one two) {place : Place} (below : view.here <+: place)
    {new : Entry} (fresh : new.IsPlain) (clearOne : one.root.IsClear view.here.dropLast)
    (clearTwo : two.root.IsClear view.here.dropLast) :
    Alike view { one with root := one.root.put place new }
      { two with root := two.root.put place new } := by
  have away {other : Place} (seen : view.way other ∨ view.kept other) : ¬ place <+: other :=
    fun under => view.apart other seen (below.trans under)
  have keeps {disk : Disk} (plain : disk.root.IsPlain) :
      Keeps view.kept disk { disk with root := disk.root.put place new } :=
    ⟨rfl, plain.put fresh place, fun other kept present =>
      Entry.hasFolderAt_put_of_not_isPrefix new (away (Or.inr kept)) present⟩
  have files {disk : Disk} (other : Place) (seen : view.way other) :
      (disk.root.put place new).fileAt? other = disk.root.fileAt? other :=
    Entry.fileAt?_put_of_not_isPrefix new (away (Or.inl seen))
  refine alike.change (keeps alike.plain.1) (keeps alike.plain.2) files files ?_
  obtain ⟨inner, rfl⟩ := below
  exact Entry.at?_put_congr alike.entry clearTwo clearOne inner new

theorem removeFile_of_isLost {disk : Disk} {path : Path} (lost : IsLost (disk.locate false path)) :
    ∃ fault, disk.removeFile path = .error (.disk fault) := by
  unfold removeFile
  rcases lost with ⟨place, found⟩ | ⟨cause, text, -, refused⟩
  · rw [found]
    exact ⟨_, rfl⟩
  · rw [refused]
    exact ⟨_, rfl⟩

theorem Alike.removeFile_follows (alike : Alike view one two) (reached : view.IsReached one folder)
    (stays : StaysIn view.here names) :
    Failure.Follows (Alike view) (one.removeFile (inside folder names))
      (two.removeFile (inside folder names)) := by
  rcases alike.locate_cases reached stays false with same | ⟨lostOne, lostTwo⟩
  · rw [removeFile, removeFile, same]
    cases located : one.locate false (inside folder names) with
    | error failure => exact .of_error failure
    | ok location =>
      obtain ⟨rfl, -⟩ := locate_eq_ok alike.plain.1 located
      dsimp only [bind, Except.bind]
      split
      · exact .refused _ _
      · exact .refused _ _
      · exact .both (alike.remove (isPrefix_placeOf_inside reached stays))
  · obtain ⟨fault, refused⟩ := removeFile_of_isLost lostOne
    obtain ⟨other, again⟩ := removeFile_of_isLost lostTwo
    rw [refused, again]
    exact .refused fault other

/-- A text is written to both disks or to none where its path is looked up alike. -/
theorem Alike.writeText_of_locate (alike : Alike view one two) {path : Path}
    (below : view.here <+: one.placeOf path) (clearOne : one.root.IsClear view.here.dropLast)
    (clearTwo : two.root.IsClear view.here.dropLast)
    (same : two.locate true path = one.locate true path) (text : Text) :
    Failure.Follows (Alike view) (one.writeText path text) (two.writeText path text) := by
  unfold writeText writeBytes
  rw [same]
  cases located : one.locate true path with
  | error failure => exact .of_error failure
  | ok location =>
    obtain ⟨rfl, -⟩ := locate_eq_ok alike.plain.1 located
    dsimp only [bind, Except.bind]
    split
    · exact .refused _ _
    · exact .both (alike.put below (.file _) clearOne clearTwo)

/-- A text is written to both disks or to none, once the folders on the way are there. -/
theorem Alike.writeText_follows (alike : Alike view one two)
    (reached : view.IsReached one folder) (begins : view.kept (one.startOf folder))
    (stays : StaysIn view.here names)
    (way : ∀ place ∈ one.placesPassed (inside folder names),
      one.root.HasFolderAt place ∧ two.root.HasFolderAt place) (text : Text) :
    Failure.Follows (Alike view) (one.writeText (inside folder names) text)
      (two.writeText (inside folder names) text) := by
  have below := isPrefix_placeOf_inside reached stays
  by_cases usable : (inside folder names).IsUsable
  · have canOne : one.CanFollow (inside folder names) :=
      ⟨usable, fun place member => (way place member).1⟩
    have canTwo : two.CanFollow (inside folder names) := by
      refine ⟨usable, fun place member => (way place ?_).2⟩
      rwa [alike.placesPassed] at member
    have start := alike.folders _ begins
    have clearOne := isClear_destination (fun place member => Or.inl (canOne.way place member))
      (.of_hasFolderAt start.1)
    have clearTwo := isClear_destination (fun place member => Or.inl (canTwo.way place member))
      (.of_hasFolderAt (alike.startOf (inside folder names) ▸ start.2))
    rw [alike.startOf] at clearTwo
    refine alike.writeText_of_locate below (clearOne.of_isPrefix (isPrefix_dropLast below))
      (clearTwo.of_isPrefix (isPrefix_dropLast below)) ?_ text
    rw [canOne.locate_eq alike.plain.1, canTwo.locate_eq alike.plain.2, alike.placeOf,
      alike.at?_eq below]
  · -- A path that is not usable for its last name is refused by both disks.
    have unfound {disk : Disk} (plain : disk.root.IsPlain) {location : Location} :
        disk.locate true (inside folder names) ≠ .ok location :=
      fun located => usable (locate_eq_ok plain located).2.usable
    unfold writeText writeBytes
    rcases alike.locate_cases reached stays true with same | ⟨lostOne, lostTwo⟩
    · rw [same]
      cases located : one.locate true (inside folder names) with
      | error failure => exact .of_error failure
      | ok location => exact absurd located (unfound alike.plain.1)
    · obtain ⟨cause, text, -, refused⟩ :=
        lostOne.resolve_left fun ⟨_, found⟩ => unfound alike.plain.1 found
      obtain ⟨other, message, -, again⟩ :=
        lostTwo.resolve_left fun ⟨_, found⟩ => unfound alike.plain.2 found
      rw [refused, again]
      exact .refused _ _

theorem removeFolder_of_isLost {disk : Disk} {path : Path}
    (lost : IsLost (disk.locate false path)) :
    ∃ failure, disk.removeFolder path = .error failure := by
  unfold removeFolder
  rcases lost with ⟨place, found⟩ | ⟨cause, text, -, refused⟩
  · rw [found]
    exact ⟨_, rfl⟩
  · rw [refused]
    exact ⟨_, rfl⟩

theorem Alike.removeFolder_cases (alike : Alike view one two) (reached : view.IsReached one folder)
    (stays : StaysIn view.here names) :
    (∃ left right, one.removeFolder (inside folder names) = .ok left ∧
        two.removeFolder (inside folder names) = .ok right ∧ Alike view left right) ∨
      (∃ failure, one.removeFolder (inside folder names) = .error failure) ∧
        ∃ failure, two.removeFolder (inside folder names) = .error failure := by
  rcases alike.locate_cases reached stays false with same | ⟨lostOne, lostTwo⟩
  · rw [removeFolder, removeFolder, same]
    cases located : one.locate false (inside folder names) with
    | error failure => exact Or.inr ⟨⟨_, rfl⟩, ⟨_, rfl⟩⟩
    | ok location =>
      obtain ⟨rfl, -⟩ := locate_eq_ok alike.plain.1 located
      dsimp only [bind, Except.bind]
      split
      · exact Or.inr ⟨⟨_, rfl⟩, ⟨_, rfl⟩⟩
      · split
        · exact Or.inl ⟨_, _, rfl, rfl, alike.remove (isPrefix_placeOf_inside reached stays)⟩
        · exact Or.inr ⟨⟨_, rfl⟩, ⟨_, rfl⟩⟩
      · exact Or.inr ⟨⟨_, rfl⟩, ⟨_, rfl⟩⟩
      · exact Or.inr ⟨⟨_, rfl⟩, ⟨_, rfl⟩⟩
  · exact Or.inr ⟨removeFolder_of_isLost lostOne, removeFolder_of_isLost lostTwo⟩

theorem inside_nil (folder : Path) : inside folder [] = folder := by
  rw [inside, List.append_nil]

theorem removeIfEmpty_of_isLost {disk : Disk} (plain : disk.root.IsPlain) {path : Path}
    (lost : IsLost (disk.locate true path)) (inner : Place) :
    removeIfEmpty path disk inner = disk := by
  rcases removeIfEmpty_cases plain path inner with same | ⟨empty, same⟩
  · exact same
  · rcases lost with ⟨place, found⟩ | ⟨cause, text, -, refused⟩
    · obtain ⟨rfl, absent⟩ := Location.mk.inj (locate_eq_ok plain found).1
      rw [Entry.at?_append, ← absent] at empty
      exact nomatch empty
    · rw [removeIfEmpty, refused]

/-- A folder inside of the place goes on both disks or stays on both. -/
theorem Alike.removeIfEmpty (alike : Alike view one two) (reached : view.IsReached one folder)
    (inner : Place) : Alike view (removeIfEmpty folder one inner)
    (removeIfEmpty folder two inner) := by
  have stays : StaysIn view.here [] := List.forall_mem_singleton.mpr List.prefix_rfl
  have found := alike.locate_cases reached stays true
  rw [inside_nil] at found
  rcases found with same | ⟨lostOne, lostTwo⟩
  · rw [Disk.removeIfEmpty, Disk.removeIfEmpty, same]
    cases located : one.locate true folder with
    | error failure => exact alike
    | ok location =>
      obtain ⟨rfl, -⟩ := locate_eq_ok alike.plain.1 located
      dsimp only
      rw [reached.place, alike.at?_eq (List.prefix_append _ inner)]
      rcases one.root.at? (view.here ++ inner) with _ | ⟨_ | _ | ⟨_ | _⟩⟩
      case some.folder.nil => exact alike.remove (List.prefix_append _ inner)
      all_goals exact alike
  · rw [removeIfEmpty_of_isLost alike.plain.1 lostOne,
      removeIfEmpty_of_isLost alike.plain.2 lostTwo]
    exact alike

/-- Empty folders inside of the place are taken away on both disks. -/
theorem Alike.sweep (alike : Alike view one two) (reached : view.IsReached one folder)
    (places : List Place) :
    Alike view (one.sweep folder places) (two.sweep folder places) := by
  induction places generalizing one two with
  | nil => exact alike
  | cons inner places inductionHypothesis =>
    have next := alike.removeIfEmpty reached inner
    exact inductionHypothesis next (reached.of_start next.starts.1)

/-- Pruning the folder of the place does the same to both disks. -/
theorem Alike.prune_follows (alike : Alike view one two) (reached : view.IsReached one folder) :
    Failure.Follows (fun left right : Bool × Disk => Alike view left.2 right.2) (one.prune folder)
      (two.prune folder) := by
  have stays : StaysIn view.here [] := List.forall_mem_singleton.mpr List.prefix_rfl
  have entry := alike.entryAt_eq reached stays
  rw [inside_nil] at entry
  have asked : two.isFolder folder = one.isFolder folder := by rw [isFolder, isFolder, entry]
  have placeTwo := (reached.of_start alike.starts.2).place
  cases present : one.isFolder folder with
  | error failure =>
    unfold prune
    rw [asked, present]
    exact .of_error failure
  | ok answer =>
    cases answer with
    | false =>
      unfold prune
      rw [asked, present]
      exact .both alike
    | true =>
      have places : two.innerFolders folder = one.innerFolders folder := by
        rw [innerFolders, innerFolders, placeTwo, reached.place, alike.entry]
      rw [prune_of_isFolder alike.plain.1 present,
        prune_of_isFolder alike.plain.2 (asked.trans present), places]
      have swept := alike.sweep reached (one.innerFolders folder)
      have last := swept.removeFolder_cases (reached.of_start swept.starts.1) stays
      rw [inside_nil] at last
      rcases last with ⟨left, right, first, second, after⟩ | ⟨⟨failure, first⟩, other, second⟩
      · rw [first, second]
        exact .both after
      · rw [first, second]
        exact .both swept

end

end Disk

end LuauReference
