/-
This file says where paths lead on a plain disk. Without links the place a path leads to depends on
its names only, and following the path succeeds exactly when its names are not too long and the
places it passes are folders. The places passed matter as much as the place reached: a path may
climb down into a folder and up again by two dots, and it leads nowhere as soon as that folder is
gone.

What is known of the place where a path begins is only what the disk tells: it is the one place on
the way that is never looked up.
-/

import LuauReference.Disk.Walk
import LuauReference.Proofs.Disk.Entry

namespace LuauReference

/-- Whether a disk takes a path at all: it has no null character, and neither it nor one of its
names is too long. -/
structure Path.IsUsable (path : Path) : Prop where
  noNull : '\x00' ∉ path.text
  short : (Text.utf8 path.text).length ≤ Disk.longestPath
  names : ∀ name ∈ path.names, name = "..".toList ∨ (Text.utf8 name).length ≤ Disk.longestName

/-- Whether a disk looks a path up at all, whatever its names are: its text has no null character
and is not too long. -/
structure Path.IsTaken (path : Path) : Prop where
  noNull : '\x00' ∉ path.text
  short : (Text.utf8 path.text).length ≤ Disk.longestPath

theorem Path.IsUsable.isTaken {path : Path} (usable : path.IsUsable) : path.IsTaken :=
  ⟨usable.noNull, usable.short⟩

namespace Disk

/-- The place that a single name leads to. -/
def stepTo (place : Place) (name : Text) : Place :=
  if name = "..".toList then place.dropLast else place ++ [name]

/-- The place that names lead to when there are no links. -/
def destination (place : Place) (names : List Text) : Place :=
  names.foldl stepTo place

/-- The places that names pass before the one they lead to. -/
def passed : Place → List Text → List Place
  | _, [] => []
  | place, name :: rest => place :: passed (stepTo place name) rest

/-- The place that a path leads to when there are no links. -/
def placeOf (disk : Disk) (path : Path) : Place :=
  destination (disk.startOf path) path.names

/-- The places that a path passes before the one it leads to. -/
def placesPassed (disk : Disk) (path : Path) : List Place :=
  passed (disk.startOf path) path.names

/-- What is known of a path that a disk has followed. -/
structure HasFollowed (disk : Disk) (path : Path) : Prop where
  usable : path.IsUsable
  way : ∀ place ∈ disk.placesPassed path,
    disk.root.HasFolderAt place ∨ place <+: disk.startOf path

/-- Whether a disk can follow a path: it takes the path, and the places that the path passes are
folders. -/
structure CanFollow (disk : Disk) (path : Path) : Prop where
  usable : path.IsUsable
  way : ∀ place ∈ disk.placesPassed path, disk.root.HasFolderAt place

/-- A path begins in a folder when those that are not absolute do. -/
theorem hasFolderAt_startOf {disk : Disk} (start : disk.root.HasFolderAt disk.start) (path : Path) :
    disk.root.HasFolderAt (disk.startOf path) := by
  unfold startOf
  split
  · exact Entry.hasFolderAt_of_isPrefix start List.nil_prefix
  · exact start

/-! ### Names -/

@[simp] theorem destination_nil (place : Place) : destination place [] = place := rfl

theorem destination_cons (place : Place) (name : Text) (rest : List Text) :
    destination place (name :: rest) = destination (stepTo place name) rest := rfl

theorem stepTo_dots (place : Place) : stepTo place "..".toList = place.dropLast :=
  if_pos rfl

theorem stepTo_of_ne {name : Text} (ordinary : name ≠ "..".toList) (place : Place) :
    stepTo place name = place ++ [name] :=
  if_neg ordinary

theorem destination_append (place : Place) (first second : List Text) :
    destination place (first ++ second) = destination (destination place first) second :=
  List.foldl_append

theorem passed_append (place : Place) (first second : List Text) :
    passed place (first ++ second) = passed place first ++ passed
      (destination place first) second := by
  induction first generalizing place with
  | nil => rfl
  | cons name rest inductionHypothesis =>
    rw [List.cons_append, passed, inductionHypothesis, passed, List.cons_append, destination_cons]

theorem mem_passed_start (place : Place) (names : List Text) :
    place ∈ passed place names ++ [destination place names] := by
  cases names with
  | nil => exact List.mem_cons_self
  | cons name rest => exact List.mem_cons_self

theorem startOf_mem_placesPassed {disk : Disk} {path : Path} (proper : path.names ≠ []) :
    disk.startOf path ∈ disk.placesPassed path := by
  obtain ⟨slashes, names⟩ := path
  obtain ⟨name, rest, rfl⟩ := List.exists_cons_of_ne_nil proper
  exact List.mem_cons_self

theorem destination_of_ordinary {names : List Text} (ordinary : "..".toList ∉ names)
    (place : Place) : destination place names = place ++ names := by
  induction names generalizing place with
  | nil => rw [destination_nil, List.append_nil]
  | cons name rest inductionHypothesis =>
    rw [List.mem_cons, not_or] at ordinary
    rw [destination_cons, stepTo_of_ne (Ne.symm ordinary.1), inductionHypothesis ordinary.2,
      List.append_assoc, List.singleton_append]

/-- Names that never lead up pass places strictly above the one they lead to. -/
theorem passed_of_ordinary {names : List Text} (ordinary : "..".toList ∉ names)
    {place above : Place}
    (member : above ∈ passed place names) : ∃ rest, rest ≠ [] ∧ above ++ rest = place ++ names := by
  induction names generalizing place with
  | nil => exact nomatch member
  | cons name rest inductionHypothesis =>
    rw [List.mem_cons, not_or] at ordinary
    rw [passed, stepTo_of_ne (Ne.symm ordinary.1)] at member
    rcases List.mem_cons.mp member with here | later
    · exact ⟨name :: rest, List.cons_ne_nil name rest, by rw [here]⟩
    · obtain ⟨more, proper, same⟩ := inductionHypothesis ordinary.2 later
      exact ⟨more, proper, by rw [same, List.append_assoc, List.singleton_append]⟩

/-- The places on the way to a path are those on the way to the folder above it and that folder. -/
theorem placesPassed_eq {disk : Disk} {path : Path} (proper : path.names ≠ []) :
    disk.placesPassed path = disk.placesPassed path.parent ++ [disk.placeOf path.parent] := by
  obtain ⟨slashes, names⟩ := path
  obtain ⟨outer, name, rfl⟩ := (List.eq_nil_or_concat names).resolve_left proper
  rw [List.concat_eq_append, Path.parent, List.dropLast_concat]
  exact passed_append _ _ _

theorem mem_way_parent {disk : Disk} {path : Path} {place : Place}
    (member : place ∈ disk.placesPassed path) :
    place ∈ disk.placesPassed path.parent ++ [disk.placeOf path.parent] := by
  rwa [← placesPassed_eq]
  rintro none
  rw [placesPassed, none] at member
  cases member

theorem mem_way_of_parent {disk : Disk} {path : Path} {place : Place}
    (member : place ∈ disk.placesPassed path.parent ++ [disk.placeOf path.parent]) :
    place ∈ disk.placesPassed path ++ [disk.placeOf path] := by
  by_cases proper : path.names = []
  · have same : path.parent = path := by
      obtain ⟨slashes, names⟩ := path
      obtain rfl : names = [] := proper
      rfl
    rwa [same] at member
  · rw [← placesPassed_eq proper] at member
    exact List.mem_append_left _ member

/-! ### Following names -/

theorem descend_nil (root : Entry) (followLast : Bool) (place : Place) :
    descend root followLast place [] = .arrived ⟨place, root.at? place⟩ := rfl

theorem descend_dots (root : Entry) (followLast : Bool) (place : Place) (rest : List Text) :
    descend root followLast place ("..".toList :: rest) =
      descend root followLast place.dropLast rest :=
  if_pos rfl

theorem descend_tooLong {name : Text} (ordinary : name ≠ "..".toList)
    (long : longestName < (Text.utf8 name).length) (root : Entry) (followLast : Bool)
    (place : Place) (rest : List Text) :
    descend root followLast place (name :: rest) = .refused .nameTooLong :=
  (if_neg ordinary).trans (if_pos long)

/-- A name that is not too long is looked up, and what it leads to says how the descent goes on. -/
theorem descend_short {name : Text} (ordinary : name ≠ "..".toList)
    (short : (Text.utf8 name).length ≤ longestName) (root : Entry) (followLast : Bool)
    (place : Place) (rest : List Text) :
    descend root followLast place (name :: rest) =
      match root.at? (place ++ [name]) with
      | none => if rest.isEmpty then .arrived ⟨place ++ [name], none⟩ else .refused .notFound
      | some (.folder _) => descend root followLast (place ++ [name]) rest
      | some (.file bytes) =>
        if rest.isEmpty then .arrived ⟨place ++ [name], some (.file bytes)⟩
        else .refused .notDirectory
      | some (.link target) =>
        if rest.isEmpty && !followLast then .arrived ⟨place ++ [name], some (.link target)⟩
        else .link place target rest :=
  (if_neg ordinary).trans (if_neg (Nat.not_lt.mpr short))

/-- The last name of a path is looked up and may lead to anything. -/
theorem descend_last {root : Entry} (plain : root.IsPlain) {name : Text}
    (ordinary : name ≠ "..".toList) (short : (Text.utf8 name).length ≤ longestName)
    (followLast : Bool) (place : Place) :
    descend root followLast place [name] =
      .arrived ⟨place ++ [name], root.at? (place ++ [name])⟩ := by
  rw [descend_short ordinary short]
  cases found : root.at? (place ++ [name]) with
  | none => rfl
  | some entry =>
    cases entry with
    | file bytes => rfl
    | folder entries => simp only [descend_nil, found]
    | link target => exact absurd found (plain.at?_ne_link _ target)

/-- Every other name has to lead to a folder. -/
theorem descend_next {root : Entry} (plain : root.IsPlain) {name : Text}
    (ordinary : name ≠ "..".toList) (short : (Text.utf8 name).length ≤ longestName)
    (followLast : Bool) (place : Place) {rest : List Text} (more : rest ≠ []) :
    descend root followLast place (name :: rest) =
      match root.at? (place ++ [name]) with
      | some (.folder _) => descend root followLast (place ++ [name]) rest
      | none => .refused .notFound
      | some _ => .refused .notDirectory := by
  have unfinished : rest.isEmpty = false := by simpa using more
  rw [descend_short ordinary short, unfinished]
  cases found : root.at? (place ++ [name]) with
  | none => rfl
  | some entry =>
    cases entry with
    | file bytes | folder entries => rfl
    | link target => exact absurd found (plain.at?_ne_link _ target)

/-- A plain disk never stops at a link. -/
theorem descend_ne_link {root : Entry} (plain : root.IsPlain) (followLast : Bool) (place : Place)
    (names : List Text) (folder : Place) (target : Text) (left : List Text) :
    descend root followLast place names ≠ .link folder target left := by
  induction names generalizing place with
  | nil => simp [descend_nil]
  | cons name rest inductionHypothesis =>
    by_cases dots : name = "..".toList
    · rw [dots, descend_dots]
      exact inductionHypothesis place.dropLast
    · rcases Nat.lt_or_ge longestName (Text.utf8 name).length with long | short
      · simp [descend_tooLong dots long]
      · by_cases last : rest = []
        · simp [last, descend_last plain dots short]
        · rw [descend_next plain dots short followLast place last]
          split
          · exact inductionHypothesis _
          all_goals simp

/-- Names that a plain disk has followed lead to their place by folders, apart from the place where
they begin. -/
theorem descend_eq_arrived {root : Entry} (plain : root.IsPlain) {followLast : Bool} {place : Place}
    {names : List Text} {location : Location}
    (arrived : descend root followLast place names = .arrived location) :
    location = ⟨destination place names, root.at? (destination place names)⟩ ∧
      (∀ name ∈ names, name = "..".toList ∨ (Text.utf8 name).length ≤ longestName) ∧
      ∀ above ∈ passed place names, root.HasFolderAt above ∨ above <+: place := by
  induction names generalizing place with
  | nil =>
    rw [descend_nil, Descent.arrived.injEq] at arrived
    exact ⟨arrived.symm, List.forall_mem_nil _, List.forall_mem_nil _⟩
  | cons name rest inductionHypothesis =>
    rw [destination_cons, passed]
    simp only [List.forall_mem_cons]
    by_cases dots : name = "..".toList
    · rw [dots, descend_dots] at arrived
      obtain ⟨same, short, way⟩ := inductionHypothesis arrived
      rw [dots, stepTo_dots]
      refine ⟨same, ⟨Or.inl rfl, short⟩, Or.inr List.prefix_rfl, fun above member => ?_⟩
      exact (way above member).imp_right fun below => below.trans (List.dropLast_prefix place)
    · rw [stepTo_of_ne dots]
      rcases Nat.lt_or_ge longestName (Text.utf8 name).length with long | short
      · rw [descend_tooLong dots long] at arrived
        exact nomatch arrived
      · by_cases last : rest = []
        · rw [last, descend_last plain dots short, Descent.arrived.injEq] at arrived
          rw [last]
          exact ⟨arrived.symm, ⟨Or.inr short, List.forall_mem_nil _⟩, Or.inr List.prefix_rfl,
            List.forall_mem_nil _⟩
        · rw [descend_next plain dots short followLast place last] at arrived
          split at arrived
          · next entries present =>
            obtain ⟨same, others, way⟩ := inductionHypothesis arrived
            refine ⟨same, ⟨Or.inr short, others⟩, Or.inr List.prefix_rfl, fun above member => ?_⟩
            rcases way above member with folder | below
            · exact Or.inl folder
            · rcases List.prefix_concat_iff.mp below with here | shorter
              · exact Or.inl ⟨entries, here ▸ present⟩
              · exact Or.inr shorter
          all_goals exact nomatch arrived

/-- Names that are short enough and pass folders only are followed. -/
theorem descend_of_way {root : Entry} (plain : root.IsPlain) {place : Place} {names : List Text}
    (short : ∀ name ∈ names, name = "..".toList ∨ (Text.utf8 name).length ≤ longestName)
    (way : ∀ above ∈ passed place names, root.HasFolderAt above) (followLast : Bool) :
    descend root followLast place names =
      .arrived ⟨destination place names, root.at? (destination place names)⟩ := by
  induction names generalizing place with
  | nil => rw [descend_nil, destination_nil]
  | cons name rest inductionHypothesis =>
    rw [List.forall_mem_cons] at short
    rw [passed, List.forall_mem_cons] at way
    rw [destination_cons]
    by_cases dots : name = "..".toList
    · rw [dots, stepTo_dots] at way ⊢
      rw [descend_dots, inductionHypothesis short.2 way.2]
    · have fits := short.1.resolve_left dots
      rw [stepTo_of_ne dots] at way ⊢
      by_cases last : rest = []
      · rw [last, descend_last plain dots fits, destination_nil]
      · obtain ⟨next, more, rfl⟩ := List.exists_cons_of_ne_nil last
        obtain ⟨entries, present⟩ := way.2 (place ++ [name]) List.mem_cons_self
        rw [descend_next plain dots fits followLast place last, present]
        exact inductionHypothesis short.2 way.2

/-- It makes no difference on a plain disk whether the last name is followed. -/
theorem descend_followLast {root : Entry} (plain : root.IsPlain) (followLast : Bool) (place : Place)
    (names : List Text) : descend root followLast place names = descend root false place names := by
  induction names generalizing place with
  | nil => rw [descend_nil, descend_nil]
  | cons name rest inductionHypothesis =>
    by_cases dots : name = "..".toList
    · rw [dots, descend_dots, descend_dots, inductionHypothesis]
    · rcases Nat.lt_or_ge longestName (Text.utf8 name).length with long | short
      · rw [descend_tooLong dots long, descend_tooLong dots long]
      · by_cases last : rest = []
        · rw [last, descend_last plain dots short, descend_last plain dots short]
        · rw [descend_next plain dots short followLast place last,
            descend_next plain dots short false place last]
          simp only [inductionHypothesis]

/-- Further names are looked up from the folder that the names before them lead to. -/
theorem descend_append {root : Entry} (plain : root.IsPlain) {place : Place}
    (begins : root.HasFolderAt place) (names : List Text) {more : List Text} (proper : more ≠ [])
    (followLast : Bool) :
    descend root followLast place (names ++ more) =
      match descend root false place names with
      | .arrived ⟨above, some (.folder _)⟩ => descend root followLast above more
      | .arrived ⟨_, none⟩ => .refused .notFound
      | .arrived ⟨_, some _⟩ => .refused .notDirectory
      | stopped => stopped := by
  induction names generalizing place with
  | nil =>
    obtain ⟨entries, found⟩ := begins
    rw [descend_nil, found, List.nil_append]
  | cons name rest inductionHypothesis =>
    rw [List.cons_append]
    by_cases dots : name = "..".toList
    · rw [dots, descend_dots, descend_dots]
      exact inductionHypothesis (Entry.hasFolderAt_of_isPrefix begins (List.dropLast_prefix place))
    · rcases Nat.lt_or_ge longestName (Text.utf8 name).length with long | short
      · rw [descend_tooLong dots long, descend_tooLong dots long]
      · rw [descend_next plain dots short followLast place
          (List.append_ne_nil_of_right_ne_nil rest proper)]
        by_cases last : rest = []
        · rw [last, descend_last plain dots short, List.nil_append]
          rcases root.at? (place ++ [name]) with _ | ⟨_ | _ | _⟩ <;> rfl
        · rw [descend_next plain dots short false place last]
          cases found : root.at? (place ++ [name]) with
          | none => rfl
          | some entry =>
            cases entry with
            | file bytes | link target => rfl
            | folder entries => exact inductionHypothesis ⟨entries, found⟩

/-- The way to the place that a disk has found is clear when it is clear to the place where the
names begin. -/
theorem isClear_destination {root : Entry} {place : Place} {names : List Text}
    (way : ∀ above ∈ passed place names, root.HasFolderAt above ∨ above <+: place)
    (clear : root.IsClear place) : root.IsClear (destination place names).dropLast := by
  rcases List.eq_nil_or_concat names with rfl | ⟨first, name, rfl⟩
  · exact clear.of_isPrefix (List.dropLast_prefix place)
  · rw [List.concat_eq_append, destination_append]
    rw [List.concat_eq_append, passed_append] at way
    have here : root.IsClear (destination place first) := by
      rcases way _ (List.mem_append_right _ List.mem_cons_self) with folder | below
      · exact .of_hasFolderAt folder
      · exact clear.of_isPrefix below
    refine here.of_isPrefix ?_
    rw [destination_cons, destination_nil, stepTo]
    split
    · exact (List.dropLast_prefix _).trans (List.dropLast_prefix _)
    · rw [List.dropLast_concat]

/-- Names that are short enough are never refused as too long. -/
theorem descend_ne_tooLong {root : Entry} (plain : root.IsPlain) {names : List Text}
    (short : ∀ name ∈ names, name = "..".toList ∨ (Text.utf8 name).length ≤ longestName)
    (followLast : Bool) (place : Place) :
    descend root followLast place names ≠ .refused .nameTooLong := by
  induction names generalizing place with
  | nil => simp [descend_nil]
  | cons name rest inductionHypothesis =>
    rw [List.forall_mem_cons] at short
    by_cases dots : name = "..".toList
    · rw [dots, descend_dots]
      exact inductionHypothesis short.2 place.dropLast
    · have fits := short.1.resolve_left dots
      by_cases last : rest = []
      · simp [last, descend_last plain dots fits]
      · rw [descend_next plain dots fits followLast place last]
        split
        · exact inductionHypothesis short.2 _
        all_goals simp

/-! ### Following paths -/

theorem follow_of_isPlain {root : Entry} (plain : root.IsPlain) (followLast : Bool) (links : Nat)
    (place : Place) (names : List Text) :
    follow root followLast links place names =
      match descend root followLast place names with
      | .arrived location => .ok location
      | .refused cause => .error cause
      | .link _ _ _ => .error .tooManyLinks := by
  rw [follow.eq_def]
  dsimp only
  cases found : descend root followLast place names with
  | arrived location => rfl
  | refused cause => rfl
  | link folder target left => exact absurd found (descend_ne_link plain _ _ _ _ _ _)

/-- A path whose text a disk takes is looked up name by name. -/
theorem locate_of_isTaken {disk : Disk} (plain : disk.root.IsPlain) {path : Path}
    (taken : path.IsTaken) (followLast : Bool) :
    disk.locate followLast path =
      match descend disk.root false (disk.startOf path) path.names with
      | .arrived location => .ok location
      | .refused cause => .error (refused path cause)
      | .link _ _ _ => .error (refused path .tooManyLinks) := by
  unfold locate
  rw [if_neg (by simpa using taken.noNull), if_neg (Nat.not_lt.mpr taken.short),
    follow_of_isPlain plain, descend_followLast plain]
  cases descend disk.root false (disk.startOf path) path.names <;> rfl

/-- A path that a plain disk has followed leads to its place, and the disk says what is there. -/
theorem locate_eq_ok {disk : Disk} (plain : disk.root.IsPlain) {followLast : Bool} {path : Path}
    {location : Location} (located : disk.locate followLast path = .ok location) :
    location = ⟨disk.placeOf path, disk.root.at? (disk.placeOf path)⟩ ∧ disk.HasFollowed path := by
  unfold locate at located
  split at located
  · exact nomatch located
  · next noNull =>
    split at located
    · exact nomatch located
    · next short =>
      rw [follow_of_isPlain plain] at located
      split at located
      · next found followed =>
        split at followed
        · next arrived =>
          obtain ⟨same, names, way⟩ := descend_eq_arrived plain arrived
          refine ⟨?_, ⟨?_, Nat.le_of_not_lt short, names⟩, way⟩
          · rw [← Except.ok.inj located, ← Except.ok.inj followed, same]
            rfl
          · simpa using noNull
        all_goals exact nomatch followed
      · exact nomatch located

/-- A path that a disk takes and that passes folders only is followed. -/
theorem locate_of_way {disk : Disk} (plain : disk.root.IsPlain) {path : Path}
    (usable : path.IsUsable) (way : ∀ place ∈ disk.placesPassed path, disk.root.HasFolderAt place)
    (followLast : Bool) :
    disk.locate followLast path = .ok ⟨disk.placeOf path, disk.root.at? (disk.placeOf path)⟩ := by
  unfold locate
  rw [if_neg (by simpa using usable.noNull), if_neg (Nat.not_lt.mpr usable.short),
    follow_of_isPlain plain, descend_of_way plain usable.names way]
  rfl

theorem CanFollow.locate_eq {disk : Disk} {path : Path} (can : disk.CanFollow path)
    (plain : disk.root.IsPlain) (followLast : Bool) :
    disk.locate followLast path = .ok ⟨disk.placeOf path, disk.root.at? (disk.placeOf path)⟩ :=
  locate_of_way plain can.usable can.way followLast

/-- A path that a plain disk takes is never refused as too long. -/
theorem locate_ne_tooLong {disk : Disk} (plain : disk.root.IsPlain) {path : Path}
    (usable : path.IsUsable) (followLast : Bool) (text : Text) :
    disk.locate followLast path ≠ .error (.disk ⟨.nameTooLong, text⟩) := by
  have found := descend_ne_tooLong plain usable.names followLast (disk.startOf path)
  unfold locate
  rw [if_neg (by simpa using usable.noNull), if_neg (Nat.not_lt.mpr usable.short),
    follow_of_isPlain plain]
  split
  · simp
  · next cause refused =>
    split at refused
    · exact nomatch refused
    · next names =>
      obtain rfl := Except.error.inj refused
      intro same
      rw [Disk.refused, Except.error.injEq, Failure.disk.injEq, DiskFault.mk.injEq] at same
      exact found (same.1 ▸ names)
    · obtain rfl := Except.error.inj refused
      simp [Disk.refused]

/-- Where a path can be followed, so can that of the folder above, and it leads to a folder. -/
theorem CanFollow.parent {disk : Disk} {path : Path} (can : disk.CanFollow path)
    (proper : path.names ≠ []) (usable : path.parent.IsUsable) :
    disk.CanFollow path.parent ∧ disk.root.HasFolderAt (disk.placeOf path.parent) := by
  obtain ⟨slashes, names⟩ := path
  obtain ⟨above, name, rfl⟩ := (List.eq_nil_or_concat names).resolve_left proper
  rw [List.concat_eq_append] at can usable ⊢
  have way : ∀ place ∈ disk.placesPassed (Path.parent ⟨slashes, above ++ [name]⟩) ++
      [disk.placeOf (Path.parent ⟨slashes, above ++ [name]⟩)], disk.root.HasFolderAt place := by
    intro place member
    refine can.way place ?_
    rw [Path.parent, List.dropLast_concat] at member
    rw [placesPassed, passed_append]
    exact member
  exact ⟨⟨usable, fun place member => way place (List.mem_append_left _ member)⟩,
    way _ (List.mem_append_right _ List.mem_cons_self)⟩

theorem HasFollowed.isClear {disk : Disk} {path : Path} (followed : disk.HasFollowed path)
    (clear : disk.root.IsClear (disk.startOf path)) :
    disk.root.IsClear (disk.placeOf path).dropLast :=
  isClear_destination followed.way clear

end Disk

end LuauReference
