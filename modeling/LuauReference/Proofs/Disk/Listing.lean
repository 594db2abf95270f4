/-
This file treats disks that hold the same and list it in different orders. What stands at a place
counts without what is in it, since that stands at places of its own: a file with its bytes, a link
with its target, or a folder. Looking a path up asks for nothing else at any place, so a path leads
to the same on two disks that hold the same.

On plain disks nothing but the order is left to differ: the entries of a folder are the same but for
what is in them, one order being a permutation of the other.
-/

import LuauReference.Proofs.Disk.Refusal

namespace LuauReference

namespace Entry

/-- An entry without what is in it. -/
def outline : Entry → Entry
  | folder _ => folder []
  | file bytes => file bytes
  | link target => link target

@[simp] theorem isFolder_outline (entry : Entry) : entry.outline.isFolder = entry.isFolder := by
  cases entry <;> rfl

/-- Whether two trees have the same at every place. -/
def HoldsSame (root other : Entry) : Prop :=
  ∀ place, (other.at? place).map outline = (root.at? place).map outline

section

variable {root other : Entry} {place : Place}

theorem HoldsSame.refl (root : Entry) : root.HoldsSame root :=
  fun _ => rfl

theorem HoldsSame.symm (same : root.HoldsSame other) : other.HoldsSame root :=
  fun place => (same place).symm

/-- What stands at a place of one tree stands there in the other one, down to the last place inside
of it. -/
theorem HoldsSame.exists_at? (same : root.HoldsSame other) {entry : Entry}
    (found : root.at? place = some entry) : ∃ also, other.at? place = some also ∧
    entry.HoldsSame also := by
  have here := same place
  rw [found, Option.map_some] at here
  obtain ⟨also, there, -⟩ := Option.map_eq_some_iff.mp here
  refine ⟨also, there, fun inner => ?_⟩
  have below := same (place ++ inner)
  rwa [at?_append, at?_append, found, there, Option.bind_some, Option.bind_some] at below

theorem HoldsSame.outline_eq (same : root.HoldsSame other) : other.outline = root.outline := by
  have here := same []
  rw [at?_nil, at?_nil] at here
  exact Option.some.inj here

theorem HoldsSame.isFolder_eq (same : root.HoldsSame other) : other.isFolder = root.isFolder := by
  rw [← isFolder_outline, same.outline_eq, isFolder_outline]

theorem HoldsSame.file {bytes : List UInt8} (same : (Entry.file bytes).HoldsSame other) :
    other = .file bytes := by
  have seen := same.outline_eq
  cases other with
  | file also => exact seen
  | link target | folder entries => exact nomatch seen

theorem HoldsSame.link {target : Text} (same : (Entry.link target).HoldsSame other) :
    other = .link target := by
  have seen := same.outline_eq
  cases other with
  | link also => exact seen
  | file bytes | folder entries => exact nomatch seen

theorem HoldsSame.folder {entries : List (Text × Entry)}
    (same : (Entry.folder entries).HoldsSame other) :
    ∃ others, other = .folder others := by
  have seen := same.outline_eq
  cases other with
  | folder others => exact ⟨others, rfl⟩
  | file bytes | link target => exact nomatch seen

end

/-! ### Entries of a folder -/

/-- The entries of a folder without what is in them. -/
def outlines (entries : List (Text × Entry)) : List (Text × Entry) :=
  entries.map fun (name, entry) => (name, entry.outline)

theorem at?_singleton (entries : List (Text × Entry)) (name : Text) :
    (folder entries).at? [name] = Named.get? entries name := by
  rw [at?_cons, Entry.entries]
  cases Named.get? entries name <;> rfl

theorem mem_outlines_iff {entries : List (Text × Entry)} (distinct : (Named.names entries).Nodup)
    {name : Text} {entry : Entry} :
    (name, entry) ∈ outlines entries ↔ ((folder entries).at? [name]).map outline = some entry := by
  rw [at?_singleton, Option.map_eq_some_iff, outlines, List.mem_map]
  constructor
  · rintro ⟨⟨other, whole⟩, member, same⟩
    obtain ⟨rfl, seen⟩ := Prod.mk.inj same
    exact ⟨whole, Named.get?_of_mem distinct member, seen⟩
  · rintro ⟨whole, found, seen⟩
    exact ⟨(name, whole), Named.mem_of_get?_eq_some found, by rw [← seen]⟩

theorem nodup_outlines {entries : List (Text × Entry)} (distinct : (Named.names entries).Nodup) :
    (outlines entries).Nodup := by
  refine List.Nodup.of_map Prod.fst ?_
  rw [outlines, List.map_map]
  exact distinct

/-- Two folders that hold the same list it in some order each. -/
theorem HoldsSame.perm {entries others : List (Text × Entry)}
    (distinct : (Named.names entries).Nodup)
    (alsoDistinct : (Named.names others).Nodup)
    (same : (Entry.folder entries).HoldsSame (.folder others)) :
    (outlines others).Perm (outlines entries) := by
  refine (List.perm_ext_iff_of_nodup (nodup_outlines alsoDistinct) (nodup_outlines distinct)).mpr ?_
  rintro ⟨name, entry⟩
  rw [mem_outlines_iff distinct, mem_outlines_iff alsoDistinct, same]

theorem IsPlain.of_perm {entries others : List (Text × Entry)}
    (plain : (Entry.folder entries).IsPlain)
    (order : entries.Perm others) : (Entry.folder others).IsPlain := by
  cases plain with
  | folder distinct inner =>
    exact .folder ((order.map Prod.fst).nodup_iff.mp distinct)
      fun item member => inner item (order.mem_iff.mpr member)

/-- Listing the entries of a folder in another order changes nothing that it holds. -/
theorem holdsSame_of_perm {entries others : List (Text × Entry)}
    (distinct : (Named.names entries).Nodup)
    (order : entries.Perm others) : (Entry.folder entries).HoldsSame (.folder others) := by
  intro place
  cases place with
  | nil => rfl
  | cons name rest =>
    rw [at?_cons, at?_cons, Entry.entries, Entry.entries, Named.get?_of_perm order distinct]

/-- An entry of one folder is listed under its name in the other one as well. -/
theorem HoldsSame.exists_mem {entries others : List (Text × Entry)}
    (distinct : (Named.names entries).Nodup)
    (same : (Entry.folder entries).HoldsSame (.folder others)) {name : Text} {entry : Entry}
    (listed : (name, entry) ∈ entries) : ∃ also, (name, also) ∈ others ∧ entry.HoldsSame also := by
  have found : (Entry.folder entries).at? [name] = some entry := by
    rw [at?_singleton, Named.get?_of_mem distinct listed]
  obtain ⟨also, there, alike⟩ := same.exists_at? found
  rw [at?_singleton] at there
  exact ⟨also, Named.mem_of_get?_eq_some there, alike⟩

end Entry

namespace Disk

/-! ### Looking up -/

/-- Where a path leads, without what is in the entry there. -/
def Location.outline (location : Location) : Location :=
  ⟨location.place, location.found.map Entry.outline⟩

/-- Where names lead, without what is in the entry there. -/
def Descent.outline : Descent → Descent
  | arrived location => arrived location.outline
  | refused cause => refused cause
  | link folder target rest => link folder target rest

theorem outline_descend {root other : Entry} (same : root.HoldsSame other) (followLast : Bool)
    (place : Place)
    (names : List Text) :
    (descend other followLast place names).outline =
      (descend root followLast place names).outline := by
  induction names generalizing place with
  | nil =>
    rw [descend_nil, descend_nil, Descent.outline, Descent.outline, Location.outline,
      Location.outline, same]
  | cons name rest inductionHypothesis =>
    by_cases dots : name = "..".toList
    · rw [dots, descend_dots, descend_dots, inductionHypothesis]
    · rcases Nat.lt_or_ge longestName (Text.utf8 name).length with long | short
      · rw [descend_tooLong dots long, descend_tooLong dots long]
      · have here := same (place ++ [name])
        rw [descend_short dots short, descend_short dots short]
        -- What is asked at the next place is of what kind the entry is, and that is the same on
        -- both.
        cases found : root.at? (place ++ [name]) with
        | none =>
          rw [found, Option.map_none, Option.map_eq_none_iff] at here
          rw [here]
        | some entry =>
          obtain ⟨also, there, alike⟩ := same.exists_at? found
          cases entry with
          | file bytes => rw [there, alike.file]
          | link target => rw [there, alike.link]
          | folder entries =>
            obtain ⟨others, rfl⟩ := alike.folder
            rw [there]
            exact inductionHypothesis _

/-- Following goes on from what was found without what is in it. -/
theorem outline_follow (root : Entry) (followLast : Bool) (links : Nat) (place : Place)
    (names : List Text) :
    (follow root followLast links place names).map Location.outline =
      match (descend root followLast place names).outline, links with
      | .arrived location, _ => .ok location
      | .refused cause, _ => .error cause
      | .link _ _ _, 0 => .error .tooManyLinks
      | .link folder target rest, links + 1 =>
        (follow root followLast links (if (Path.read target).isAbsolute then [] else folder)
          ((Path.read target).names ++ rest)).map Location.outline := by
  rw [follow.eq_def]
  dsimp only
  cases descend root followLast place names with
  | arrived location | refused cause => rfl
  | link folder target rest => cases links <;> rfl

theorem outline_follow_eq {root other : Entry} (same : root.HoldsSame other) (followLast : Bool)
    (links : Nat)
    (place : Place) (names : List Text) :
    (follow other followLast links place names).map Location.outline =
      (follow root followLast links place names).map Location.outline := by
  induction links generalizing place names with
  | zero =>
    rw [outline_follow, outline_follow root, outline_descend same]
    cases (descend root followLast place names).outline <;> rfl
  | succ links inductionHypothesis =>
    rw [outline_follow, outline_follow root, outline_descend same]
    cases (descend root followLast place names).outline with
    | arrived location | refused cause => rfl
    | link folder target rest => exact inductionHypothesis _ _

variable {disk other : Disk}

/-- Whether two disks hold the same. -/
structure HoldsSame (disk other : Disk) : Prop where
  start : other.start = disk.start
  root : disk.root.HoldsSame other.root

theorem HoldsSame.refl (disk : Disk) : disk.HoldsSame disk :=
  ⟨rfl, .refl _⟩

theorem HoldsSame.startOf (same : disk.HoldsSame other) (path : Path) :
    other.startOf path = disk.startOf path := by
  rw [Disk.startOf, Disk.startOf, same.start]

theorem HoldsSame.placeOf (same : disk.HoldsSame other) (path : Path) :
    other.placeOf path = disk.placeOf path := by
  rw [Disk.placeOf, Disk.placeOf, same.startOf]

theorem HoldsSame.outline_locate (same : disk.HoldsSame other) (followLast : Bool) (path : Path) :
    (other.locate followLast path).map Location.outline =
      (disk.locate followLast path).map Location.outline := by
  have followed := outline_follow_eq same.root followLast mostLinks (disk.startOf path) path.names
  unfold locate
  rw [same.startOf]
  split
  · rfl
  · split
    · rfl
    · revert followed
      cases follow disk.root followLast mostLinks (disk.startOf path) path.names <;>
        cases follow other.root followLast mostLinks (disk.startOf path) path.names <;>
        simp +contextual [Except.map]

/-- A path leads to a folder on both of two disks that hold the same, or on none of them. -/
theorem HoldsSame.isFolder (same : disk.HoldsSame other) (path : Path) :
    other.isFolder path = disk.isFolder path := by
  have looked := same.outline_locate true path
  have kind (found : Option Entry) :
      found.any Entry.isFolder = (found.map Entry.outline).any Entry.isFolder := by
    cases found <;> simp
  unfold Disk.isFolder entryAt
  cases one : disk.locate true path with
  | error failure =>
    cases two : other.locate true path with
    | error also =>
      rw [one, two] at looked
      obtain rfl := Except.error.inj looked
      rfl
    | ok location => simp [one, two, Except.map] at looked
  | ok location =>
    cases two : other.locate true path with
    | error also => simp [one, two, Except.map] at looked
    | ok also =>
      rw [one, two] at looked
      have found := congrArg Location.found (Except.ok.inj looked)
      simp only [Location.outline] at found
      show Except.ok _ = Except.ok _
      rw [kind, found, ← kind]

end Disk

end LuauReference
