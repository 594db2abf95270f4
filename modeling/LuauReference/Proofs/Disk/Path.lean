/-
This file treats texts that write a path inside of a folder in the one plain way: names between
single slashes, none of them empty or made of dots. Two such texts that have the same names are
equal, so a place below a folder belongs to at most one of them, and the path of the text inside of
the folder is that of the folder with the names at its end.
-/

import LuauReference.Proofs.Disk.Walk
import LuauReference.Proofs.Text.Pieces

namespace LuauReference

namespace Path

/-- Whether a text writes a path inside of a folder plainly: no name is empty or made of one or two
dots, and there is no backslash. -/
structure IsCanonical (path : Text) : Prop where
  slashed : '\\' ∉ path
  names : ∀ name ∈ Text.pieces '/' path, name ≠ [] ∧ name ≠ ['.'] ∧ name ≠ "..".toList

instance (path : Text) : Decidable (IsCanonical path) :=
  decidable_of_iff ('\\' ∉ path ∧
      ∀ name ∈ Text.pieces '/' path, name ≠ [] ∧ name ≠ ['.'] ∧ name ≠ "..".toList)
    ⟨fun both => ⟨both.1, both.2⟩, fun canonical => ⟨canonical.slashed, canonical.names⟩⟩

/-- A canonical path begins with a character that is no slash. -/
theorem IsCanonical.exists_cons {path : Text} (canonical : IsCanonical path) :
    ∃ c rest, path = c :: rest ∧ c ≠ '/' := by
  cases path with
  | nil => exact absurd rfl (canonical.names [] List.mem_cons_self).1
  | cons c rest =>
    refine ⟨c, rest, rfl, ?_⟩
    rintro rfl
    have first : [] ∈ Text.pieces '/' ('/' :: rest) := by
      rw [Text.pieces, if_pos rfl]
      exact List.mem_cons_self
    exact absurd rfl (canonical.names [] first).1

theorem IsCanonical.dots_notMem {path : Text} (canonical : IsCanonical path) :
    "..".toList ∉ Text.pieces '/' path :=
  fun member => absurd rfl (canonical.names _ member).2.2

theorem read_of_isCanonical {path : Text} (canonical : IsCanonical path) :
    read path = ⟨0, Text.pieces '/' path⟩ := by
  obtain ⟨c, rest, same, plain⟩ := canonical.exists_cons
  have slashes : (path.takeWhile (· == '/')).length = 0 := by
    rw [same, List.takeWhile_cons_of_neg (by simpa using plain)]
    rfl
  have kept : (Text.pieces '/' path).filter (fun name => !name.isEmpty && name != ['.']) =
      Text.pieces '/' path := by
    refine List.filter_eq_self.mpr fun name member => ?_
    obtain ⟨filled, dotted, -⟩ := canonical.names name member
    simp [filled, dotted]
  rw [read, slashes, kept]
  rfl

theorem child_of_isCanonical (folder : Path) {path : Text} (canonical : IsCanonical path) :
    folder.child path = ⟨folder.slashes, folder.names ++ Text.pieces '/' path⟩ := by
  rw [child, read_of_isCanonical canonical, join]
  rfl

end Path

namespace Disk

variable (disk : Disk) (folder : Path) {path : Text} (canonical : Path.IsCanonical path)

include canonical

theorem startOf_child : disk.startOf (folder.child path) = disk.startOf folder := by
  rw [Path.child_of_isCanonical folder canonical]
  rfl

/-- A canonical path leads to its names below the folder. -/
theorem placeOf_child :
    disk.placeOf (folder.child path) = disk.placeOf folder ++ Text.pieces '/' path := by
  rw [placeOf, startOf_child disk folder canonical, Path.child_of_isCanonical folder canonical,
    destination_append, destination_of_ordinary canonical.dots_notMem]
  rfl

theorem placesPassed_child :
    disk.placesPassed (folder.child path) =
      disk.placesPassed folder ++ passed (disk.placeOf folder) (Text.pieces '/' path) := by
  rw [placesPassed, startOf_child disk folder canonical, Path.child_of_isCanonical folder canonical,
    passed_append]
  rfl

/-- The place of a canonical path is not that of the folder. -/
theorem placeOf_child_ne_nil : disk.placeOf (folder.child path) ≠ [] := by
  rw [placeOf_child disk folder canonical]
  exact List.append_ne_nil_of_right_ne_nil _ (Text.pieces_ne_nil '/' path)

end Disk

end LuauReference
