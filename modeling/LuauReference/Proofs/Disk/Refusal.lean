/-
This file says how the operations of a disk fail, for every disk, with links or without. A path that
holds a null character is no path and fails as such. For every other path there is a refusal, which
names the path and a cause, and only reading text can fail in yet another way.
-/

import LuauReference.Disk.Operation
import LuauReference.Proofs.Disk.Path
import LuauReference.Proofs.Failure

namespace LuauReference

open Failure

namespace Path

/-! ### Null characters -/

/-- A path holds a null character exactly when one of its names does. -/
theorem null_mem_text_iff {path : Path} :
    '\x00' ∈ path.text ↔ ∃ name ∈ path.names, '\x00' ∈ name := by
  have slashless : '\x00' ∉ ['/'] := by decide
  rw [text]
  split
  · next bare =>
    rw [List.isEmpty_iff.mp ((Bool.and_eq_true _ _).mp bare).2]
    decide
  · rw [List.mem_append, Text.mem_join_iff slashless]
    refine or_iff_right fun front => ?_
    exact absurd (List.eq_of_mem_replicate front) (by decide)

theorem null_notMem_parent {path : Path} (named : '\x00' ∉ path.text) :
    '\x00' ∉ path.parent.text := by
  rw [null_mem_text_iff] at named ⊢
  rintro ⟨name, above, held⟩
  exact named ⟨name, List.mem_of_mem_dropLast above, held⟩

theorem null_notMem_child {folder : Path} {path : Text} (canonical : IsCanonical path)
    (outer : '\x00' ∉ folder.text) (inner : '\x00' ∉ path) : '\x00' ∉ (folder.child path).text := by
  rw [null_mem_text_iff] at outer ⊢
  rw [child_of_isCanonical folder canonical]
  rintro ⟨name, listed, held⟩
  rcases List.mem_append.mp listed with above | below
  · exact outer ⟨name, above, held⟩
  · exact inner (Text.mem_of_mem_pieces below held).1

/-- The text of the folder above is that of the path up to its last slash, or a single dot. -/
theorem text_parent (path : Path) : path.parent.text = ['.'] ∨ path.parent.text <+: path.text := by
  obtain ⟨slashes, names⟩ := path
  rcases List.eq_nil_or_concat names with rfl | ⟨above, name, rfl⟩
  · exact Or.inr List.prefix_rfl
  · have whole : text ⟨slashes, above ++ [name]⟩ =
        List.replicate slashes '/' ++ Text.join ['/'] (above ++ [name]) := by
      rw [text, if_neg (by simp)]
    rw [List.concat_eq_append, parent, List.dropLast_concat, whole, text]
    split
    · exact Or.inl rfl
    · refine Or.inr ((List.prefix_append_right_inj _).mpr ?_)
      by_cases first : above = []
      · rw [first]
        exact List.nil_prefix
      · rw [Text.join_append first (List.cons_ne_nil name []), List.append_assoc]
        exact List.prefix_append _ _

/-- A path whose text a disk takes lies in a folder whose path has such a text as well. -/
theorem IsTaken.parent {path : Path} (taken : path.IsTaken) : path.parent.IsTaken where
  noNull := null_notMem_parent taken.noNull
  short := by
    rcases text_parent path with dot | ⟨rest, same⟩
    · rw [dot]
      decide
    · refine le_trans ?_ taken.short
      rw [← same, Text.utf8, Text.utf8, List.flatMap_append, List.length_append]
      exact Nat.le_add_right _ _

/-- A path that a disk takes lies in a folder whose path it takes as well. -/
theorem IsUsable.parent {path : Path} (usable : path.IsUsable) : path.parent.IsUsable where
  noNull := usable.isTaken.parent.noNull
  short := usable.isTaken.parent.short
  names name member := usable.names name (List.mem_of_mem_dropLast member)

/-! ### Texts of paths -/

/-- Different canonical paths have different texts in a folder. -/
theorem text_child_injective (folder : Path) {first second : Text} (one : IsCanonical first)
    (other : IsCanonical second) (same : (folder.child first).text = (folder.child second).text) :
    first = second := by
  have spelled {path : Text} (canonical : IsCanonical path) : (folder.child path).text =
      List.replicate folder.slashes '/' ++
        ((if folder.names = [] then [] else Text.join ['/'] folder.names ++ ['/']) ++ path) := by
    have present := Text.pieces_ne_nil '/' path
    rw [child_of_isCanonical folder canonical, text, if_neg (by simp [present])]
    dsimp only
    by_cases empty : folder.names = []
    · rw [empty, List.nil_append, Text.join_pieces, if_pos rfl, List.nil_append]
    · rw [Text.join_append empty present, Text.join_pieces, if_neg empty]
  rw [spelled one, spelled other] at same
  exact List.append_cancel_left (List.append_cancel_left same)

end Path

namespace Disk

variable {disk : Disk} {path : Path}

/-! ### Finding a place -/

theorem failsOnDisk_locate (named : '\x00' ∉ path.text) (followLast : Bool) :
    FailsOnDisk (disk.locate followLast path) := by
  unfold locate
  rw [if_neg (by simpa using named)]
  split
  · exact failsOnDisk_disk _
  · split
    · exact failsOnDisk_ok _
    · exact failsOnDisk_disk _

theorem locate_of_null (null : '\x00' ∈ path.text) (followLast : Bool) :
    disk.locate followLast path = .error .badValue := by
  rw [locate, if_pos (by simpa using null)]

/-! ### Questions -/

theorem failsOnDisk_entryAt : FailsOnDisk (disk.entryAt path) := by
  unfold entryAt
  split
  · exact failsOnDisk_ok _
  · exact failsOnDisk_disk _
  · exact failsOnDisk_ok _

theorem failsOnDisk_isFolder : FailsOnDisk (disk.isFolder path) :=
  failsOnDisk_entryAt.bind fun _ _ => failsOnDisk_ok _

theorem failsOnDisk_isFile : FailsOnDisk (disk.isFile path) :=
  failsOnDisk_entryAt.bind fun _ _ => failsOnDisk_ok _

theorem entryAt_eq_some_iff {entry : Entry} :
    disk.entryAt path = .ok (some entry) ↔
      ∃ place, disk.locate true path = .ok ⟨place, some entry⟩ := by
  unfold entryAt
  split
  · next location found =>
    obtain ⟨place, found⟩ := location
    rw [found]
    simp
  all_goals next refused => simp [refused]

theorem isFolder_eq_true_iff :
    disk.isFolder path = .ok true ↔
      ∃ place entries, disk.locate true path = .ok ⟨place, some (.folder entries)⟩ := by
  constructor
  · intro asked
    obtain ⟨found, looked, same⟩ := bind_eq_ok_iff.mp asked
    obtain ⟨entry, rfl, isFolder⟩ := (Option.any_eq_true _ _).mp (Except.ok.inj same)
    obtain ⟨place, located⟩ := entryAt_eq_some_iff.mp looked
    cases entry with
    | folder entries => exact ⟨place, entries, located⟩
    | file bytes | link target => exact nomatch isFolder
  · rintro ⟨place, entries, located⟩
    exact bind_eq_ok_iff.mpr ⟨_, entryAt_eq_some_iff.mpr ⟨place, located⟩, rfl⟩

/-! ### Files -/

theorem readBytes_eq_ok_iff {bytes : List UInt8} :
    disk.readBytes path = .ok bytes ↔
    ∃ place, disk.locate true path = .ok ⟨place, some (.file bytes)⟩ := by
  constructor
  · intro read
    obtain ⟨⟨place, found⟩, located, read⟩ := bind_eq_ok_iff.mp read
    dsimp only at read
    split at read
    · obtain rfl := Except.ok.inj read
      exact ⟨place, located⟩
    all_goals exact nomatch read
  · rintro ⟨place, located⟩
    exact bind_eq_ok_iff.mpr ⟨_, located, rfl⟩

/-- A file is found exactly when its bytes can be read. -/
theorem isFile_eq_true_iff : disk.isFile path = .ok true ↔
    ∃ bytes, disk.readBytes path = .ok bytes := by
  constructor
  · intro asked
    obtain ⟨found, looked, same⟩ := bind_eq_ok_iff.mp asked
    obtain ⟨entry, rfl, isFile⟩ := (Option.any_eq_true _ _).mp (Except.ok.inj same)
    cases entry with
    | file bytes => exact ⟨bytes, readBytes_eq_ok_iff.mpr (entryAt_eq_some_iff.mp looked)⟩
    | folder entries | link target => exact nomatch isFile
  · rintro ⟨bytes, read⟩
    exact bind_eq_ok_iff.mpr ⟨_, entryAt_eq_some_iff.mpr (readBytes_eq_ok_iff.mp read), rfl⟩

theorem null_notMem_of_readBytes {bytes : List UInt8} (read : disk.readBytes path = .ok bytes) :
    '\x00' ∉ path.text := by
  intro null
  obtain ⟨place, located⟩ := readBytes_eq_ok_iff.mp read
  exact nomatch (locate_of_null null true).symm.trans located

theorem readText_eq_ok_iff {text : Text} : disk.readText path = .ok text ↔
    ∃ bytes raw, disk.readBytes path = .ok bytes ∧ Text.ofUtf8? bytes = some raw ∧
      text = Text.plainNewlines raw := by
  constructor
  · intro read
    obtain ⟨bytes, found, read⟩ := bind_eq_ok_iff.mp read
    split at read
    · next raw decoded => exact ⟨bytes, raw, found, decoded, (Except.ok.inj read).symm⟩
    · exact nomatch read
  · rintro ⟨bytes, raw, found, decoded, rfl⟩
    refine bind_eq_ok_iff.mpr ⟨bytes, found, ?_⟩
    rw [decoded]
    rfl

theorem failsOnDisk_readBytes (named : '\x00' ∉ path.text) : FailsOnDisk (disk.readBytes path) := by
  refine (failsOnDisk_locate named true).bind fun location _ => ?_
  split
  · exact failsOnDisk_ok _
  all_goals exact failsOnDisk_disk _

/-- Reading text fails on the disk unless the bytes are no text. -/
theorem failsOnDisk_readText_iff (named : '\x00' ∉ path.text) : FailsOnDisk (disk.readText path) ↔
    ∀ bytes, disk.readBytes path = .ok bytes → (Text.ofUtf8? bytes).isSome := by
  unfold readText
  constructor
  · intro fails bytes read
    rw [read] at fails
    cases decoded : Text.ofUtf8? bytes with
    | some text => rfl
    | none =>
      obtain ⟨fault, same⟩ := fails .invalidUtf8 (by simp only [bind, Except.bind, decoded])
      exact nomatch same
  · intro texts
    refine (failsOnDisk_readBytes named).bind fun bytes read => ?_
    obtain ⟨text, decoded⟩ := Option.isSome_iff_exists.mp (texts bytes read)
    rw [decoded]
    exact failsOnDisk_ok _

theorem readText_of_null (null : '\x00' ∈ path.text) : disk.readText path = .error .badValue := by
  unfold readText readBytes
  rw [locate_of_null null]
  rfl

theorem failsOnDisk_writeText (named : '\x00' ∉ path.text) (text : Text) :
    FailsOnDisk (disk.writeText path text) := by
  refine (failsOnDisk_locate named true).bind fun location _ => ?_
  split
  · exact failsOnDisk_disk _
  · exact failsOnDisk_ok _

/-- Removing a file fails on the disk exactly when its path has no null character. -/
theorem failsOnDisk_removeFile_iff : FailsOnDisk (disk.removeFile path) ↔ '\x00' ∉ path.text := by
  unfold removeFile
  constructor
  · intro fails null
    rw [locate_of_null null] at fails
    obtain ⟨fault, same⟩ := fails .badValue rfl
    exact nomatch same
  · intro named
    refine (failsOnDisk_locate named false).bind fun location _ => ?_
    split
    · exact failsOnDisk_disk _
    · exact failsOnDisk_disk _
    · exact failsOnDisk_ok _

/-! ### Folders -/

theorem failsOnDisk_ensureFolder (named : '\x00' ∉ path.text) :
    FailsOnDisk (disk.ensureFolder path) := by
  have made : FailsOnDisk (disk.makeFolder path) := by
    refine (failsOnDisk_locate named false).bind fun location _ => ?_
    split
    · exact failsOnDisk_ok _
    · exact failsOnDisk_disk _
  unfold ensureFolder
  split
  · exact failsOnDisk_ok _
  · exact failsOnDisk_disk _
  · refine failsOnDisk_isFolder.bind fun present _ => ?_
    split
    · exact failsOnDisk_ok _
    · exact failsOnDisk_disk _
  · next failure _ other failed =>
    obtain ⟨fault, rfl⟩ := made _ failed
    exact absurd rfl (other fault)

theorem failsOnDisk_ensureFolders (named : '\x00' ∉ path.text) (above : Nat) :
    FailsOnDisk (disk.ensureFolders above path).1 := by
  induction above generalizing path with
  | zero =>
    rw [ensureFolders.eq_def]
    dsimp only
    split
    · exact failsOnDisk_ok _
    · exact failsOnDisk_disk _
    · next failure _ failed =>
      obtain ⟨fault, rfl⟩ := failsOnDisk_ensureFolder named _ failed
      exact failsOnDisk_disk fault
  | succ above inductionHypothesis =>
    have outer := inductionHypothesis (Path.null_notMem_parent named)
    rw [ensureFolders.eq_def]
    dsimp only
    split
    · exact failsOnDisk_ok _
    · split
      · next upper made =>
        split
        · exact failsOnDisk_ok _
        · next failure failed =>
          obtain ⟨fault, rfl⟩ := failsOnDisk_ensureFolder named _ failed
          exact failsOnDisk_disk fault
      · next failure _ refused =>
        rw [refused] at outer
        exact outer
    · next failure _ failed =>
      obtain ⟨fault, rfl⟩ := failsOnDisk_ensureFolder named _ failed
      exact failsOnDisk_disk fault

/-- Pruning returns exactly when the disk tells whether there is a folder. -/
theorem exists_prune_iff :
    (∃ result, disk.prune path = .ok result) ↔ ∃ present, disk.isFolder path = .ok present := by
  constructor
  · rintro ⟨result, pruned⟩
    obtain ⟨present, asked, _⟩ := bind_eq_ok_iff.mp pruned
    exact ⟨present, asked⟩
  · rintro ⟨present, asked⟩
    unfold prune
    rw [asked]
    cases present with
    | false => exact ⟨_, rfl⟩
    | true =>
      obtain ⟨place, entries, located⟩ := isFolder_eq_true_iff.mp asked
      rw [located]
      dsimp only [bind, Except.bind]
      split
      · next wrong => exact nomatch wrong
      · split <;> exact ⟨_, rfl⟩

end Disk

end LuauReference
