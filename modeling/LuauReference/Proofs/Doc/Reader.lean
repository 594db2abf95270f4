/-
This file proves what holds of the entries of every documentation block: a parameter has a name,
even if it is an empty one, and a type that is there is not empty. An entry is added by its tag,
which gives it its name and type, and the lines that continue it leave both as they are.
-/

import LuauReference.Doc.Reader
import Mathlib.Data.List.Basic

namespace LuauReference

namespace Doc

theorem ne_nil_of_nonEmpty? {s t : Text} (found : nonEmpty? s = some t) : t ≠ [] := by
  rw [nonEmpty?, Option.ite_none_left_eq_some] at found
  obtain ⟨present, same⟩ := found
  cases same
  exact fun empty => present (List.isEmpty_iff.mpr empty)

theorem nonEmpty?_of_ne_nil {s : Text} (present : s ≠ []) : nonEmpty? s = some s := by
  rw [nonEmpty?, List.isEmpty_eq_false_iff.mpr present, if_neg Bool.false_ne_true]

theorem nonEmpty?_ne (s : Text) : nonEmpty? s ≠ some [] := fun found =>
  ne_nil_of_nonEmpty? found rfl

theorem getD_nonEmpty? (s : Text) : (nonEmpty? s).getD [] = s := by
  cases s <;> rfl

/-! ### Entries of a record -/

/-- Whether the entries that a tag adds are fit to be shown: a parameter with a name, and no empty
type. -/
def Tag.IsSound : Tag → Prop
  | .param entry => entry.name.isSome ∧ entry.type ≠ some []
  | .returns entry => entry.type ≠ some []
  | _ => True

/-- Whether the entries of a record are fit to be shown. -/
structure Record.IsSound (record : Record) : Prop where
  params : ∀ entry ∈ record.params, entry.name.isSome ∧ entry.type ≠ some []
  returns : ∀ entry ∈ record.returns, entry.type ≠ some []

theorem type_entryOf (name : Option Text) (value : Text) : (entryOf name value).type ≠ some [] :=
  nonEmpty?_ne _

theorem Tag.isSound_of_read? {name value : Text} {tag : Tag}
    (found : Tag.read? name value = some tag) : tag.IsSound := by
  revert found
  fun_cases Tag.read? name value <;> rintro ⟨⟩
  case case10 => exact ⟨rfl, type_entryOf _ _⟩
  case case11 => exact type_entryOf _ _
  all_goals trivial

/-- Applying a tag to a record adds at most its own entry. -/
theorem Record.isSound_apply {tag : Tag} {record : Record} (sound : record.IsSound)
    (gives : tag.IsSound) : (tag.apply record).IsSound := by
  cases tag with
  | param entry =>
    refine ⟨?_, sound.returns⟩
    exact List.forall_mem_append.mpr ⟨sound.params, List.forall_mem_singleton.mpr gives⟩
  | returns entry =>
    refine ⟨sound.params, ?_⟩
    exact List.forall_mem_append.mpr ⟨sound.returns, List.forall_mem_singleton.mpr gives⟩
  | _ => exact ⟨sound.params, sound.returns⟩

/-- What holds of the names and types of entries holds of them after a line is added. -/
theorem forall_mem_extendLast (holds : Option Text → Option Text → Prop) {entries : List Entry}
    (line : Text) (before : ∀ entry ∈ entries, holds entry.name entry.type) :
    ∀ entry ∈ extendLast line entries, holds entry.name entry.type := by
  fun_induction extendLast line entries with
  | case1 => exact before
  | case2 last => exact List.forall_mem_singleton.mpr (before last List.mem_cons_self)
  | case3 entry next more inductionHypothesis =>
    obtain ⟨first, others⟩ := List.forall_mem_cons.mp before
    exact List.forall_mem_cons.mpr ⟨first, inductionHypothesis others⟩

theorem Record.isSound_extend {record : Record} (sound : record.IsSound) (line : Text)
    (place : Continuing) : (record.extend line place).IsSound := by
  cases place with
  | param =>
    exact ⟨forall_mem_extendLast (fun name type => name.isSome ∧ type ≠ some []) line sound.params,
      sound.returns⟩
  | returns =>
    exact ⟨sound.params, forall_mem_extendLast (fun _ type => type ≠ some []) line sound.returns⟩
  | error => exact ⟨sound.params, sound.returns⟩

/-! ### Reading a block -/

/-- Whether what holds of a record is kept by each way in which a line changes a record. -/
structure IsKeptByLines (holds : Record → Prop) : Prop where
  describe : ∀ record line, holds record →
    holds { record with description := record.description ++ [line] }
  extend : ∀ record line place, holds record → holds (record.extend line place)
  apply : ∀ record name value, ∀ tag ∈ Tag.read? name value, holds record → holds (tag.apply record)
  field : ∀ record value, holds record →
    holds { record with fields := record.fields ++ [fieldOf value] }

theorem IsKeptByLines.next {holds : Record → Prop} (kept : IsKeptByLines holds) {reading : Reading}
    (before : holds reading.record) (line : Text) : holds (reading.next line).record := by
  fun_cases Reading.next reading line with
  | case1 trimmed inFence describe inside => exact kept.describe _ _ before
  | case2 trimmed inFence outside place continues => exact kept.extend _ _ place before
  | case3 trimmed inFence outside ends tail marked tag read =>
    obtain ⟨⟨name, value⟩, parts, found⟩ := Option.bind_eq_some_iff.mp read
    exact kept.apply _ name value tag found before
  | case4 trimmed inFence outside ends tail marked unread => exact before
  | case5 trimmed inFence outside ends tail dotted field => exact kept.field _ _ before
  | case6 trimmed inFence describe outside ends unmarked undotted => exact kept.describe _ _ before

/-- What lines keep holds of the record of every block if it holds of the empty record. -/
theorem IsKeptByLines.read {holds : Record → Prop} (kept : IsKeptByLines holds) (empty : holds {})
    (content : List Text) : holds (read content) :=
  List.foldlRecOn (motive := fun reading => holds reading.record) _ Reading.next empty
    fun _ before line _ => kept.next before line

theorem isKeptByLines_isSound : IsKeptByLines Record.IsSound where
  describe _ _ sound := ⟨sound.params, sound.returns⟩
  extend _ line place sound := Record.isSound_extend sound line place
  apply _ _ _ _ found sound := Record.isSound_apply sound (Tag.isSound_of_read? found)
  field _ _ sound := ⟨sound.params, sound.returns⟩

/-- The record of every block is sound. -/
theorem isSound_read (content : List Text) : (read content).IsSound :=
  isKeptByLines_isSound.read ⟨List.forall_mem_nil _, List.forall_mem_nil _⟩ content

/-! ### Fields of a record -/

/-- Whether a field is what a text says about one. -/
def Field.IsRead (field : Field) : Prop :=
  ∃ value, field = fieldOf value

theorem isRead_of_read? {name value : Text} {field : Field}
    (found : Tag.read? name value = some (.field field)) : field.IsRead := by
  revert found
  fun_cases Tag.read? name value <;> rintro ⟨⟩
  exact ⟨_, rfl⟩

theorem fields_extend (record : Record) (line : Text) (place : Continuing) :
    (record.extend line place).fields = record.fields := by
  cases place <;> rfl

theorem isKeptByLines_isRead :
    IsKeptByLines fun record => ∀ field ∈ record.fields, field.IsRead where
  describe _ _ read := read
  extend record line place read := by rwa [fields_extend]
  apply record name value tag found read := by
    cases tag with
    | field item =>
      exact List.forall_mem_append.mpr ⟨read, List.forall_mem_singleton.mpr (isRead_of_read? found)⟩
    | _ => exact read
  field _ value read :=
    List.forall_mem_append.mpr ⟨read, List.forall_mem_singleton.mpr ⟨value, rfl⟩⟩

/-- Every field of a block is what some text of it says. -/
theorem isRead_of_mem_fields {content : List Text} :
    ∀ field ∈ (read content).fields, field.IsRead :=
  isKeptByLines_isRead.read (List.forall_mem_nil _) content

end Doc

end LuauReference
