/-
This file proves that a manifest comes back from its text. What comes back is not the manifest
itself but one with its languages in order, so the statement is that every language has the same
files. The condition is that languages are distinct, paths are normalized and records hold values
that come back from their text. The program keeps more than that of its own accord: the records that
it makes hold texts and nulls only. A record of other values can only come from a manifest that
someone else has written.
-/

import LuauReference.Manifest.Basic
import LuauReference.Proofs.Json.Document
import Mathlib.Data.List.DropRight

namespace LuauReference

namespace Json

theorem sortedFields_eq_map (fields : List (Text × Json)) :
    sortedFields fields = fields.map fun field => (field.1, sorted field.2) := by
  induction fields with
  | nil => rw [sortedFields, List.map_nil]
  | cons field rest inductionHypothesis =>
    rw [sortedFields, inductionHypothesis, List.map_cons]

theorem sortedItems_map_str (texts : List Text) :
    sortedItems (texts.map .str) = texts.map .str := by
  induction texts with
  | nil => rw [List.map_nil, sortedItems]
  | cons text rest inductionHypothesis =>
    rw [List.map_cons, sortedItems, inductionHypothesis, sorted]
    all_goals simp

theorem sorted_ofText? (text : Option Text) : sorted (ofText? text) = ofText? text := by
  cases text <;> rfl

theorem names_sortedFields (fields : Fields) :
    Named.names (sortedFields fields) = Named.names fields := by
  rw [sortedFields_eq_map, Named.names, List.map_map]
  rfl

/-- Fields in order are plain when they are. -/
theorem isPlain_sortOn {fields : Fields} (distinct : (Named.names fields).Nodup)
    (plain : ∀ field ∈ fields, field.2.IsPlain) :
    (Json.obj (Text.sortOn Prod.fst fields)).IsPlain := by
  have order := Text.sortOn_perm Prod.fst fields
  rw [Json.IsPlain, Json.arePlainFields_iff]
  exact ⟨(order.map Prod.fst).nodup_iff.mpr distinct,
    fun field member => plain field (order.mem_iff.mp member)⟩

theorem IsPlain.of_mem_fields {value : Json} (plain : value.IsPlain) :
    ∀ field ∈ value.fields?.getD [], field.2.IsPlain := by
  cases value with
  | obj fields =>
    rw [IsPlain] at plain
    exact (arePlainFields_iff fields).mp plain.2
  | _ => exact List.forall_mem_nil _

theorem IsPlain.getD_fields {value : Json} (plain : value.IsPlain) (name : Text) :
    (Fields.getD (value.fields?.getD []) name).IsPlain := by
  rw [Fields.getD]
  cases found : Named.get? (value.fields?.getD []) name with
  | none =>
    rw [Option.getD_none, IsPlain]
    trivial
  | some inner => exact plain.of_mem_fields _ (Named.mem_of_get?_eq_some found)

mutual

/-- A value with all names in order comes back from its text when the value does. -/
theorem IsPlain.sorted : ∀ {value : Json}, value.IsPlain → value.sorted.IsPlain
  | null, plain | bool _, plain | int _, plain | float _, plain | str _, plain => plain
  | arr items, plain => by
    rw [IsPlain] at plain
    rw [Json.sorted, IsPlain]
    exact arePlainItems_sorted plain
  | obj fields, plain => by
    rw [IsPlain] at plain
    rw [Json.sorted]
    refine isPlain_sortOn ((names_sortedFields fields).symm ▸ plain.1) ?_
    exact (arePlainFields_iff _).mp (arePlainFields_sorted plain.2)

theorem arePlainItems_sorted : ∀ {items : List Json}, ArePlainItems items →
    ArePlainItems (sortedItems items)
  | [], plain => plain
  | _ :: _, plain => by
    rw [ArePlainItems] at plain
    rw [sortedItems, ArePlainItems]
    exact ⟨plain.1.sorted, arePlainItems_sorted plain.2⟩

theorem arePlainFields_sorted : ∀ {fields : List (Text × Json)}, ArePlainFields fields →
    ArePlainFields (sortedFields fields)
  | [], plain => plain
  | (_, _) :: _, plain => by
    rw [ArePlainFields] at plain
    rw [sortedFields, ArePlainFields]
    exact ⟨plain.1.sorted, arePlainFields_sorted plain.2⟩

end

theorem filterMap_text?_map_str (texts : List Text) : (texts.map str).filterMap text? = texts := by
  induction texts with
  | nil => rfl
  | cons text rest inductionHypothesis =>
    rw [List.map_cons, List.filterMap_cons, inductionHypothesis]
    rfl

end Json

namespace Manifest

/-- A normalized path is normalized again to itself. -/
theorem normalize_normalize (path : Text) : normalize (normalize path) = normalize path := by
  have slashed : ∀ c ∈ normalize path, c ≠ '\\' := by
    intro c member
    obtain ⟨old, -, rfl⟩ := List.mem_map.mp (List.dropWhile_subset _ member)
    split
    · decide
    · assumption
  have kept : (normalize path).map (fun c => if c = '\\' then '/' else c) = normalize path :=
    (List.map_congr_left fun c member => if_neg (slashed c member)).trans (List.map_id _)
  rw [normalize, kept, normalize, List.dropWhile_idempotent]

/-- Whether a record holds texts and nulls under distinct names. -/
structure IsRecord (fields : Fields) : Prop where
  distinct : (Named.names fields).Nodup
  texts : ∀ field ∈ fields, ∃ text, field.2 = .ofText? text

/-- Whether a manifest is as the program makes them. -/
structure IsRegular (manifest : Manifest) : Prop where
  languages : (Named.names manifest.outputs).Nodup
  paths : ∀ item ∈ manifest.outputs, ∀ path ∈ item.2, normalize path = path
  sources : (Named.names manifest.inputs).Nodup
  records : ∀ item ∈ manifest.inputs, IsRecord item.2

/-- Whether a manifest comes back from its text. -/
structure IsLegible (manifest : Manifest) : Prop where
  languages : (Named.names manifest.outputs).Nodup
  paths : ∀ item ∈ manifest.outputs, ∀ path ∈ item.2, normalize path = path
  sources : (Named.names manifest.inputs).Nodup
  records : ∀ item ∈ manifest.inputs, (Json.obj item.2).IsPlain

theorem isRegular_empty : IsRegular {} :=
  ⟨List.nodup_nil, List.forall_mem_nil _, List.nodup_nil, List.forall_mem_nil _⟩

theorem isRecord_fields (input : Input) (time : Text) :
    IsRecord (input.fields ++ [("generatedAt".toList, .str time)]) := by
  have names : Named.names (input.fields ++ [("generatedAt".toList, .str time)]) =
      ["path".toList, "hash".toList, "generatorVersion".toList, "generatedAt".toList] := rfl
  refine ⟨by rw [names]; decide, ?_⟩
  simp only [Input.fields, List.cons_append, List.nil_append, List.forall_mem_cons]
  exact ⟨⟨input.path, rfl⟩, ⟨some _, rfl⟩, ⟨input.generatorVersion, rfl⟩, ⟨some time, rfl⟩,
    List.forall_mem_nil _⟩

/-- Taking down a run keeps a manifest regular. -/
theorem IsRegular.recordAt {manifest : Manifest} (regular : manifest.IsRegular) {paths : List Text}
    (normal : ∀ path ∈ paths, normalize path = path) (lang : Text) (input : Input) (time : Text) :
    (manifest.recordAt lang paths input time).IsRegular where
  languages := Named.nodup_names_set regular.languages lang paths
  paths := Named.forall_mem_set normal regular.paths
  sources := Named.nodup_names_set regular.sources lang _
  records := Named.forall_mem_set (isRecord_fields input time) regular.records

theorem IsRecord.isPlain {fields : Fields} (record : IsRecord fields) :
    (Json.obj fields).IsPlain := by
  rw [Json.IsPlain, Json.arePlainFields_iff]
  refine ⟨record.distinct, fun field member => ?_⟩
  obtain ⟨text, same⟩ := record.texts field member
  rw [same]
  cases text <;> rw [Json.ofText?, Json.IsPlain] <;> trivial

theorem IsRegular.isLegible {manifest : Manifest} (regular : manifest.IsRegular) :
    manifest.IsLegible :=
  ⟨regular.languages, regular.paths, regular.sources,
    fun item member => (regular.records item member).isPlain⟩

/-- Taking down a run keeps a manifest legible. -/
theorem IsLegible.recordAt {manifest : Manifest} (legible : manifest.IsLegible) {paths : List Text}
    (normal : ∀ path ∈ paths, normalize path = path) (lang : Text) (input : Input) (time : Text) :
    (manifest.recordAt lang paths input time).IsLegible where
  languages := Named.nodup_names_set legible.languages lang paths
  paths := Named.forall_mem_set normal legible.paths
  sources := Named.nodup_names_set legible.sources lang _
  records := Named.forall_mem_set (isRecord_fields input time).isPlain legible.records

/-! ### The value of a manifest -/

/-- The files of a language as a field. -/
def outputField (item : Text × List Text) : Text × Json :=
  (item.1, .arr (item.2.map .str))

/-- A record with all names in order. -/
def sortedRecord (record : Fields) : Fields :=
  Text.sortOn Prod.fst (Json.sortedFields record)

/-- The record of a language as a field, with its names in order. -/
def inputField (item : Text × Fields) : Text × Json :=
  (item.1, .obj (sortedRecord item.2))

theorem IsRecord.sortedRecord_eq {fields : Fields} (record : IsRecord fields) :
    sortedRecord fields = Text.sortOn Prod.fst fields := by
  have kept : Json.sortedFields fields = fields := by
    rw [Json.sortedFields_eq_map]
    refine (List.map_congr_left fun field here => ?_).trans (List.map_id _)
    obtain ⟨text, same⟩ := record.texts field here
    rw [same, Json.sorted_ofText?, ← same]
    rfl
  rw [sortedRecord, kept]

/-- The value that the text of a manifest stands for. -/
theorem toJson_sorted (manifest : Manifest) :
    manifest.toJson.sorted = .obj (Text.sortOn Prod.fst
      [("outputs".toList, .obj (Text.sortOn Prod.fst (manifest.outputs.map outputField))),
        ("inputs".toList, .obj (Text.sortOn Prod.fst (manifest.inputs.map inputField)))]) := by
  have outputs : Json.sortedFields (manifest.outputs.map outputField) =
      manifest.outputs.map outputField := by
    rw [Json.sortedFields_eq_map, List.map_map]
    refine List.map_congr_left fun item _ => ?_
    show (item.1, (Json.arr (item.2.map .str)).sorted) = _
    rw [Json.sorted, Json.sortedItems_map_str]
    rfl
  have inputs : Json.sortedFields (manifest.inputs.map fun item => (item.1, .obj item.2)) =
      manifest.inputs.map inputField := by
    rw [Json.sortedFields_eq_map, List.map_map]
    refine List.map_congr_left fun item _ => ?_
    show (item.1, (Json.obj item.2).sorted) = _
    rw [Json.sorted]
    rfl
  show (Json.obj [("outputs".toList, .obj (manifest.outputs.map outputField)),
    ("inputs".toList, .obj (manifest.inputs.map fun item => (item.1, .obj item.2)))]).sorted = _
  rw [Json.sorted, Json.sortedFields, Json.sortedFields, Json.sortedFields, Json.sorted,
    Json.sorted,
    outputs, inputs]

theorem isPlain_outputField (item : Text × List Text) : (outputField item).2.IsPlain := by
  rw [outputField, Json.IsPlain, Json.arePlainItems_iff]
  intro value member
  obtain ⟨text, _, rfl⟩ := List.mem_map.mp member
  rw [Json.IsPlain]
  trivial

theorem isPlain_inputField {item : Text × Fields} (plain : (Json.obj item.2).IsPlain) :
    (inputField item).2.IsPlain := by
  have sorted := plain.sorted
  rwa [Json.sorted] at sorted

theorem distinct_parts (outputs inputs : Json) :
    (Named.names [("outputs".toList, outputs), ("inputs".toList, inputs)]).Nodup := by
  show (["outputs".toList, "inputs".toList] : List Text).Nodup
  decide

theorem isPlain_toJson_sorted {manifest : Manifest} (legible : manifest.IsLegible) :
    manifest.toJson.sorted.IsPlain := by
  have languages : Named.names (manifest.outputs.map outputField) =
      Named.names manifest.outputs := by
    rw [Named.names, List.map_map]
    rfl
  have sources : Named.names (manifest.inputs.map inputField) = Named.names manifest.inputs := by
    rw [Named.names, List.map_map]
    rfl
  rw [toJson_sorted]
  refine Json.isPlain_sortOn (distinct_parts _ _) ?_
  refine List.forall_mem_cons.mpr ⟨?_, List.forall_mem_singleton.mpr ?_⟩
  · refine Json.isPlain_sortOn (languages ▸ legible.languages) fun field member => ?_
    obtain ⟨item, _, rfl⟩ := List.mem_map.mp member
    exact isPlain_outputField item
  · refine Json.isPlain_sortOn (sources ▸ legible.sources) fun field member => ?_
    obtain ⟨item, here, rfl⟩ := List.mem_map.mp member
    exact isPlain_inputField (legible.records item here)

/-! ### The manifest in a value -/

theorem getD_sortOn {fields : Fields} (distinct : (Named.names fields).Nodup) {name : Text}
    {value : Json} (member : (name, value) ∈ fields) :
    Fields.getD (Text.sortOn Prod.fst fields) name = value := by
  have order := Text.sortOn_perm Prod.fst fields
  rw [Fields.getD, Named.get?_of_perm order ((order.map Prod.fst).nodup_iff.mpr distinct),
    Named.get?_of_mem distinct member, Option.getD_some]

/-- The files of a language from a field. -/
def outputOf? (field : Text × Json) : Option (Text × List Text) :=
  (pathsOf? field.2).map fun paths => (field.1, paths)

/-- The record of a language from a field. -/
def inputOf? (field : Text × Json) : Option (Text × Fields) :=
  field.2.fields?.map fun input => (field.1, input)

theorem ofJson_sorted_outputs {manifest : Manifest} (legible : manifest.IsLegible) :
    (ofJson manifest.toJson.sorted).outputs.Perm manifest.outputs := by
  have found : ((Fields.getD (manifest.toJson.sorted.fields?.getD []) "outputs").fields?.getD []) =
      Text.sortOn Prod.fst (manifest.outputs.map outputField) := by
    rw [toJson_sorted, Json.fields?, Option.getD_some,
      getD_sortOn (distinct_parts _ _) List.mem_cons_self]
    rfl
  have each : (manifest.outputs.map outputField).filterMap outputOf? = manifest.outputs := by
    rw [List.filterMap_map]
    refine (List.filterMap_congr fun item member => ?_).trans List.filterMap_some
    have same : item.2.map normalize = item.2 :=
      (List.map_congr_left (legible.paths item member)).trans (List.map_id _)
    show (pathsOf? (.arr (item.2.map .str))).map (fun paths => (item.1, paths)) = some item
    rw [pathsOf?, Json.filterMap_text?_map_str, same]
    rfl
  have order := (Text.sortOn_perm Prod.fst (manifest.outputs.map outputField)).filterMap outputOf?
  rw [each] at order
  show (Named.ofPairs (List.filterMap outputOf? _)).Perm _
  rw [found, Named.ofPairs_of_nodup ((order.map Prod.fst).nodup_iff.mpr legible.languages)]
  exact order

theorem ofJson_sorted_inputs {manifest : Manifest} (legible : manifest.IsLegible) :
    (ofJson manifest.toJson.sorted).inputs.Perm
      (manifest.inputs.map fun item => (item.1, sortedRecord item.2)) := by
  have found : ((Fields.getD (manifest.toJson.sorted.fields?.getD []) "inputs").fields?.getD []) =
      Text.sortOn Prod.fst (manifest.inputs.map inputField) := by
    rw [toJson_sorted, Json.fields?, Option.getD_some,
      getD_sortOn (distinct_parts _ _) (List.mem_cons_of_mem _ List.mem_cons_self)]
    rfl
  have each : (manifest.inputs.map inputField).filterMap inputOf? =
      manifest.inputs.map fun item => (item.1, sortedRecord item.2) := by
    rw [List.filterMap_map, ← List.filterMap_eq_map]
    exact List.filterMap_congr fun item _ => rfl
  have order := (Text.sortOn_perm Prod.fst (manifest.inputs.map inputField)).filterMap inputOf?
  rw [each] at order
  have distinct : (Named.names (manifest.inputs.map fun item =>
      (item.1, sortedRecord item.2))).Nodup := by
    rw [Named.names, List.map_map]
    exact legible.sources
  show (Named.ofPairs (List.filterMap inputOf? _)).Perm _
  rw [found, Named.ofPairs_of_nodup ((order.map Prod.fst).nodup_iff.mpr distinct)]
  exact order

/-- The manifest that is read back has the same files for every language. -/
theorem get?_ofJson_outputs {manifest : Manifest} (legible : manifest.IsLegible) (lang : Text) :
    (ofJson manifest.toJson.sorted).outputs.get? lang = manifest.outputs.get? lang := by
  have order := ofJson_sorted_outputs legible
  exact Named.get?_of_perm order ((order.map Prod.fst).nodup_iff.mpr legible.languages) lang

/-- The manifest that is read back has the same record for every language, with all names in
order. -/
theorem get?_ofJson_inputs {manifest : Manifest} (legible : manifest.IsLegible) (lang : Text) :
    (ofJson manifest.toJson.sorted).inputs.get? lang =
      (manifest.inputs.get? lang).map sortedRecord := by
  have order := ofJson_sorted_inputs legible
  have distinct : (Named.names (manifest.inputs.map fun item =>
      (item.1, sortedRecord item.2))).Nodup := by
    rw [Named.names, List.map_map]
    exact legible.sources
  rw [Named.get?_of_perm order ((order.map Prod.fst).nodup_iff.mpr distinct)]
  exact Named.get?_map sortedRecord manifest.inputs lang

/-- The manifest that is read back is regular again. -/
theorem isRegular_ofJson {manifest : Manifest} (regular : manifest.IsRegular) :
    (ofJson manifest.toJson.sorted).IsRegular := by
  have outputs := ofJson_sorted_outputs regular.isLegible
  have inputs := ofJson_sorted_inputs regular.isLegible
  refine ⟨(outputs.map Prod.fst).nodup_iff.mpr regular.languages,
    fun item member => regular.paths item (outputs.mem_iff.mp member),
    (inputs.map Prod.fst).nodup_iff.mpr ?_, fun item member => ?_⟩
  · rw [List.map_map]
    exact regular.sources
  · obtain ⟨old, here, rfl⟩ := List.mem_map.mp (inputs.mem_iff.mp member)
    have record := regular.records old here
    have order := Text.sortOn_perm Prod.fst old.2
    dsimp only
    rw [record.sortedRecord_eq]
    exact ⟨(order.map Prod.fst).nodup_iff.mpr record.distinct,
      fun field inside => record.texts field (order.mem_iff.mp inside)⟩

/-- A manifest in a value that comes back from its text comes back as well. -/
theorem isLegible_ofJson {value : Json} (plain : value.IsPlain) : (ofJson value).IsLegible where
  languages := Named.nodup_names_ofPairs _
  paths item member := by
    obtain ⟨field, -, same⟩ := List.mem_filterMap.mp (Named.mem_of_mem_ofPairs member)
    obtain ⟨paths, listed, rfl⟩ := Option.map_eq_some_iff.mp same
    cases found : field.2 with
    | arr items =>
      rw [found, pathsOf?, Option.some.injEq] at listed
      intro path inside
      obtain ⟨raw, -, rfl⟩ := List.mem_map.mp (listed ▸ inside)
      exact normalize_normalize raw
    | _ =>
      rw [found] at listed
      exact nomatch listed
  sources := Named.nodup_names_ofPairs _
  records item member := by
    obtain ⟨field, here, same⟩ := List.mem_filterMap.mp (Named.mem_of_mem_ofPairs member)
    obtain ⟨record, fields, rfl⟩ := Option.map_eq_some_iff.mp same
    have plain := (plain.getD_fields "inputs").of_mem_fields field here
    cases found : field.2 with
    | obj inner =>
      rw [found] at plain fields
      exact Option.some.inj fields ▸ plain
    | _ =>
      rw [found] at fields
      exact nomatch fields

/-! ### The record of a run -/

theorem isText_ofText? (text : Option Text) : isText (.ofText? text) text = true := by
  cases text with
  | none => rfl
  | some text => exact beq_self_eq_true text

/-- The record of a run at a time is one of its input, also with all names in order. -/
theorem isRecordOf_sortedRecord (input : Input) {time : Text} (timed : time ≠ []) :
    isRecordOf
      (sortedRecord (input.fields ++ [("generatedAt".toList, .str time)])) input = true := by
  have record := isRecord_fields input time
  have truthy : (Json.str time).isTruthy = true := by simpa [Json.isTruthy] using timed
  have path := getD_sortOn record.distinct
    (show ("path".toList, .ofText? input.path) ∈ _ from List.mem_cons_self)
  have hash := getD_sortOn record.distinct
    (show ("hash".toList, .str (Sha256.digest (Text.utf8 input.raw))) ∈ _ from
      List.mem_cons_of_mem _ List.mem_cons_self)
  have version := getD_sortOn record.distinct
    (show ("generatorVersion".toList, .ofText? input.generatorVersion) ∈ _ from
      List.mem_cons_of_mem _ (List.mem_cons_of_mem _ List.mem_cons_self))
  have made := getD_sortOn record.distinct
    (show ("generatedAt".toList, .str time) ∈ _ from List.mem_append_right _ List.mem_cons_self)
  rw [record.sortedRecord_eq, isRecordOf, path, hash, version, made, isText_ofText?, isText_ofText?,
    truthy, Bool.true_and, Bool.and_true, Bool.and_true]
  exact isText_ofText? (some _)

/-- A run that was taken down is known from the text of the manifest. -/
theorem isCurrent_ofJson {manifest : Manifest} (legible : manifest.IsLegible) {paths : List Text}
    (normal : ∀ path ∈ paths, normalize path = path) (lang : Text) (input : Input) {time : Text}
    (timed : time ≠ []) :
    (ofJson (manifest.recordAt lang paths input time).toJson.sorted).isCurrent
      lang paths input = true := by
  have later := legible.recordAt normal lang input time
  rw [isCurrent, get?_ofJson_inputs later, get?_ofJson_outputs later, recordAt, Named.get?_set,
    Named.get?_set, if_pos rfl, if_pos rfl, Option.map_some, Option.getD_some,
    isRecordOf_sortedRecord input timed]
  exact beq_self_eq_true _

/-- The text of a manifest is read as its value. -/
theorem read_written {manifest : Manifest} (legible : manifest.IsLegible) :
    Json.read manifest.write = .ok manifest.toJson.sorted :=
  Json.read_document (isPlain_toJson_sorted legible)

theorem unbroken_write (manifest : Manifest) : '\r' ∉ manifest.write :=
  Json.unbroken_document manifest.toJson.sorted

end Manifest

end LuauReference
