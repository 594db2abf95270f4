/-
This file proves that bringing an older document up to date does not change what is read from it.
The upgrade and the reading have defaults of their own for what a document leaves out, and both pass
over what is no object; here the two sets of rules are shown to agree on values of every kind, so
that only the version of the document can come out differently.
-/

import LuauReference.Proofs.Symbol.Wire

namespace LuauReference

open Failure

/-! ### Fields that are filled in -/

theorem Fields.getD_set (fields : Fields) (name other : Text) (value : Json) :
    Fields.getD (fields.set name value) other =
      if name = other then value else fields.getD other := by
  rw [Fields.getD, Named.get?_set]
  split <;> rfl

theorem Fields.getD_setDefault (fields : Fields) (name other : Text) (value : Json) :
    Fields.getD (fields.setDefault name value) other =
      if name = other then (fields.get? other).getD value else fields.getD other := by
  rw [Fields.getD, Named.get?_setDefault]
  split <;> rfl

theorem Fields.getD_set_of_ne (fields : Fields) {name other : Text} (value : Json)
    (differs : name ≠ other) : Fields.getD (fields.set name value) other = fields.getD other := by
  rw [Fields.getD_set, if_neg differs]

theorem Fields.getD_setDefault_of_ne (fields : Fields) {name other : Text} (value : Json)
    (differs : name ≠ other) :
    Fields.getD (fields.setDefault name value) other = fields.getD other := by
  rw [Fields.getD_setDefault, if_neg differs]

/-- A field that is filled in with what reading takes for a missing one is read as before. -/
theorem Fields.textOr_setDefault (fields : Fields) (name : Text) {value : Json} {default : Text}
    (same : value.textOr default = default) :
    (Fields.getD (fields.setDefault name value) name).textOr default =
      (fields.getD name).textOr default := by
  rw [Fields.getD_setDefault, if_pos rfl, Fields.getD]
  cases fields.get? name with
  | none => exact same
  | some old => rfl

/-! ### Symbols and modules -/

/-- The name of a symbol stands for its qualified name. -/
theorem Json.textOr_name (name : Json) :
    (if name.isTruthy then name else .str []).textOr (name.textOr []) = name.textOr [] := by
  cases set : name.isTruthy with
  | true => rw [if_pos rfl, Json.textOr, Json.textOr, if_pos set, if_pos set]
  | false => rfl

/-- What a symbol is read from when it has been brought up to date. -/
theorem Fields.getD_upgradeSymbol (fields : Fields) {name : Text}
    (notQualified : "qualifiedName".toList ≠ name) (notVisibility : "visibility".toList ≠ name) :
    Fields.getD (upgradeSymbol fields) name = fields.getD name :=
  (Fields.getD_setDefault_of_ne _ _ notVisibility).trans
    (Fields.getD_setDefault_of_ne _ _ notQualified)

/-- A symbol is read the same before and after it is brought up to date. -/
theorem Symbol.ofFields_upgradeSymbol (fields : Fields) :
    Symbol.ofFields (upgradeSymbol fields) = Symbol.ofFields fields := by
  have qualified : (Fields.getD (upgradeSymbol fields) "qualifiedName").textOr
      ((fields.getD "name").textOr []) =
        (fields.getD "qualifiedName").textOr ((fields.getD "name").textOr []) := by
    rw [upgradeSymbol, Fields.getD_setDefault_of_ne _ _ (by decide)]
    exact Fields.textOr_setDefault _ _ (Json.textOr_name _)
  have visibility : (Fields.getD (upgradeSymbol fields) "visibility").textOr "public" =
      (fields.getD "visibility").textOr "public" := by
    rw [upgradeSymbol, Fields.textOr_setDefault _ _ rfl,
      Fields.getD_setDefault_of_ne _ _ (by decide)]
  have kept : ∀ name ∈
      (["kind", "name", "location", "docs", "types"] : List String).map String.toList,
      Fields.getD (upgradeSymbol fields) name = fields.getD name := by
    intro name listed
    refine Fields.getD_upgradeSymbol fields ?_ ?_ <;> rintro rfl <;> exact absurd listed (by decide)
  simp only [List.map_cons, List.map_nil, List.forall_mem_cons] at kept
  obtain ⟨kind, name, location, docs, types, _⟩ := kept
  rw [Symbol.ofFields, Symbol.ofFields, kind, name, location, docs, types, qualified, visibility]

theorem upgradeModule_of_listed {fields : Fields} {symbols : List Fields}
    (listed : (fields.getD "symbols").objectsOrNone = .ok symbols) :
    upgradeModule fields =
      .ok (fields.set "symbols"
        (.arr (symbols.map fun symbol => .obj (upgradeSymbol symbol)))) := by
  rw [upgradeModule, listed]
  rfl

/-- A module is read the same with other symbols when these are read the same. -/
theorem Module.ofFields_set_symbols {fields : Fields} {value : Json} {symbols others : List Fields}
    (listed : (fields.getD "symbols").objectsOrNone = .ok symbols)
    (relisted : value.objectsOrNone = .ok others)
    (same : others.mapM Symbol.ofFields = symbols.mapM Symbol.ofFields) :
    Module.ofFields (fields.set "symbols" value) = Module.ofFields fields := by
  have kept : ∀ name ∈ (["id", "path", "sourceHash"] : List String).map String.toList,
      Fields.getD (fields.set "symbols" value) name = fields.getD name := by
    intro name named
    refine Fields.getD_set_of_ne fields _ ?_
    rintro rfl
    exact absurd named (by decide)
  simp only [List.map_cons, List.map_nil, List.forall_mem_cons] at kept
  obtain ⟨id, path, hash, _⟩ := kept
  rw [Module.ofFields, Module.ofFields, Fields.getD_set, if_pos rfl, relisted, listed, id,
    path, hash]
  show (others.mapM Symbol.ofFields >>= _) = (symbols.mapM Symbol.ofFields >>= _)
  rw [same]

/-- A module is read the same before and after it is brought up to date. -/
theorem Module.ofFields_upgradeModule (fields : Fields) :
    (upgradeModule fields >>= Module.ofFields) = Module.ofFields fields := by
  cases listed : (fields.getD "symbols").objectsOrNone with
  | error failure =>
    rw [upgradeModule, Module.ofFields, listed]
    rfl
  | ok symbols =>
    rw [upgradeModule_of_listed listed]
    refine Module.ofFields_set_symbols listed (Json.objectsOrNone_map upgradeSymbol symbols) ?_
    rw [List.mapM_map]
    exact congrArg (List.mapM · symbols) (funext Symbol.ofFields_upgradeSymbol)

/-! ### References -/

/-- The version of a current document is not an old one. -/
theorem version_of_isCurrent {fields : Fields} (current : isCurrent fields = true) {version : Int}
    (read : (fields.getD "schemaVersion").asIntOr schemaVersion = .ok version) : 1 ≤ version := by
  rw [isCurrent] at current
  split at current
  · next held same =>
    rw [same, Json.asIntOr] at read
    have least : 1 ≤ held := of_decide_eq_true current
    have set : (Json.int held).isTruthy = true := by
      simp only [Json.isTruthy, bne_iff_ne]
      omega
    rw [if_pos set] at read
    exact Except.ok.inj read ▸ least
  · next held same =>
    rw [same, current] at read
    exact Except.ok.inj read ▸ le_rfl
  · cases current

/-- An older document with a current version and the given modules. -/
def renewed (payload : Fields) (modules : List Fields) : Fields :=
  ((payload.set "schemaVersion" (.int schemaVersion)).setDefault "luauVersion" .null).set "modules"
    (.arr (modules.map .obj))

theorem getD_renewed_schemaVersion (payload : Fields) (modules : List Fields) :
    Fields.getD (renewed payload modules) "schemaVersion" = .int schemaVersion := by
  rw [renewed, Fields.getD_set_of_ne _ _ (by decide), Fields.getD_setDefault_of_ne _ _ (by decide),
    Fields.getD_set, if_pos rfl]

theorem upgrade_of_older {payload : Fields} (older : isCurrent payload ≠ true)
    {items modules : List Fields} (listed : (payload.getD "modules").objectsOrNone = .ok items)
    (each : items.mapM upgradeModule = .ok modules) :
    upgrade payload = .ok (renewed payload modules) := by
  rw [upgrade, if_neg older, listed]
  show (items.mapM upgradeModule >>= _) = _
  rw [each]
  rfl

/-- A document that has been brought up to date says that its version is current. -/
theorem isCurrent_of_upgrade {payload upgraded : Fields} (done : upgrade payload = .ok upgraded) :
    isCurrent upgraded = true := by
  by_cases current : isCurrent payload = true
  · rw [upgrade, if_pos current] at done
    cases done
    exact current
  · have whole := done
    rw [upgrade, if_neg current] at done
    obtain ⟨items, listed, done⟩ := bind_eq_ok_iff.mp done
    obtain ⟨modules, each, _⟩ := bind_eq_ok_iff.mp done
    rw [upgrade_of_older current listed each] at whole
    cases whole
    rw [isCurrent, getD_renewed_schemaVersion]
    rfl

/-- A renewed document is read with its new modules and else as before. -/
theorem Reference.ofFields_renewed {payload : Fields} {items : List Fields}
    {read : List Module} (each : items.mapM Module.ofFields = .ok read) :
    Reference.ofFields (renewed payload items) = .ok {
      schemaVersion := LuauReference.schemaVersion
      generatorVersion := (Fields.getD payload "generatorVersion").textOr "0.0.0"
      modules := read
      luauVersion := match Fields.getD payload "luauVersion" with
        | .null => none
        | value => some value.text } := by
  have luauVersion : Fields.getD (renewed payload items) "luauVersion" =
      Fields.getD payload "luauVersion" := by
    rw [renewed, Fields.getD_set_of_ne _ _ (by decide), Fields.getD_setDefault, if_pos rfl,
      Named.get?_set, if_neg (by decide)]
    rfl
  have generatorVersion : Fields.getD (renewed payload items) "generatorVersion" =
      Fields.getD payload "generatorVersion" := by
    rw [renewed, Fields.getD_set_of_ne _ _ (by decide),
      Fields.getD_setDefault_of_ne _ _ (by decide),
      Fields.getD_set_of_ne _ _ (by decide)]
  have objects : (Fields.getD (renewed payload items) "modules").objectsOrNone = .ok items := by
    rw [renewed, Fields.getD_set, if_pos rfl]
    exact (Json.objectsOrNone_map id items).trans (congrArg _ items.map_id)
  rw [Reference.ofFields, getD_renewed_schemaVersion, objects, luauVersion, generatorVersion]
  show (items.mapM Module.ofFields >>= _) = _
  rw [each]
  rfl

/-- Bringing a document up to date preserves what it means: a document that can be read can be read
afterwards, and then gives the same reference but for the version, which is a current one. -/
theorem Reference.ofFields_upgrade {payload : Fields} {reference : Reference}
    (read : Reference.ofFields payload = .ok reference) :
    ∃ version, 1 ≤ version ∧
      (upgrade payload >>= Reference.ofFields) =
        .ok { reference with schemaVersion := version } := by
  have whole := read
  rw [Reference.ofFields, bind_eq_ok_iff] at read
  obtain ⟨version, versioned, read⟩ := read
  obtain ⟨items, listed, read⟩ := bind_eq_ok_iff.mp read
  obtain ⟨modules, each, read⟩ := bind_eq_ok_iff.mp read
  obtain rfl := Except.ok.inj read
  by_cases current : isCurrent payload = true
  · refine ⟨version, version_of_isCurrent current versioned, ?_⟩
    rw [upgrade, if_pos current]
    exact whole
  · obtain ⟨upgraded, begun, ended⟩ := bind_eq_ok_iff.mp
      (mapM_bind_of_mapM Module.ofFields_upgradeModule each)
    refine ⟨LuauReference.schemaVersion, le_rfl, ?_⟩
    rw [upgrade_of_older current listed begun]
    exact Reference.ofFields_renewed ended

/-- An older document in which what is left out or not set is mixed with what is no object: a
version that is a text, a module and a symbol that are no objects, a symbol without a qualified name
whose name is a number, and one whose qualified name and visibility are null. -/
def olderPayload : Fields :=
  [("schemaVersion", .str "7"), ("modules", .arr [.null, .obj [("id", .str "Door"),
    ("symbols", .arr [.str "x", .obj [("kind", .str "class"), ("name", .int 3)],
      .obj [("name", .str "open"), ("qualifiedName", .null), ("visibility", .null)]])]])]

theorem Reference.ofFields_upgrade_older :
    ∃ (reference : Reference) (version : Int), Reference.ofFields olderPayload = .ok reference ∧
      reference.schemaVersion = 7 ∧
      reference.symbols.map Symbol.qualified = ["3".toList, "open".toList] ∧ 1 ≤ version ∧
      (upgrade olderPayload >>= Reference.ofFields) =
        .ok { reference with schemaVersion := version } := by
  obtain ⟨reference, read, old, named⟩ : ∃ reference : Reference,
      Reference.ofFields olderPayload = .ok reference ∧ reference.schemaVersion = 7 ∧
        reference.symbols.map Symbol.qualified = ["3".toList, "open".toList] :=
    ⟨_, rfl, rfl, rfl⟩
  obtain ⟨version, least, upgraded⟩ := Reference.ofFields_upgrade read
  exact ⟨reference, version, read, old, named, least, upgraded⟩

end LuauReference
