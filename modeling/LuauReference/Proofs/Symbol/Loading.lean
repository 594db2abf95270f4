/-
This file proves that loading normalises. Whatever a document holds under a name, what is read from
it is a text that is set or the default, a number that JSON gives back, or a value that was in the
document; so the reference that was read is read back from its text. One default is no fixed point:
a column of zero is written as it is and does not count as set, so it comes back as one. It is the
only such value, and after one more reading there is none.
-/

import LuauReference.Proofs.Json.Plain
import LuauReference.Proofs.Symbol.Upgrade

namespace LuauReference

open Failure

theorem Text.ofInt_ne_nil (value : Int) : Text.ofInt value ≠ [] := by
  cases value with
  | ofNat n => exact Text.ofNat_ne_nil n
  | negSucc n => exact List.cons_ne_nil _ _

namespace Binary64

theorem textOfDigits_ne_nil (digits : Text) (exponent : Int) :
    textOfDigits digits exponent ≠ [] := by
  rw [textOfDigits]
  split
  · split <;> simp
  · simp

theorem text_ne_nil (x : Binary64) : x.text ≠ [] := by
  rw [text]
  cases x with
  | finite negative mantissa exponent =>
    rw [textWith, magnitudeText]
    refine List.append_ne_nil_of_right_ne_nil _ ?_
    split
    · exact List.cons_ne_nil _ _
    · exact textOfDigits_ne_nil _ _
  | infinite negative =>
    rw [textWith]
    exact List.append_ne_nil_of_right_ne_nil _ (List.cons_ne_nil _ _)
  | undefined => exact List.cons_ne_nil _ _

theorem div_quotient_le {mantissa bound : Nat} {exponent : Int} (below : exponent ≤ bound) :
    (quotient mantissa exponent).1 / (quotient mantissa exponent).2 ≤ mantissa * 2 ^ bound := by
  refine (Nat.div_le_self _ _).trans ?_
  cases exponent with
  | ofNat up =>
    exact Nat.mul_le_mul_left mantissa (Nat.pow_le_pow_right (by omega) (Int.ofNat_le.mp below))
  | negSucc down => exact Nat.le_mul_of_pos_right mantissa (Nat.pow_pos (by omega))

theorem mul_pow_lt {mantissa bits bound digits : Nat} (small : mantissa < 2 ^ bits)
    (room : bits + bound ≤ digits) : mantissa * 2 ^ bound < 10 ^ digits :=
  calc mantissa * 2 ^ bound < 2 ^ bits * 2 ^ bound :=
        Nat.mul_lt_mul_of_pos_right small (Nat.pow_pos (by omega))
    _ = 2 ^ (bits + bound) := (Nat.pow_add 2 bits bound).symm
    _ ≤ 10 ^ (bits + bound) := Nat.pow_le_pow_left (by omega) _
    _ ≤ 10 ^ digits := Nat.pow_le_pow_right (by omega) room

/-- The whole number that is left of a number without its fraction has few digits. -/
theorem natAbs_lt_of_truncate? {x : Binary64} (readable : x.IsReadable) {whole : Int}
    (found : x.truncate? = some whole) : whole.natAbs < 10 ^ Text.longestNumeral := by
  cases x with
  | infinite | undefined => cases found
  | finite negative mantissa exponent =>
    have size : whole.natAbs = (quotient mantissa exponent).1 / (quotient mantissa exponent).2 := by
      rw [← Option.some.inj found]
      cases negative
      · exact Int.natAbs_natCast _
      · exact (Int.natAbs_neg _).trans (Int.natAbs_natCast _)
    rw [size]
    exact (div_quotient_le readable.greatest).trans_lt (mul_pow_lt readable.bounded (by decide))

end Binary64

namespace Json

/-! ### Values taken from plain ones -/

theorem isPlain_null : null.IsPlain := by
  rw [IsPlain]
  trivial

theorem isPlain_of_mem {fields : Fields} (plain : (obj fields).IsPlain) :
    ∀ field ∈ fields, field.2.IsPlain := by
  rw [IsPlain, arePlainFields_iff] at plain
  exact plain.2

theorem isPlain_getD {fields : Fields} (plain : (obj fields).IsPlain) (name : Text) :
    (fields.getD name).IsPlain := by
  rw [Fields.getD]
  cases found : fields.get? name with
  | none => exact isPlain_null
  | some value => exact isPlain_of_mem plain _ (Named.mem_of_get?_eq_some found)

theorem isPlain_set {fields : Fields} {value : Json} (plain : (obj fields).IsPlain)
    (own : value.IsPlain) (name : Text) : (obj (fields.set name value)).IsPlain := by
  have distinct : (Named.names fields).Nodup := by
    rw [IsPlain] at plain
    exact plain.1
  exact isPlain_obj (Named.nodup_names_set distinct name value)
    (Named.forall_mem_set own (isPlain_of_mem plain))

theorem isPlain_setDefault {fields : Fields} {value : Json} (plain : (obj fields).IsPlain)
    (own : value.IsPlain) (name : Text) : (obj (fields.setDefault name value)).IsPlain := by
  rw [Named.setDefault]
  split
  · exact plain
  · exact isPlain_set plain own name

theorem isPlain_of_objectsOrNone {value : Json} (plain : value.IsPlain) {items : List Fields}
    (listed : value.objectsOrNone = .ok items) : ∀ fields ∈ items, (obj fields).IsPlain := by
  rw [objectsOrNone] at listed
  split at listed
  · cases value with
    | arr values =>
      cases listed
      rw [IsPlain, arePlainItems_iff] at plain
      intro fields member
      obtain ⟨item, inside, found⟩ := List.mem_filterMap.mp member
      cases item with
      | obj own =>
        cases found
        exact plain _ inside
      | _ => cases found
    | str | obj =>
      cases listed
      exact List.forall_mem_nil _
    | _ => cases listed
  · cases listed
    exact List.forall_mem_nil _

theorem isPlain_of_asObjectOrNone {value : Json} (plain : value.IsPlain) {fields : Fields}
    (found : value.asObjectOrNone = .ok fields) : (obj fields).IsPlain := by
  rw [asObjectOrNone] at found
  split at found
  · cases value with
    | obj own =>
      cases found
      exact plain
    | _ => cases found
  · cases found
    exact isPlain_obj List.nodup_nil (List.forall_mem_nil _)

/-! ### Texts and whole numbers that are read -/

/-- A value that counts as set has a text. -/
theorem text_ne_nil {value : Json} (set : value.isTruthy = true) : value.text ≠ [] := by
  cases value with
  | null => cases set
  | bool value =>
    cases set
    exact List.cons_ne_nil _ _
  | int value => exact Text.ofInt_ne_nil value
  | float value => exact value.text_ne_nil
  | str value =>
    rintro rfl
    cases set
  | arr items => exact List.cons_ne_nil _ _
  | obj fields => exact List.cons_ne_nil _ _

theorem textOr_ne_nil (value : Json) {default : Text} (present : default ≠ []) :
    value.textOr default ≠ [] := by
  rw [textOr]
  split
  · next set => exact text_ne_nil set
  · exact present

theorem isPlain_of_asInt {value : Json} (plain : value.IsPlain) {whole : Int}
    (read : value.asInt = .ok whole) : (int whole).IsPlain := by
  cases value with
  | null | arr | obj => cases read
  | bool value => cases value <;> cases read <;> rfl
  | int value =>
    cases read
    exact plain
  | float value =>
    have readable := isReadable_of_isPlain plain
    cases value with
    | undefined => cases read
    | infinite negative => cases read
    | finite negative mantissa exponent =>
      have found : (Binary64.finite negative mantissa exponent).truncate? = some whole :=
        congrArg some (Except.ok.inj read)
      exact isPlain_int (Binary64.natAbs_lt_of_truncate? readable found)
  | str value =>
    rw [asInt] at read
    split at read
    · next found =>
      cases read
      exact isPlain_int (Text.natAbs_lt_of_integer? found)
    · cases read

theorem isPlain_of_asIntOr {value : Json} (plain : value.IsPlain) {default whole : Int}
    (other : (int default).IsPlain) (read : value.asIntOr default = .ok whole) :
    (int whole).IsPlain := by
  rw [asIntOr] at read
  split at read
  · exact isPlain_of_asInt plain read
  · cases read
    exact other

end Json

/-! ### Columns -/

/-- The location as it comes back: a column of zero does not count as set. -/
def Location.settled (location : Location) : Location :=
  { location with column := if location.column = 0 then 1 else location.column }

/-- The symbol with its column as it comes back. -/
def Symbol.settled (symbol : Symbol) : Symbol :=
  { symbol with location := symbol.location.settled }

/-- The module with the columns of its symbols as they come back. -/
def Module.settled (module_ : Module) : Module :=
  { module_ with symbols := module_.symbols.map Symbol.settled }

/-- The reference with every column of zero replaced by one. -/
def Reference.settled (reference : Reference) : Reference :=
  { reference with modules := reference.modules.map Module.settled }

theorem Location.column_settled_ne_zero (location : Location) : location.settled.column ≠ 0 := by
  rw [Location.settled]
  split
  · exact one_ne_zero
  · assumption

/-- The text of a location tells no column of zero from one of one. -/
theorem Location.ofFields_toFields_settled (location : Location) :
    Location.ofFields location.settled.toFields = Location.ofFields location.toFields := by
  by_cases zero : location.column = 0
  · obtain ⟨file, line, column⟩ := location
    subst zero
    rfl
  · rw [Location.settled, if_neg zero]

theorem Symbol.toFields_settled (symbol : Symbol) :
    symbol.settled.toFields =
      symbol.toFields.set "location" (.obj symbol.location.settled.toFields) := by
  simp [Symbol.toFields, Symbol.settled, Named.set]

theorem Symbol.ofFields_toFields_settled (symbol : Symbol) :
    Symbol.ofFields symbol.settled.toFields = Symbol.ofFields symbol.toFields := by
  have kept {name : Text} (other : "location".toList ≠ name) :
      Fields.getD symbol.settled.toFields name = Fields.getD symbol.toFields name := by
    rw [Symbol.toFields_settled, Fields.getD_set_of_ne _ _ other]
  have before : Fields.getD symbol.toFields "location" = .obj symbol.location.toFields := by
    simp [Fields.getD, Symbol.toFields, Named.get?_cons]
  have after : Fields.getD symbol.settled.toFields "location" =
      .obj symbol.location.settled.toFields := by
    rw [Symbol.toFields_settled, Fields.getD_set, if_pos rfl]
  have location :
      ((Json.obj symbol.location.settled.toFields).asObjectOrNone >>= Location.ofFields) =
      ((Json.obj symbol.location.toFields).asObjectOrNone >>= Location.ofFields) :=
    Location.ofFields_toFields_settled symbol.location
  rw [Symbol.ofFields, Symbol.ofFields, before, after, location, kept (by simp), kept (by simp),
    kept (by simp), kept (by simp), kept (by simp), kept (by simp)]

/-- Written things that are read alike are read alike one after the other. -/
theorem mapM_ofFields_settled {α : Type} {read : Fields → Except Failure α} {fieldsOf : α → Fields}
    {settled : α → α} (same : ∀ item, read (fieldsOf (settled item)) = read (fieldsOf item))
    (items : List α) :
    ((items.map settled).map fieldsOf).mapM read = (items.map fieldsOf).mapM read := by
  rw [List.map_map, List.mapM_map, List.mapM_map]
  exact congrArg (List.mapM · items) (funext same)

theorem Module.ofFields_toFields_settled (module_ : Module) :
    Module.ofFields module_.settled.toFields = Module.ofFields module_.toFields := by
  show ((Json.arr
    (module_.settled.symbols.map fun symbol => .obj symbol.toFields)).objectsOrNone >>= _) =
    ((Json.arr (module_.symbols.map fun symbol => .obj symbol.toFields)).objectsOrNone >>= _)
  rw [Json.objectsOrNone_map, Json.objectsOrNone_map]
  show ((module_.settled.symbols.map Symbol.toFields).mapM Symbol.ofFields >>= _) =
    ((module_.symbols.map Symbol.toFields).mapM Symbol.ofFields >>= _)
  rw [Module.settled, mapM_ofFields_settled Symbol.ofFields_toFields_settled]
  rfl

theorem Reference.ofFields_toFields_settled (reference : Reference) :
    Reference.ofFields reference.settled.toFields = Reference.ofFields reference.toFields := by
  show ((Json.int reference.schemaVersion).asIntOr LuauReference.schemaVersion >>= fun version =>
    (Json.arr
      (reference.settled.modules.map fun module_ => .obj module_.toFields)).objectsOrNone >>= _) =
    ((Json.int reference.schemaVersion).asIntOr LuauReference.schemaVersion >>= fun version =>
      (Json.arr (reference.modules.map fun module_ => .obj module_.toFields)).objectsOrNone >>= _)
  rw [Json.objectsOrNone_map, Json.objectsOrNone_map]
  refine congrArg (_ >>= ·) (funext fun version => ?_)
  show ((reference.settled.modules.map Module.toFields).mapM Module.ofFields >>= _) =
    ((reference.modules.map Module.toFields).mapM Module.ofFields >>= _)
  rw [Reference.settled, mapM_ofFields_settled Module.ofFields_toFields_settled]
  rfl

/-! ### What records are read from plain fields -/

theorem Location.isPlain_of_ofFields {fields : Fields} (plain : (Json.obj fields).IsPlain)
    {location : Location} (read : Location.ofFields fields = .ok location) :
    (Json.int location.line).IsPlain ∧ (Json.int location.column).IsPlain := by
  obtain ⟨line, first, read⟩ := bind_eq_ok_iff.mp read
  obtain ⟨column, second, read⟩ := bind_eq_ok_iff.mp read
  cases read
  have none : (Json.int 0).IsPlain := rfl
  have one : (Json.int 1).IsPlain := rfl
  exact ⟨Json.isPlain_of_asIntOr (Json.isPlain_getD plain _) none first,
    Json.isPlain_of_asIntOr (Json.isPlain_getD plain _) one second⟩

theorem SymbolTag.isPlain_ofFields {fields : Fields} (plain : (Json.obj fields).IsPlain) :
    (SymbolTag.ofFields fields).value.IsPlain ∧
    (SymbolTag.ofFields fields).description.IsPlain := by
  refine ⟨?_, Json.isPlain_getD plain _⟩
  show ((fields.get? "value").getD (.bool true)).IsPlain
  cases found : fields.get? "value" with
  | none =>
    rw [Option.getD_none, Json.IsPlain]
    trivial
  | some value => exact Json.isPlain_of_mem plain _ (Named.mem_of_get?_eq_some found)

theorem SymbolDocs.isPlain_of_ofFields {fields : Fields} (plain : (Json.obj fields).IsPlain)
    {docs : SymbolDocs} (read : SymbolDocs.ofFields fields = .ok docs) :
    ∀ tag ∈ docs.tags, tag.value.IsPlain ∧ tag.description.IsPlain := by
  obtain ⟨items, listed, read⟩ := bind_eq_ok_iff.mp read
  cases read
  intro tag member
  obtain ⟨item, inside, rfl⟩ := List.mem_map.mp member
  exact SymbolTag.isPlain_ofFields
    (Json.isPlain_of_objectsOrNone (Json.isPlain_getD plain _) listed item inside)

theorem SymbolTypes.isPlain_ofFields {fields : Fields} (plain : (Json.obj fields).IsPlain) :
    ∀ structured ∈ (SymbolTypes.ofFields fields).structured, (Json.obj structured).IsPlain := by
  have held := Json.isPlain_getD plain "structured"
  intro structured found
  change (fields.getD "structured").fields? = some structured at found
  cases value : fields.getD "structured" with
  | obj own =>
    rw [value] at found held
    cases found
    exact held
  | _ =>
    rw [value] at found
    cases found

/-- Whether a symbol is one that loading returns: JSON gives back all that it holds, and but for its
column it has all that reading would fill in. -/
structure Symbol.IsLoaded (symbol : Symbol) : Prop where
  plain : symbol.IsPlain
  complete : symbol.settled.IsComplete

theorem Symbol.isLoaded_of_ofFields {fields : Fields} (plain : (Json.obj fields).IsPlain)
    {symbol : Symbol} (read : Symbol.ofFields fields = .ok symbol) : symbol.IsLoaded := by
  obtain ⟨location, located, read⟩ := bind_eq_ok_iff.mp read
  obtain ⟨docs, documented, read⟩ := bind_eq_ok_iff.mp read
  obtain ⟨types, typed, read⟩ := bind_eq_ok_iff.mp read
  obtain ⟨locationFields, held, located⟩ := bind_eq_ok_iff.mp located
  obtain ⟨docsFields, held', documented⟩ := bind_eq_ok_iff.mp documented
  have typesPlain : ∀ structured ∈ types.structured, (Json.obj structured).IsPlain := by
    cases held'' : (fields.getD "types").asObjectOrNone with
    | error failure =>
      rw [held''] at typed
      cases typed
    | ok typesFields =>
      rw [held''] at typed
      cases typed
      exact SymbolTypes.isPlain_ofFields
        (Json.isPlain_of_asObjectOrNone (Json.isPlain_getD plain _) held'')
  obtain ⟨line, column⟩ := Location.isPlain_of_ofFields
    (Json.isPlain_of_asObjectOrNone (Json.isPlain_getD plain _) held) located
  have tags := SymbolDocs.isPlain_of_ofFields
    (Json.isPlain_of_asObjectOrNone (Json.isPlain_getD plain _) held') documented
  cases read
  refine ⟨⟨line, column, tags, typesPlain⟩, ?_⟩
  refine ⟨Json.textOr_ne_nil _ (by decide), Json.textOr_ne_nil _ (by decide), ?_,
    location.column_settled_ne_zero⟩
  show (fields.getD "qualifiedName").textOr ((fields.getD "name").textOr []) ≠ [] ∨
    (fields.getD "name").textOr [] = []
  by_cases unnamed : (fields.getD "name").textOr [] = []
  · exact Or.inr unnamed
  · exact Or.inl (Json.textOr_ne_nil _ unnamed)

theorem Module.isLoaded_of_ofFields {fields : Fields} (plain : (Json.obj fields).IsPlain)
    {module_ : Module} (read : Module.ofFields fields = .ok module_) :
    ∀ symbol ∈ module_.symbols, symbol.IsLoaded := by
  obtain ⟨items, listed, read⟩ := bind_eq_ok_iff.mp read
  obtain ⟨symbols, each, read⟩ := bind_eq_ok_iff.mp read
  cases read
  exact forall_mem_of_mapM each fun own inside symbol => Symbol.isLoaded_of_ofFields
    (Json.isPlain_of_objectsOrNone (Json.isPlain_getD plain _) listed own inside)

/-! ### What documents are read from plain values -/

theorem isPlain_upgradeSymbol {fields : Fields} (plain : (Json.obj fields).IsPlain) :
    (Json.obj (upgradeSymbol fields)).IsPlain := by
  refine Json.isPlain_setDefault (Json.isPlain_setDefault plain ?_ _) (Json.isPlain_str _) _
  split
  · exact Json.isPlain_getD plain _
  · exact Json.isPlain_str _

theorem isPlain_upgradeModule {fields upgraded : Fields} (plain : (Json.obj fields).IsPlain)
    (done : upgradeModule fields = .ok upgraded) : (Json.obj upgraded).IsPlain := by
  obtain ⟨symbols, listed, done⟩ := bind_eq_ok_iff.mp done
  cases done
  refine Json.isPlain_set plain (Json.isPlain_arr_map fun own inside => ?_) _
  exact isPlain_upgradeSymbol
    (Json.isPlain_of_objectsOrNone (Json.isPlain_getD plain _) listed own inside)

/-- A document that has been brought up to date holds nothing new that JSON would not give back. -/
theorem isPlain_upgrade {fields upgraded : Fields} (plain : (Json.obj fields).IsPlain)
    (done : upgrade fields = .ok upgraded) : (Json.obj upgraded).IsPlain := by
  rw [upgrade] at done
  split at done
  · cases done
    exact plain
  · obtain ⟨items, listed, done⟩ := bind_eq_ok_iff.mp done
    obtain ⟨modules, each, done⟩ := bind_eq_ok_iff.mp done
    cases done
    have version : (Json.int schemaVersion).IsPlain := rfl
    have all : ∀ own ∈ modules, (Json.obj (id own)).IsPlain :=
      forall_mem_of_mapM each fun own inside _ => isPlain_upgradeModule
        (Json.isPlain_of_objectsOrNone (Json.isPlain_getD plain _) listed own inside)
    exact Json.isPlain_set
      (Json.isPlain_setDefault (Json.isPlain_set plain version _) Json.isPlain_null _)
      (Json.isPlain_arr_map all) _

/-- Whether a reference is one that loading returns. -/
structure Reference.IsLoaded (reference : Reference) : Prop where
  schemaVersion : (Json.int reference.schemaVersion).IsPlain
  current : 1 ≤ reference.schemaVersion
  generatorVersion : reference.generatorVersion ≠ []
  symbols : ∀ module_ ∈ reference.modules, ∀ symbol ∈ module_.symbols, symbol.IsLoaded

theorem Reference.isLoaded_of_read {fields upgraded : Fields} (plain : (Json.obj fields).IsPlain)
    (done : upgrade fields = .ok upgraded) {reference : Reference}
    (read : Reference.ofFields upgraded = .ok reference) : reference.IsLoaded := by
  have upgradedPlain := isPlain_upgrade plain done
  obtain ⟨version, versioned, read⟩ := bind_eq_ok_iff.mp read
  obtain ⟨items, listed, read⟩ := bind_eq_ok_iff.mp read
  obtain ⟨modules, each, read⟩ := bind_eq_ok_iff.mp read
  cases read
  have one : (Json.int LuauReference.schemaVersion).IsPlain := rfl
  exact {
    schemaVersion := Json.isPlain_of_asIntOr (Json.isPlain_getD upgradedPlain _) one versioned
    current := version_of_isCurrent (isCurrent_of_upgrade done) versioned
    generatorVersion := Json.textOr_ne_nil _ (by decide)
    symbols := forall_mem_of_mapM each fun own inside _ => Module.isLoaded_of_ofFields
      (Json.isPlain_of_objectsOrNone (Json.isPlain_getD upgradedPlain _) listed own inside) }

/-! ### Loading once more -/

theorem Symbol.IsPlain.settled {symbol : Symbol} (plain : symbol.IsPlain) :
    symbol.settled.IsPlain := by
  have column : (Json.int symbol.settled.location.column).IsPlain := by
    show (Json.int (if symbol.location.column = 0 then 1 else symbol.location.column)).IsPlain
    split
    · rfl
    · exact plain.column
  exact ⟨plain.line, column, plain.tags, plain.structured⟩

/-- What holds of every symbol once it is settled holds of the symbols of the settled reference. -/
theorem Reference.forall_mem_settled {reference : Reference} {holds : Symbol → Prop}
    (each : ∀ module_ ∈ reference.modules, ∀ symbol ∈ module_.symbols, holds symbol.settled) :
    ∀ module_ ∈ reference.settled.modules, ∀ symbol ∈ module_.symbols, holds symbol := by
  intro module_ listed symbol inside
  obtain ⟨module', member, rfl⟩ := List.mem_map.mp listed
  obtain ⟨symbol', member', rfl⟩ := List.mem_map.mp inside
  exact each module' member symbol' member'

theorem Reference.IsLoaded.isPlain {reference : Reference} (loaded : reference.IsLoaded) :
    reference.IsPlain :=
  ⟨loaded.schemaVersion, fun module_ listed symbol inside =>
    (loaded.symbols module_ listed symbol inside).plain⟩

theorem Reference.IsLoaded.isPlain_settled {reference : Reference} (loaded : reference.IsLoaded) :
    reference.settled.IsPlain :=
  ⟨loaded.schemaVersion, Reference.forall_mem_settled fun module_ listed symbol inside =>
    (loaded.symbols module_ listed symbol inside).plain.settled⟩

theorem Reference.IsLoaded.isComplete_settled {reference : Reference}
    (loaded : reference.IsLoaded) :
    reference.settled.IsComplete :=
  ⟨loaded.current, loaded.generatorVersion,
    Reference.forall_mem_settled fun module_ listed symbol inside =>
      (loaded.symbols module_ listed symbol inside).complete⟩

/-- A reference that loading returned is read back from its text with its columns settled. -/
theorem Reference.IsLoaded.read_settled {reference : Reference} (loaded : reference.IsLoaded) :
    Reference.read reference.write = .ok reference.settled := by
  have value : Json.read reference.write = .ok reference.toJson :=
    Json.read_document (Reference.isPlain_toFields loaded.isPlain)
  rw [Reference.read, value, Reference.toJson_eq]
  show (upgrade reference.toFields >>= Reference.ofFields) = .ok reference.settled
  rw [upgrade_toFields loaded.current]
  exact (Reference.ofFields_toFields_settled reference).symm.trans
    (Reference.ofFields_toFields loaded.isComplete_settled)

/-- Loading normalises. A reference that was read from a text, whatever values that text has in its
fields, is read back from its own text with every column of zero replaced by one and nothing else
changed; and the reference that is then held is read back from its text as it is. -/
theorem Reference.read_write_of_read {raw : Text}
    (defined : ∀ value, Json.read raw = .ok value → value.IsDefined) {reference : Reference}
    (read : Reference.read raw = .ok reference) :
    Reference.read reference.write = .ok reference.settled ∧
      Reference.read reference.settled.write = .ok reference.settled := by
  have loaded : reference.IsLoaded := by
    rw [Reference.read] at read
    split at read
    · cases read
    · cases read
    · next fields held =>
      obtain ⟨upgraded, done, read⟩ := bind_eq_ok_iff.mp read
      exact Reference.isLoaded_of_read (Json.isSound_of_read held (defined _ held)) done read
    · cases read
  exact ⟨loaded.read_settled, Reference.read_of_json loaded.isComplete_settled
    (Json.read_document (Reference.isPlain_toFields loaded.isPlain_settled))⟩

/-- A document in which hardly a value has the kind it should: the version is a truth value, the
kind a list and the name a number, the line is a numeral with blanks around it and the column a
half, and a tag holds a tenth and an infinity. -/
def loosePayload : Fields :=
  [("schemaVersion", .bool true), ("generatorVersion", .int 3),
    ("modules", .arr [.obj [("symbols", .arr [.obj [("kind", .arr [.null]), ("name", .int (-7)),
      ("location",
        .obj [("line", .str " +1_2 "), ("column", .float (.finite false (2 ^ 52) (-53)))]),
      ("docs", .obj [("tags", .arr [.obj [
        ("value",
          .arr [.float (.finite false 7205759403792794 (-56)), .float (.infinite true)])]])])]])]])]

theorem Reference.read_write_of_read_loose :
    (∀ value, Json.read (Json.obj loosePayload).document = .ok value → value.IsDefined) ∧
      ∃ reference, Reference.read (Json.obj loosePayload).document = .ok reference ∧
        reference.symbols.map
          (fun symbol => (symbol.name, symbol.location.line, symbol.location.column)) =
          [("-7".toList, 12, 0)] ∧
        reference.settled.symbols.map (fun symbol => symbol.location.column) = [1] ∧
        Reference.read reference.write = .ok reference.settled ∧
          Reference.read reference.settled.write = .ok reference.settled := by
  have half : (Json.float (.finite false (2 ^ 52) (-53))).IsPlain :=
    Json.isPlain_float ⟨by decide, by decide, by decide, Or.inl (by decide)⟩
  have tenth : (Json.float (.finite false 7205759403792794 (-56))).IsPlain :=
    Json.isPlain_float ⟨by decide, by decide, by decide, Or.inl (by decide)⟩
  have three : Json.number? (Text.ofInt 3) = .ok (.int 3) := rfl
  have seven : Json.number? (Text.ofInt (-7)) = .ok (.int (-7)) := rfl
  have plain : (Json.obj loosePayload).IsPlain := by
    rw [Json.IsPlain] at half tenth
    simp only [loosePayload, Json.IsPlain, Json.ArePlainItems, Json.ArePlainFields, half, tenth]
    simp [three, seven]
  have parsed := Json.read_document plain
  have defined : ∀ value, Json.read (Json.obj loosePayload).document = .ok value →
      value.IsDefined := by
    intro value held
    rw [parsed] at held
    cases held
    simp [loosePayload, Json.IsDefined, Json.AreDefinedFields, Json.AreDefinedItems]
  obtain ⟨reference, read, named, columns⟩ : ∃ reference : Reference,
      Reference.read (Json.obj loosePayload).document = .ok reference ∧
        reference.symbols.map
          (fun symbol => (symbol.name, symbol.location.line, symbol.location.column)) =
          [("-7".toList, 12, 0)] ∧
        reference.settled.symbols.map (fun symbol => symbol.location.column) = [1] := by
    rw [Reference.read, parsed]
    exact ⟨_, rfl, by decide, by decide⟩
  exact ⟨defined, reference, read, named, columns, Reference.read_write_of_read defined read⟩

end LuauReference
