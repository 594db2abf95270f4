/-
This file proves what holds of every symbol that is made from the lines of a file, whatever they
are. Its kind, its names and its visibility are not empty, it stands on a line of the file, and the
structure of its type holds texts, marks and lists of described things only, with a name on
everything that is shown by one. Taking documentation over from another symbol keeps all of this,
also when the two are of different kinds.
-/

import LuauReference.Proofs.Declaration.Reader
import LuauReference.Proofs.Symbol.Inherit
import LuauReference.Proofs.Symbol.Wire
import LuauReference.Symbol.Assembly

namespace LuauReference

/-! ### Types -/

namespace Assembly

/-- The fields of a described thing. -/
def Described.toFields (item : Described) : Fields :=
  item.name.toList.map (fun name => ("name".toList, Json.str name)) ++
    [("type".toList, .ofText? item.type), ("description".toList, .ofText? item.description)]

/-- What can stand under a name in the structure of a type: a text, a mark, or a list of described
things. Only results and errors may go without names. -/
inductive Fits (name : Text) : Json → Prop
  | text (content : Option Text) : Fits name (.ofText? content)
  | mark (isSet : Bool) : Fits name (.bool isSet)
  | entries (items : List Described)
      (named : name ≠ "returns".toList → name ≠ "errors".toList →
        ∀ item ∈ items, item.name.isSome) :
      Fits name (.arr (items.map Described.toJson))

end Assembly

/-- Whether the structure of a type is one that can be shown: its names are distinct and its values
fit. -/
structure SymbolTypes.IsShaped (types : SymbolTypes) : Prop where
  distinct : (Named.names types.fields).Nodup
  values : ∀ field ∈ types.fields, Assembly.Fits field.1 field.2

namespace Assembly

/-- A list of described things that all have names fits under every name. -/
theorem fits_map {α : Type} {items : List α} (name : Text) (describe : α → Described)
    (named : ∀ item ∈ items, (describe item).name.isSome) :
    Fits name (.arr (items.map fun item => (describe item).toJson)) := by
  rw [show (items.map fun item => (describe item).toJson) =
    (items.map describe).map Described.toJson by rw [List.map_map]; rfl]
  refine .entries _ fun _ _ => ?_
  intro item member
  obtain ⟨source, inside, rfl⟩ := List.mem_map.mp member
  exact named source inside

/-! ### Functions -/

theorem type_of_mem_ownParams {signature : Option Declaration.Signature} {isMethod : Bool}
    {param : Declaration.Param} (sound : ∀ found ∈ signature, found.IsSound)
    (member : param ∈ ownParams signature isMethod) : param.type ≠ some [] := by
  cases signature with
  | none => cases member
  | some signature =>
    have all := (sound signature rfl).params
    simp only [ownParams, Option.map_some, Option.getD_some] at member
    split at member
    · next first rest same =>
      split at member
      · exact all param (same ▸ List.mem_cons_of_mem first member)
      · exact all param (same ▸ member)
    · cases member

theorem declaredType_ne {params : List Declaration.Param}
    (typed : ∀ param ∈ params, param.type ≠ some []) (name : Text) :
    declaredType params name ≠ some [] := by
  intro empty
  obtain ⟨param, found, type⟩ := Option.bind_eq_some_iff.mp empty
  exact typed param (List.mem_reverse.mp (List.mem_of_find?_eq_some found)) type

theorem type_ofEntry {fallback : Option Text} {entry : Doc.Entry} (type : entry.type ≠ some [])
    (other : fallback ≠ some []) : (Described.ofEntry fallback entry).type ≠ some [] := by
  show (entry.type <|> fallback) ≠ some []
  cases given : entry.type with
  | none => exact other
  | some text =>
    rw [given] at type
    exact type

/-- What the type of a function is made of: parameters that have names, and results; neither has an
empty type. -/
theorem functionTypes_eq {record : Doc.Record} {signature : Option Declaration.Signature}
    (sound : record.IsSound) (declared : ∀ found ∈ signature, found.IsSound) (isMethod : Bool) :
    ∃ params returns errors : List Described,
      functionTypes record signature isMethod =
        ⟨functionText (params.map fun item => (item.name.getD [], item.type))
            (returns.map Described.type),
          some [("params", .arr (params.map Described.toJson)),
            ("returns", .arr (returns.map Described.toJson)),
            ("errors", .arr (errors.map Described.toJson)),
            ("yields", .bool record.marks.yields)]⟩ ∧
      (∀ item ∈ params, item.name.isSome ∧ item.type ≠ some []) ∧
      ∀ item ∈ returns, item.type ≠ some [] := by
  have typed : ∀ param ∈ ownParams signature isMethod, param.type ≠ some [] :=
    fun _ member => type_of_mem_ownParams declared member
  refine ⟨_, _, _, rfl, ?_, ?_⟩
  · intro item member
    split at member
    · obtain ⟨param, inside, rfl⟩ := List.mem_map.mp member
      exact ⟨rfl, typed param inside⟩
    · obtain ⟨entry, inside, rfl⟩ := List.mem_map.mp member
      obtain ⟨named, type⟩ := sound.params entry inside
      exact ⟨named, type_ofEntry type (declaredType_ne typed _)⟩
  · intro item member
    split at member
    · obtain ⟨type, inside, rfl⟩ := List.mem_map.mp member
      obtain ⟨found, held, same⟩ := Option.bind_eq_some_iff.mp (Option.mem_toList.mp inside)
      exact same ▸ (declared found held).returnType
    · obtain ⟨entry, inside, rfl⟩ := List.mem_map.mp member
      exact type_ofEntry (sound.returns entry inside) nofun

theorem isShaped_functionTypes {record : Doc.Record} {signature : Option Declaration.Signature}
    (sound : record.IsSound) (declared : ∀ found ∈ signature, found.IsSound) (isMethod : Bool) :
    (functionTypes record signature isMethod).IsShaped := by
  obtain ⟨params, returns, errors, same, named, typed⟩ := functionTypes_eq sound declared isMethod
  rw [same]
  refine ⟨by simp [SymbolTypes.fields], ?_⟩
  refine List.forall_mem_cons.mpr ⟨.entries _ fun _ _ item member => (named item member).1, ?_⟩
  refine List.forall_mem_cons.mpr ⟨.entries _ fun other => absurd rfl other, ?_⟩
  refine List.forall_mem_cons.mpr ⟨.entries _ fun _ other => absurd rfl other, ?_⟩
  exact List.forall_mem_singleton.mpr (.mark _)

theorem Described.get?_name (item : Described) :
    item.toFields.get? "name" = item.name.map Json.str := by
  obtain ⟨name, type, description⟩ := item
  cases name <;> rfl

theorem Described.getD_type (item : Described) :
    item.toFields.getD "type" = .ofText? item.type := by
  obtain ⟨name, type, description⟩ := item
  cases name <;> rfl

theorem Described.getD_description (item : Described) :
    item.toFields.getD "description" = .ofText? item.description := by
  obtain ⟨name, type, description⟩ := item
  cases name <;> rfl

theorem truthy?_ofText? {type : Option Text} (present : type ≠ some []) :
    (Json.ofText? type).truthy? = type.map Json.str := by
  cases type with
  | none => rfl
  | some text =>
    cases text with
    | nil => exact absurd rfl present
    | cons c rest => rfl

/-- Writing a function from the objects of its parameters and results finds a name on every
parameter, and gives what is written from the parameters and results themselves. -/
theorem functionTextOf_toFields {params returns : List Described}
    (named : ∀ item ∈ params, item.name.isSome ∧ item.type ≠ some [])
    (typed : ∀ item ∈ returns, item.type ≠ some []) :
    functionTextOf (params.map Described.toFields) (returns.map Described.toFields) =
      .ok (functionText (params.map fun item => (item.name.getD [], item.type))
        (returns.map Described.type)) := by
  rw [functionTextOf, List.mapM_map, List.mapM_map]
  refine Failure.bind_eq_ok_iff.mpr
    ⟨params.map fun item => (item.name.getD [], item.type), Failure.mapM_eq_ok ?_, ?_⟩
  · intro item member
    obtain ⟨present, type⟩ := named item member
    obtain ⟨name, given⟩ := Option.isSome_iff_exists.mp present
    simp only [Function.comp_apply, Described.get?_name, Described.getD_type, given,
      truthy?_ofText? type, Option.map_some, Option.map_map]
    cases item.type <;> rfl
  · refine Failure.bind_eq_ok_iff.mpr ⟨returns.map Described.type, Failure.mapM_eq_ok ?_, rfl⟩
    intro item member
    simp only [Function.comp_apply, Described.getD_type, truthy?_ofText? (typed item member)]
    cases item.type <;> rfl

/-! ### Other types -/

theorem isShaped_propertyTypes (record : Doc.Record) : (propertyTypes record).IsShaped := by
  refine ⟨by simp [SymbolTypes.fields, propertyTypes], ?_⟩
  exact List.forall_mem_cons.mpr ⟨.text _, List.forall_mem_singleton.mpr (.mark _)⟩

theorem isShaped_interfaceTypes (record : Doc.Record) : (interfaceTypes record).IsShaped := by
  refine ⟨by simp [SymbolTypes.fields, interfaceTypes], ?_⟩
  exact List.forall_mem_singleton.mpr (fits_map _ _ fun _ _ => rfl)

theorem isShaped_typeTypes (record : Doc.Record) (fields : Option (List Declaration.TableField)) :
    (typeTypes record fields).IsShaped := by
  have items : Fits "fields" (.arr ((fields.getD []).map fun field =>
      Described.toJson ⟨some field.name, field.type, field.description⟩)) :=
    fits_map _ _ fun _ _ => rfl
  unfold typeTypes
  constructor
  · simp only [SymbolTypes.fields, Option.getD_some]
    split <;> simp
  · refine List.forall_mem_cons.mpr ⟨.text _, ?_⟩
    split
    · exact List.forall_mem_nil _
    · exact List.forall_mem_singleton.mpr items

theorem isShaped_classTypes (record : Doc.Record) : (classTypes record).IsShaped := by
  refine ⟨by simp [SymbolTypes.fields, classTypes], ?_⟩
  exact List.forall_mem_singleton.mpr (.text _)

theorem isSound_of_isIn {declaration : Option Declaration} {lines : List Text}
    (declared : ∀ found ∈ declaration, found.IsIn lines) :
    ∀ signature ∈ declaration.bind Declaration.signature?, signature.IsSound := by
  intro signature member
  obtain ⟨found, held, read⟩ := Option.bind_eq_some_iff.mp member
  exact (declared found held).signature signature read

theorem isShaped_typesOf {record : Doc.Record} (sound : record.IsSound) (kind : Doc.Kind)
    {declaration : Option Declaration} {lines : List Text}
    (declared : ∀ found ∈ declaration, found.IsIn lines) (isMethod : Bool) :
    (typesOf kind record declaration isMethod).IsShaped := by
  have signatures := isSound_of_isIn declared
  cases kind with
  | function => exact isShaped_functionTypes sound signatures isMethod
  | constructor => exact isShaped_functionTypes sound signatures isMethod
  | property => exact isShaped_propertyTypes record
  | interface => exact isShaped_interfaceTypes record
  | type => exact isShaped_typeTypes record _
  | «class» => exact isShaped_classTypes record

end Assembly

/-! ### Locations -/

/-- Whether a location points into a line of a file. -/
structure Location.IsIn (location : Location) (lines : List Text) : Prop where
  first : 1 ≤ location.line
  last : location.line ≤ lines.length
  column : 1 ≤ location.column
  width : ∃ line ∈ lines, location.column ≤ line.length + 1

theorem Location.column_ofLine (file : Text) (number : Int) (line : Text) :
    1 ≤ (Location.ofLine file number line).column ∧
      (Location.ofLine file number line).column ≤ line.length + 1 := by
  simp only [Location.ofLine]
  split <;> omega

theorem Location.isIn_ofLine {number : Nat} {line : Text} {lines : List Text} (file : Text)
    (first : 1 ≤ number) (last : number ≤ lines.length) (member : line ∈ lines) :
    (Location.ofLine file number line).IsIn lines where
  first := Int.ofNat_le.mpr first
  last := Int.ofNat_le.mpr last
  column := (Location.column_ofLine file number line).1
  width := ⟨line, member, (Location.column_ofLine file number line).2⟩

namespace Assembly

theorem lineAt_mem {lines : List Text} {number : Nat} (first : 1 ≤ number)
    (last : number ≤ lines.length) : lineAt lines number ∈ lines := by
  have inside : number - 1 < lines.length := by omega
  rw [lineAt, if_neg (by omega), List.getD_eq_getElem?_getD, List.getElem?_eq_getElem inside]
  exact List.getElem_mem inside

/-! ### Tags -/

theorem isPlain_textTag (name value : Text) :
    (textTag name value).value.IsPlain ∧ (textTag name value).description.IsPlain :=
  ⟨Json.isPlain_str value, Json.isPlain_ofText? none⟩

theorem isPlain_bool (isSet : Bool) : (Json.bool isSet).IsPlain := by
  rw [Json.IsPlain]
  trivial

theorem isPlain_flagTag {name : Text} {present : Bool} :
    ∀ tag ∈ flagTag name present, tag.value.IsPlain ∧ tag.description.IsPlain := by
  cases present with
  | true => exact List.forall_mem_singleton.mpr ⟨isPlain_bool true, Json.isPlain_ofText? none⟩
  | false => exact List.forall_mem_nil _

/-- JSON gives back the tags of a block. -/
theorem isPlain_tagsOf (record : Doc.Record) :
    ∀ tag ∈ tagsOf record, tag.value.IsPlain ∧ tag.description.IsPlain := by
  have deprecated (note : Doc.Deprecation) :
      (Json.ofText? note.version).IsPlain ∧ (Json.ofText? note.description).IsPlain :=
    ⟨Json.isPlain_ofText? _, Json.isPlain_ofText? _⟩
  have realm : (Json.bool true).IsPlain ∧ Json.null.IsPlain :=
    ⟨isPlain_bool true, Json.isPlain_ofText? none⟩
  simp only [tagsOf, List.forall_mem_append, List.forall_mem_map]
  simp only [isPlain_textTag, deprecated, realm, implies_true, and_true, true_and]
  exact ⟨⟨isPlain_flagTag, isPlain_flagTag⟩, isPlain_flagTag⟩

/-! ### Symbols of a block -/

theorem ne_nil_of_identify {record : Doc.Record} {declaration : Option Declaration} {name : Text}
    (found : (identify record declaration).2.1 = some name) : name ≠ [] := by
  unfold identify at found
  split at found
  · next declared primary =>
    dsimp only at found
    rw [Option.orElse_eq_orElse, Option.orElse_eq_or, Option.or_eq_some_iff] at found
    rcases found with own | ⟨_, other⟩
    · exact Doc.ne_nil_of_nonEmpty? own
    · obtain ⟨code, held, named⟩ := Option.bind_eq_some_iff.mp other
      exact Doc.ne_nil_of_nonEmpty? named
  · split at found
    · exact Doc.ne_nil_of_nonEmpty? found
    · cases found

theorem word_visibility_ne_nil (level : Option Doc.Visibility) :
    (match level with
      | some level => level.word
      | none => "public".toList) ≠ [] := by
  rcases level with _ | _ | _ <;> decide

/-- What the symbols of a block are: a symbol with the name and the kind of what the block
documents, and the symbols of its fields. All of them stand in the file. -/
theorem mem_blockSymbols {record : Doc.Record} {block : Comment.Block}
    {declaration : Option Declaration} {lines : List Text} {file : Text} {classNames : List Text}
    {symbol : Symbol} (inside : block.IsIn lines)
    (declared : ∀ found ∈ declaration, found.IsIn lines)
    (member : symbol ∈ (blockSymbols record block declaration lines file classNames).1) :
    ∃ (kind : Doc.Kind) (name : Text) (within : Option Text) (isMethod : Bool)
      (location : Location) (visibility : Text),
      name ≠ [] ∧ location.IsIn lines ∧ visibility ≠ [] ∧
      (symbol = ⟨kind.word, name, qualifiedName within name isMethod, location, docsOf record,
          typesOf kind record declaration isMethod, visibility⟩ ∨
        symbol ∈ fieldSymbols kind name record declaration lines file location visibility) := by
  unfold blockSymbols at member
  dsimp only at member
  split at member
  · next kind name kindFound nameFound =>
    refine ⟨kind, name, _, _, _, _, ne_nil_of_identify nameFound, ?_, ?_,
      List.mem_cons.mp member⟩
    · cases declaration with
      | none =>
        have last := Nat.le_trans inside.ordered inside.last
        exact Location.isIn_ofLine file inside.first last (lineAt_mem inside.first last)
      | some found =>
        have stands := declared found rfl
        exact Location.isIn_ofLine file stands.first stands.last stands.line
    · exact word_visibility_ne_nil record.marks.visibility
  · cases member

end Assembly

/-- Whether a symbol is one that the lines of a file can have: its kind, its names and its
visibility are not empty, it stands in the file, JSON gives back its tags, and its type can be
shown. -/
structure Symbol.IsAssembled (symbol : Symbol) (lines : List Text) : Prop where
  kind : symbol.kind ≠ []
  name : symbol.name ≠ []
  qualified : symbol.qualified ≠ []
  visibility : symbol.visibility ≠ []
  location : symbol.location.IsIn lines
  tags : ∀ tag ∈ symbol.docs.tags, tag.value.IsPlain ∧ tag.description.IsPlain
  types : symbol.types.IsShaped

theorem qualifiedName_ne_nil {name : Text} (within : Option Text) (isMethod : Bool)
    (present : name ≠ []) : qualifiedName within name isMethod ≠ [] := by
  unfold qualifiedName
  split
  · exact present
  · split
    · exact present
    · exact List.append_ne_nil_of_right_ne_nil _ (List.cons_ne_nil _ _)

namespace Assembly

theorem isAssembled_fieldSymbol {lines : List Text} {field : Declaration.TableField}
    {location : Location} {visibility : Text} (owner : Text) (name : field.name ≠ [])
    (stands : location.IsIn lines) (visible : visibility ≠ []) :
    (fieldSymbol owner field location visibility).IsAssembled lines where
  kind := by
    show "field".toList ≠ []
    decide
  name := name
  qualified := List.append_ne_nil_of_right_ne_nil _ (List.cons_ne_nil _ _)
  visibility := visible
  location := stands
  tags := List.forall_mem_nil _
  types := ⟨List.nodup_singleton _, List.forall_mem_singleton.mpr (.text _)⟩

section

variable {kind : Doc.Kind} {name : Text} {record : Doc.Record} {declaration : Option Declaration}
  {lines : List Text} {file : Text} {location : Location} {visibility : Text} {symbol : Symbol}

/-- What the symbols of fields are: those of the fields of a declared table type, which stand on the
lines of their fields, or those of the fields with a name in a record, which stand where their owner
does. -/
theorem mem_fieldSymbols
    (member : symbol ∈ fieldSymbols kind name record declaration lines file location visibility) :
    (∃ found ∈ declaration, ∃ fields ∈ found.tableFields?, ∃ field ∈ fields, ∃ place,
      (∀ number ∈ field.line, number ≠ 0 → place = .ofLine file number (lineAt lines number)) ∧
        symbol = fieldSymbol name field place visibility) ∨
    ∃ field ∈ record.fields, field.name ≠ [] ∧
      symbol = fieldSymbol name
        ⟨field.name, field.type, field.description, none⟩ location visibility := by
  unfold fieldSymbols at member
  split at member
  · obtain ⟨field, inside, rfl⟩ := List.mem_map.mp member
    cases read : declaration.bind Declaration.tableFields? with
    | none =>
      rw [read] at inside
      cases inside
    | some fields =>
      rw [read] at inside
      obtain ⟨found, held, same⟩ := Option.bind_eq_some_iff.mp read
      refine Or.inl ⟨found, held, fields, same, field, inside, _, fun number line placed => ?_, rfl⟩
      rw [Option.mem_def.mp line]
      exact if_neg placed
  · obtain ⟨field, inside, rfl⟩ := List.mem_map.mp member
    obtain ⟨held, named⟩ := List.mem_filter.mp inside
    exact Or.inr ⟨field, held, by simpa using named, rfl⟩
  · cases member

theorem kind_of_mem_fieldSymbols
    (member : symbol ∈ fieldSymbols kind name record declaration lines file location visibility) :
    symbol.kind = "field" := by
  rcases mem_fieldSymbols member with ⟨_, _, _, _, _, _, _, _, rfl⟩ | ⟨_, _, _, rfl⟩ <;> rfl

/-- The symbols of fields stand on the lines of their fields, or else where their owner stands. -/
theorem isAssembled_of_mem_fieldSymbols (declared : ∀ found ∈ declaration, found.IsIn lines)
    (stands : location.IsIn lines) (visible : visibility ≠ [])
    (member : symbol ∈ fieldSymbols kind name record declaration lines file location visibility) :
    symbol.IsAssembled lines := by
  rcases mem_fieldSymbols member with
    ⟨found, held, fields, same, field, inside, place, onLine, rfl⟩ | ⟨field, -, named, rfl⟩
  · have placed := (declared found held).fields fields same field inside
    obtain ⟨number, line, above, below⟩ := placed.line
    refine isAssembled_fieldSymbol name placed.name ?_ visible
    rw [onLine number line (Nat.ne_of_gt above)]
    exact Location.isIn_ofLine file above below (lineAt_mem above below)
  · exact isAssembled_fieldSymbol name named stands visible

end

theorem isAssembled_of_mem_blockSymbols {record : Doc.Record} {block : Comment.Block}
    {declaration : Option Declaration} {lines : List Text} {file : Text} {classNames : List Text}
    {symbol : Symbol} (sound : record.IsSound) (inside : block.IsIn lines)
    (declared : ∀ found ∈ declaration, found.IsIn lines)
    (member : symbol ∈ (blockSymbols record block declaration lines file classNames).1) :
    symbol.IsAssembled lines := by
  obtain ⟨kind, name, within, isMethod, location, visibility, named, stands, visible,
    own | field⟩ :=
    mem_blockSymbols inside declared member
  · rw [own]
    refine ⟨?_, named, qualifiedName_ne_nil within isMethod named, visible, stands,
      isPlain_tagsOf record, isShaped_typesOf sound kind declared isMethod⟩
    show kind.word ≠ []
    cases kind <;> decide
  · exact isAssembled_of_mem_fieldSymbols declared stands visible field

/-! ### Symbols of a file -/

theorem isSound_resolvePlaceholder {record : Doc.Record} (sound : record.IsSound)
    (current : Option Text) : (resolvePlaceholder current record).IsSound := by
  unfold resolvePlaceholder
  split
  · exact ⟨sound.params, sound.returns⟩
  · exact sound

theorem isIn_of_declarationFor? {lines : List Text} {block : Comment.Block} {record : Doc.Record} :
    ∀ found ∈ declarationFor? lines block record, found.IsIn lines := by
  intro found member
  unfold declarationFor? at member
  split at member
  · exact Declaration.isIn_of_afterBlock? member
  · split at member
    · exact Declaration.isIn_of_afterBlock? member
    · cases member

/-- Every symbol of some records is one of a record of them, with the placeholder replaced. -/
theorem exists_of_mem_assembleRecords {lines : List Text} {file : Text} {classNames : List Text}
    {records : List (Comment.Block × Doc.Record)} {symbol : Symbol} {before : Option Text}
    (member : symbol ∈ (assembleRecords lines file classNames before records).1) :
    ∃ (block : Comment.Block) (record : Doc.Record) (current : Option Text),
      (block, record) ∈ records ∧
      let resolved := resolvePlaceholder current record
      symbol ∈ (blockSymbols resolved block (declarationFor? lines block resolved) lines file
        classNames).1 := by
  induction records generalizing before with
  | nil => cases member
  | cons pair rest inductionHypothesis =>
    obtain ⟨block, record⟩ := pair
    rcases List.mem_append.mp member with own | later
    · exact ⟨block, record, _, List.mem_cons_self, own⟩
    · obtain ⟨other, read, current, held, inside⟩ := inductionHypothesis later
      exact ⟨other, read, current, List.mem_cons_of_mem _ held, inside⟩

/-- Every symbol of a file is one of a sound record, of a block that lies in the file and of a
declaration that stands in it. -/
theorem mem_assembleRecords {lines : List Text} {file : Text} {classNames : List Text}
    {records : List (Comment.Block × Doc.Record)} {symbol : Symbol} {before : Option Text}
    (each : ∀ pair ∈ records, pair.1.IsIn lines ∧ pair.2.IsSound)
    (member : symbol ∈ (assembleRecords lines file classNames before records).1) :
    ∃ (record : Doc.Record) (block : Comment.Block) (declaration : Option Declaration),
      record.IsSound ∧ block.IsIn lines ∧ (∀ found ∈ declaration, found.IsIn lines) ∧
      symbol ∈ (blockSymbols record block declaration lines file classNames).1 := by
  obtain ⟨block, record, current, held, own⟩ := exists_of_mem_assembleRecords member
  obtain ⟨inside, sound⟩ := each _ held
  exact ⟨_, block, _, isSound_resolvePlaceholder sound current, inside,
    isIn_of_declarationFor?, own⟩

theorem isIn_of_mem_recordsOf {lines : List Text} :
    ∀ pair ∈ recordsOf lines, pair.1.IsIn lines ∧ pair.2.IsSound := by
  intro pair member
  obtain ⟨block, outside, rfl⟩ := List.mem_map.mp member
  exact ⟨Comment.isIn_of_mem_blocks (List.mem_filter.mp outside).1, Doc.isSound_read block.content⟩

end Assembly

/-- Every symbol of a file is one that its lines can have. -/
theorem isAssembled_of_mem_assemble {lines : List Text} {file : Text} {symbol : Symbol}
    (member : symbol ∈ (assemble lines file).1) : symbol.IsAssembled lines := by
  obtain ⟨record, block, declaration, sound, inside, declared, own⟩ :=
    Assembly.mem_assembleRecords Assembly.isIn_of_mem_recordsOf member
  exact Assembly.isAssembled_of_mem_blockSymbols sound inside declared own

/-! ### Documentation taken over -/

theorem Inherit.isAssembled_merge {lines : List Text} {symbol target : Symbol}
    (own : symbol.IsAssembled lines) (other : target.IsAssembled lines) :
    (merge symbol target).IsAssembled lines where
  kind := own.kind
  name := own.name
  qualified := own.qualified
  visibility := own.visibility
  location := own.location
  tags := by
    rw [tags_merge]
    split
    · exact other.tags
    · exact own.tags
  types := by
    rw [merge_eq]
    cases takesTypes symbol target with
    | true => exact other.types
    | false => exact own.types

/-- Taking documentation over leaves symbols that the lines can have. -/
theorem isAssembled_of_mem_inheritDocs {lines : List Text} {symbols : List Symbol} {symbol : Symbol}
    (each : ∀ symbol ∈ symbols, symbol.IsAssembled lines) (member : symbol ∈ inheritDocs symbols) :
    symbol.IsAssembled lines :=
  Inherit.forall_mem_inheritDocs (fun _ _ => Inherit.isAssembled_merge) each symbol member

/-! ### References of files -/

/-- Whether a reference is made of files, given by their names and lines: it has a module for each
file, with the symbols of its lines. -/
def Reference.IsMadeOf (reference : Reference) (files : List (Text × List Text)) : Prop :=
  reference.modules.map (fun module_ => (module_.path, module_.symbols)) =
    files.map fun file => (file.1, inheritDocs (assemble file.2 file.1).1)

/-- Every symbol of a module is one that the lines of a file can have. -/
theorem Reference.IsMadeOf.isAssembled {reference : Reference} {files : List (Text × List Text)}
    (made : reference.IsMadeOf files) {module_ : Module} (member : module_ ∈ reference.modules) :
    ∃ file ∈ files, ∀ symbol ∈ module_.symbols, symbol.IsAssembled file.2 := by
  have listed : (module_.path, module_.symbols) ∈ files.map fun file =>
      (file.1, inheritDocs (assemble file.2 file.1).1) :=
    made ▸ List.mem_map_of_mem member
  obtain ⟨file, inside, same⟩ := List.mem_map.mp listed
  refine ⟨file, inside, ?_⟩
  rw [← (Prod.mk.inj same).2]
  intro symbol held
  exact isAssembled_of_mem_inheritDocs (fun _ => isAssembled_of_mem_assemble) held

end LuauReference
