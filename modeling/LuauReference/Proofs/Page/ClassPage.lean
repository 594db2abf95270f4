/-
This file proves that the page of a class is laid out, and can be written, when the types of its
members are of the shape that source files give them. The kind of a member decides which parts of
its type are shown, and the type may have been taken over from a symbol of another kind, so nothing
here depends on the kind: whatever stands under the name of a list is a list of described things, or
no list at all.
-/

import LuauReference.Page.ClassPage
import LuauReference.Proofs.Page.Markdown
import LuauReference.Proofs.Symbol.Assembly

namespace LuauReference

open Failure

namespace Page

/-! ### Lists in a structure -/

/-- An entry of a list is a described thing, with a name unless it is a result or an error. -/
theorem described_of_mem_entriesOf {fields entry : Fields} {name : Text}
    (fits : ∀ field ∈ fields, Assembly.Fits field.1 field.2)
    (member : entry ∈ entriesOf fields name) :
    ∃ item : Assembly.Described, entry = item.toFields ∧
      (name ≠ "returns".toList → name ≠ "errors".toList → item.name.isSome) := by
  unfold entriesOf Fields.getD at member
  cases found : Named.get? fields name with
  | none =>
    rw [found] at member
    cases member
  | some value =>
    rw [found, Option.getD_some] at member
    cases fits (name, value) (Named.mem_of_get?_eq_some found) with
    | text content => cases content <;> cases member
    | mark isSet => cases member
    | entries items named =>
      obtain ⟨json, inside, same⟩ := List.mem_filterMap.mp member
      obtain ⟨item, held, rfl⟩ := List.mem_map.mp inside
      exact ⟨item, (Option.some.inj same).symm, fun own other => named own other item held⟩

/-! ### Tables -/

theorem areWritable_ofText? (content : Option Text) :
    Inline.AreWritable (Inline.ofValue (.ofText? content)) := by
  rcases content with _ | _ | ⟨c, rest⟩
  · exact Inline.areWritable_nil
  · exact Inline.areWritable_nil
  · exact Inline.areWritable_cons trivial Inline.areWritable_nil

theorem isWritable_linkClass (links : Links) (name : Text) : (links.linkClass name).IsWritable := by
  unfold Links.linkClass
  split <;> trivial

theorem typeCell_gives (links : Links) (type : Option Text) :
    Gives (typeCell links (.ofText? type)) Inline.AreWritable := by
  rcases type with _ | _ | ⟨c, rest⟩
  · exact gives_ok Inline.areWritable_nil
  · exact gives_ok Inline.areWritable_nil
  · refine gives_ok (Inline.areWritable_cons ?_ Inline.areWritable_nil)
    split
    · exact isWritable_linkClass links _
    · trivial

theorem areWritable_name (item : Assembly.Described) :
    Inline.AreWritable (Inline.codeOfValue (item.toFields.getD "name")) := by
  rw [Fields.getD, item.get?_name]
  rcases item.name with _ | _ | ⟨c, rest⟩
  · exact Inline.areWritable_nil
  · exact Inline.areWritable_nil
  · exact Inline.areWritable_cons trivial Inline.areWritable_nil

theorem namedRow_gives (links : Links) (item : Assembly.Described) :
    Gives (namedRow links item.toFields) fun row => ∀ cell ∈ row, Inline.AreWritable cell := by
  rw [namedRow, item.getD_type, item.getD_description]
  refine (typeCell_gives links item.type).bind fun type writable => gives_ok ?_
  exact List.forall_mem_cons.mpr ⟨areWritable_name item, List.forall_mem_cons.mpr ⟨writable,
    List.forall_mem_singleton.mpr (areWritable_ofText? item.description)⟩⟩

theorem typedRow_gives (links : Links) (item : Assembly.Described) :
    Gives (typedRow links item.toFields) fun row => ∀ cell ∈ row, Inline.AreWritable cell := by
  rw [typedRow, item.getD_type, item.getD_description]
  refine (typeCell_gives links item.type).bind fun type writable => gives_ok ?_
  exact List.forall_mem_cons.mpr ⟨writable,
    List.forall_mem_singleton.mpr (areWritable_ofText? item.description)⟩

/-- Whether all objects of a list are described things. -/
def AreDescribed (items : List Fields) : Prop :=
  ∀ entry ∈ items, ∃ item : Assembly.Described, entry = item.toFields

theorem areDescribed_entriesOf {fields : Fields}
    (fits : ∀ field ∈ fields, Assembly.Fits field.1 field.2) (name : Text) :
    AreDescribed (entriesOf fields name) := by
  intro entry member
  obtain ⟨item, same, _⟩ := described_of_mem_entriesOf fits member
  exact ⟨item, same⟩

/-- A table with a row for each of several objects is laid out when each row is. -/
theorem table_gives (label : Text) (headers : List Text)
    {row : Fields → Except Failure (List (List Inline))} {items : List Fields}
    (each : ∀ entry ∈ items, Gives (row entry) fun cells =>
      ∀ cell ∈ cells, Inline.AreWritable cell) :
    Gives (if items.isEmpty then .ok [] else do
        let rows ← items.mapM row
        pure [.heading 4 label none, .table headers rows]) Block.AreWritable := by
  split
  · exact gives_ok Block.areWritable_nil
  · refine (gives_mapM each).bind fun rows writable => gives_ok ?_
    exact Block.areWritable_cons trivial (Block.areWritable_cons writable Block.areWritable_nil)

theorem namedTable_gives (settings : PageSettings) (links : Links) (label : Text)
    {items : List Fields} (described : AreDescribed items) :
    Gives (namedTable settings links label items) Block.AreWritable := by
  refine table_gives _ _ fun entry member => ?_
  obtain ⟨item, rfl⟩ := described entry member
  exact namedRow_gives links item

theorem typedTable_gives (settings : PageSettings) (links : Links) (label : Text)
    {items : List Fields} (described : AreDescribed items) :
    Gives (typedTable settings links label items) Block.AreWritable := by
  refine table_gives _ _ fun entry member => ?_
  obtain ⟨item, rfl⟩ := described entry member
  exact typedRow_gives links item

theorem detailTables_gives (settings : PageSettings) (links : Links) {member : Member}
    (shaped : member.symbol.types.IsShaped) :
    Gives (detailTables settings links member) Block.AreWritable := by
  have entries := areDescribed_entriesOf shaped.values
  refine (namedTable_gives settings links _ (entries "params")).bind fun params paramsFit => ?_
  refine (typedTable_gives settings links _ (entries "returns")).bind fun returns returnsFit => ?_
  refine (typedTable_gives settings links _ (entries "errors")).bind fun errors errorsFit => ?_
  have fields : AreDescribed (if (member.bucket == .type || member.bucket == .interface) &&
      member.symbol.kind != "field".toList then entriesOf member.symbol.types.fields "fields"
      else []) := by
    split
    · exact entries "fields"
    · exact List.forall_mem_nil _
  refine (namedTable_gives settings links _ fields).bind fun fields fieldsFit => gives_ok ?_
  exact Block.areWritable_append (Block.areWritable_append
    (Block.areWritable_append paramsFit returnsFit) errorsFit) fieldsFit

/-! ### Signatures -/

theorem fieldLine_gives {item : Assembly.Described} (named : item.name.isSome) :
    Gives (fieldLine item.toFields) fun _ => True := by
  obtain ⟨name, given⟩ := Option.isSome_iff_exists.mp named
  rw [fieldLine, item.get?_name, given]
  exact gives_ok trivial

/-- The definition of a type finds a name on every field. -/
theorem typeDefinition_gives (keyword name : Text) (value : Json) {structured : Fields}
    (fits : ∀ field ∈ structured, Assembly.Fits field.1 field.2) :
    Gives (some <$> typeDefinition keyword name value (entriesOf structured "fields"))
      fun _ => True := by
  have each : ∀ fields ∈ entriesOf structured "fields", Gives (fieldLine fields) fun _ => True := by
    intro fields member
    obtain ⟨item, rfl, named⟩ := described_of_mem_entriesOf fits member
    exact fieldLine_gives (named (by decide) (by decide))
  unfold typeDefinition
  dsimp only
  split
  · exact gives_ok trivial
  · split
    · exact gives_ok trivial
    · obtain ⟨lines, written, _⟩ := gives_mapM each
      rw [written]
      exact gives_ok trivial

theorem signature_gives (settings : PageSettings) (page : ClassPage) {member : Member}
    (shaped : member.symbol.types.IsShaped) :
    Gives (signature settings page member) fun _ => True := by
  fun_cases signature settings page member with
  | case1 => exact gives_ok trivial
  | case2 => exact typeDefinition_gives _ _ _ shaped.values
  | case3 => exact typeDefinition_gives _ _ _ shaped.values
  | case4 => exact gives_ok trivial
  | case5 => exact gives_ok trivial
  | case6 => exact gives_ok trivial

/-! ### Parts of a page -/

theorem areWritable_badgeIf (shown : Bool) (label : Text) :
    Inline.AreWritable (badgeIf shown label) := by
  cases shown with
  | true => exact Inline.areWritable_cons trivial Inline.areWritable_nil
  | false => exact Inline.areWritable_nil

theorem isWritable_deprecation (settings : PageSettings) (tag : SymbolTag) :
    (deprecation settings tag).IsWritable := by
  unfold deprecation
  refine Inline.areWritable_append (Inline.areWritable_cons trivial ?_)
    (Inline.areWritable_map fun _ => trivial)
  split
  · exact Inline.areWritable_nil
  · exact Inline.areWritable_map fun _ => trivial

theorem areWritable_badges (settings : PageSettings) (symbol : Symbol) (primary : Text) :
    Block.AreWritable (badges settings symbol primary) := by
  have realms : Inline.AreWritable (Doc.Realm.all.flatMap fun realm =>
      badgeIf (!(symbol.docs.tagValues realm.word).isEmpty) realm.title) := by
    intro item member
    obtain ⟨realm, inside, held⟩ := List.mem_flatMap.mp member
    exact areWritable_badgeIf _ _ item held
  refine Block.areWritable_cons (Inline.areWritable_join _ ?_)
    (Block.areWritable_map (isWritable_deprecation settings))
  refine Inline.areWritable_append ?_ (Inline.areWritable_map fun _ => trivial)
  refine Inline.areWritable_append ?_ (areWritable_badgeIf _ _)
  refine Inline.areWritable_append ?_ (areWritable_badgeIf _ _)
  refine Inline.areWritable_append ?_ (areWritable_badgeIf _ _)
  refine Inline.areWritable_append ?_ (areWritable_badgeIf _ _)
  exact Inline.areWritable_cons trivial realms

theorem areWritable_sourceLink (settings : PageSettings) (symbol : Symbol) :
    Block.AreWritable (sourceLink settings symbol) :=
  Block.areWritable_map fun _ => Inline.areWritable_cons trivial Inline.areWritable_nil

theorem areWritable_description (settings : PageSettings) (links : Links) (symbol : Symbol) :
    Block.AreWritable (description settings links symbol) := by
  fun_cases description settings links symbol with
  | case1 => exact Block.areWritable_nil
  | case2 => exact Block.areWritable_cons trivial Block.areWritable_nil

theorem areWritable_labelList (settings : PageSettings) (symbol : Symbol) :
    Block.AreWritable (labelList settings symbol) := by
  unfold labelList
  split
  · exact Block.areWritable_nil
  · refine Block.areWritable_cons (Inline.areWritable_cons trivial ?_) Block.areWritable_nil
    exact Inline.areWritable_join _ (Inline.areWritable_map fun _ => trivial)

theorem memberPart_gives (settings : PageSettings) (links : Links) (page : ClassPage)
    {member : Member} (shaped : member.symbol.types.IsShaped) :
    Gives (memberPart settings links page member) Block.AreWritable := by
  refine (signature_gives settings page shaped).bind fun shown _ => ?_
  refine (detailTables_gives settings links shaped).bind fun tables writable => gives_ok ?_
  refine Block.areWritable_append ?_ (areWritable_labelList settings member.symbol)
  refine Block.areWritable_append ?_ (areWritable_description settings links member.symbol)
  refine Block.areWritable_append ?_ writable
  refine Block.areWritable_append ?_ (Block.areWritable_map fun _ => trivial)
  refine Block.areWritable_append ?_ (areWritable_sourceLink settings member.symbol)
  exact Block.areWritable_cons trivial (areWritable_badges settings member.symbol _)

/-! ### The summary -/

theorem areWritable_ofText (s : Text) : Inline.AreWritable (Inline.ofText s) := by
  unfold Inline.ofText
  split
  · exact Inline.areWritable_nil
  · exact Inline.areWritable_cons trivial Inline.areWritable_nil

theorem areWritable_summaryRow (page : ClassPage) (member : Member) :
    ∀ cell ∈ summaryRow page member, Inline.AreWritable cell := by
  simp only [summaryRow, List.forall_mem_cons]
  refine ⟨Inline.areWritable_cons ?_ Inline.areWritable_nil, ?_, areWritable_ofText _,
    List.forall_mem_nil _⟩
  · split <;> trivial
  · split
    · exact Inline.areWritable_nil
    · exact Inline.areWritable_cons trivial Inline.areWritable_nil

theorem areWritable_summaryTable (settings : PageSettings) (page : ClassPage) (bucket : Bucket)
    (members : List Member) : Block.AreWritable (summaryTable settings page bucket members) := by
  refine Block.areWritable_cons trivial (Block.areWritable_cons ?_ Block.areWritable_nil)
  intro row member
  obtain ⟨shown, inside, rfl⟩ := List.mem_map.mp member
  exact areWritable_summaryRow page shown

theorem areWritable_summary (settings : PageSettings) (links : Links) (page : ClassPage) :
    Block.AreWritable (summary settings links page) := by
  simp only [summary]
  refine Block.areWritable_append (Block.areWritable_cons trivial ?_) ?_
  · split
    · exact Block.areWritable_nil
    · refine Block.areWritable_cons trivial (Block.areWritable_cons ?_ Block.areWritable_nil)
      intro item member
      obtain ⟨name, inside, rfl⟩ := List.mem_map.mp member
      exact Inline.areWritable_cons (isWritable_linkClass links name) Inline.areWritable_nil
  · exact Block.areWritable_flatMap fun section_ _ =>
      areWritable_summaryTable settings page section_.1 section_.2

/-! ### The page -/

/-- The page of a class whose members have types of the right shape is laid out and can be
written. -/
theorem classDocument_gives (settings : PageSettings) (links : Links) {page : ClassPage}
    (shaped : ∀ member ∈ page.members, member.symbol.types.IsShaped) :
    Gives (classDocument settings links page) fun document =>
      Block.AreWritable document.blocks := by
  have sections : ∀ section_ ∈ page.sections,
      Gives (sectionBlocks settings links page section_.1 section_.2) Block.AreWritable := by
    intro section_ inside
    have each : ∀ member ∈ section_.2,
        Gives (memberPart settings links page member) Block.AreWritable := fun member held =>
      memberPart_gives settings links page
        (shaped member (List.mem_flatMap.mpr ⟨section_, inside, held⟩))
    refine (gives_mapM each).bind fun parts writable => gives_ok ?_
    exact Block.areWritable_cons trivial (Block.areWritable_flatten writable)
  refine (gives_mapM sections).bind fun parts writable => gives_ok ?_
  refine Block.areWritable_append ?_ (Block.areWritable_flatten writable)
  refine Block.areWritable_append ?_ (areWritable_summary settings links page)
  refine Block.areWritable_append ?_ (areWritable_labelList settings page.symbol)
  refine Block.areWritable_append ?_ (areWritable_description settings links page.symbol)
  refine Block.areWritable_append ?_ (areWritable_sourceLink settings page.symbol)
  exact Block.areWritable_cons trivial (areWritable_badges settings page.symbol _)

end Page

end LuauReference
