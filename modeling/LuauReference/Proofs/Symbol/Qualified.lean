/-
This file says where names with an owner come apart. Names are read in tags and in code by cutting
at the last mark, be it a colon or a dot, and the names of symbols, which were put together from an
owner and a name, are cut at the first colon or else at the last dot. So the two ways differ as soon
as another mark follows a colon, and putting together is undone only where the owner has no colon
and no mark in the name comes first.
-/

import LuauReference.Doc.Tag
import LuauReference.Proofs.Text.Blank
import LuauReference.Proofs.Text.Cut
import LuauReference.Symbol.Basic

namespace LuauReference

/-! ### Qualified names -/

section

variable {qualified owner name : Text}

theorem splitQualifiedName_of_notMem (plain : ':' ∉ qualified) :
    splitQualifiedName qualified =
      match Text.cutLast? '.' qualified with
      | some (owner, name) => (some owner, name, false)
      | none => (none, qualified, false) := by
  have uncut : Text.cut? ":" qualified = none := Text.cut?_of_notMem plain
  cases found : Text.cutLast? '.' qualified <;> simp only [splitQualifiedName, uncut, found]

/-- A colon that stands in front of a name is the first one. -/
theorem splitQualifiedName_eq_method_iff :
    splitQualifiedName qualified = (some owner, name, true) ↔
      qualified = owner ++ ':' :: name ∧ ':' ∉ owner := by
  by_cases colon : ':' ∈ qualified
  · obtain ⟨front, back, whole, first⟩ := List.eq_append_cons_of_mem colon
    have cut : Text.cut? ":" qualified = some (front, back) :=
      Text.cut?_eq_some_iff.mpr ⟨whole, first⟩
    rw [← Text.cut?_eq_some_iff, splitQualifiedName, cut,
      show Text.cut? [':'] qualified = _ from cut]
    simp
  · rw [splitQualifiedName_of_notMem colon]
    refine iff_of_false ?_ fun ⟨whole, _⟩ => colon (by simp [whole])
    cases Text.cutLast? '.' qualified <;> simp

/-- A dot that stands in front of a name is the last one, and there is no colon. -/
theorem splitQualifiedName_eq_member_iff :
    splitQualifiedName qualified = (some owner, name, false) ↔
      qualified = owner ++ '.' :: name ∧ ':' ∉ qualified ∧ '.' ∉ name := by
  by_cases colon : ':' ∈ qualified
  · obtain ⟨front, back, whole, first⟩ := List.eq_append_cons_of_mem colon
    have method : splitQualifiedName qualified = (some front, back, true) :=
      splitQualifiedName_eq_method_iff.mpr ⟨whole, first⟩
    rw [method]
    exact iff_of_false (by simp) fun parts => parts.2.1 colon
  · rw [splitQualifiedName_of_notMem colon, and_iff_right colon, ← Text.cutLast?_eq_some_iff]
    cases Text.cutLast? '.' qualified with
    | none => simp
    | some sides => simp [Prod.ext_iff]

/-- What was put together of an owner and a name comes apart into them exactly when the owner has no
colon and, unless a colon stands between the two, the name has neither mark. -/
theorem splitQualifiedName_qualifiedName_iff (present : owner ≠ []) (isMethod : Bool) :
    splitQualifiedName (qualifiedName (some owner) name isMethod) = (some owner, name, isMethod) ↔
      ':' ∉ owner ∧ (isMethod = true ∨ ':' ∉ name ∧ '.' ∉ name) := by
  have whole : qualifiedName (some owner) name isMethod =
      owner ++ (if isMethod then ':' else '.') :: name := by
    rw [qualifiedName, if_neg (mt List.isEmpty_iff.mp present)]
  rw [whole]
  cases isMethod with
  | true =>
    rw [if_pos rfl, splitQualifiedName_eq_method_iff]
    simp
  | false =>
    rw [if_neg Bool.false_ne_true, splitQualifiedName_eq_member_iff]
    simp [and_assoc]

end

/-! ### Names in tags and in code -/

namespace Doc

/-- The owner, the name and the kind of a member, as they are told of a qualified name. -/
def MemberName.parts (member : MemberName) : Option Text × Text × Bool :=
  (member.within, member.name, member.isMethod)

theorem MemberName.parts_injective : Function.Injective MemberName.parts := by
  rintro ⟨_, _, _⟩ ⟨_, _, _⟩ same
  cases same
  rfl

section

variable {path owner name : Text}

/-- A path without marks is a name. -/
theorem splitOwner_of_plain (noColon : ':' ∉ path) (noDot : '.' ∉ path) :
    splitOwner path = ⟨none, path, false⟩ := by
  rw [splitOwner, Text.cutLast?_of_notMem noColon]
  dsimp only
  rw [splitOwner.atDot, Text.cutLast?_of_notMem noDot]

/-- A path is cut at its last mark. -/
theorem splitOwner_append_cons (noColon : ':' ∉ name) (noDot : '.' ∉ name) (owner : Text)
    (isMethod : Bool) :
    splitOwner (owner ++ (if isMethod then ':' else '.') :: name) =
      ⟨some owner, name, isMethod⟩ := by
  cases isMethod with
  | true =>
    rw [if_pos rfl, splitOwner, Text.cutLast?_append_cons noColon]
    dsimp only
    rw [if_neg (by simpa using noDot)]
  | false =>
    have atDot : splitOwner.atDot (owner ++ '.' :: name) = ⟨some owner, name, false⟩ := by
      rw [splitOwner.atDot, Text.cutLast?_append_cons noDot]
    have dotted : ':' ∉ '.' :: name := by simp [noColon]
    rw [if_neg Bool.false_ne_true, splitOwner, Text.cutLast?_append dotted]
    cases Text.cutLast? ':' owner with
    | none => exact atDot
    | some sides =>
      -- the last colon is in the owner, so the dot stands behind it
      rw [Option.map_some]
      dsimp only
      rw [if_pos (by simp), atDot]

theorem exists_last_mark (path : Text) :
    (':' ∉ path ∧ '.' ∉ path) ∨ ∃ (owner name : Text) (isMethod : Bool),
      path = owner ++ (if isMethod then ':' else '.') :: name ∧ ':' ∉ name ∧ '.' ∉ name := by
  induction path with
  | nil => exact Or.inl ⟨List.not_mem_nil, List.not_mem_nil⟩
  | cons c rest inductionHypothesis =>
    rcases inductionHypothesis with ⟨noColon, noDot⟩ | ⟨owner, name, isMethod, rfl, last⟩
    · by_cases colon : c = ':'
      · exact Or.inr ⟨[], rest, true, by rw [colon]; rfl, noColon, noDot⟩
      · by_cases dot : c = '.'
        · exact Or.inr ⟨[], rest, false, by rw [dot]; rfl, noColon, noDot⟩
        · exact Or.inl ⟨List.not_mem_cons_of_ne_of_not_mem (Ne.symm colon) noColon,
            List.not_mem_cons_of_ne_of_not_mem (Ne.symm dot) noDot⟩
    · exact Or.inr ⟨c :: owner, name, isMethod, rfl, last⟩

/-- What stands in front of a name is what stands in front of the last mark. -/
theorem splitOwner_eq_iff {isMethod : Bool} :
    splitOwner path = ⟨some owner, name, isMethod⟩ ↔
      path = owner ++ (if isMethod then ':' else '.') :: name ∧ ':' ∉ name ∧ '.' ∉ name := by
  constructor
  · intro split_
    rcases exists_last_mark path with ⟨noColon, noDot⟩ | ⟨front, back, kind, rfl, noColon, noDot⟩
    · rw [splitOwner_of_plain noColon noDot] at split_
      cases split_
    · rw [splitOwner_append_cons noColon noDot] at split_
      cases split_
      exact ⟨rfl, noColon, noDot⟩
  · rintro ⟨rfl, noColon, noDot⟩
    exact splitOwner_append_cons noColon noDot owner isMethod

/-- Where there is no colon, names are cut at the last dot, as qualified names are. -/
theorem splitQualifiedName_of_colon_notMem (plain : ':' ∉ path) :
    splitQualifiedName path = (splitOwner path).parts := by
  rw [splitQualifiedName_of_notMem plain, splitOwner, Text.cutLast?_of_notMem plain,
    splitOwner.atDot]
  cases Text.cutLast? '.' path <;> rfl

/-- A name comes apart as a qualified name does exactly when it has no colon, or a single one behind
which there is no dot. -/
theorem splitQualifiedName_eq_splitOwner_iff :
    splitQualifiedName path = (splitOwner path).parts ↔
      ':' ∉ path ∨ ∃ owner name, path = owner ++ ':' :: name ∧ ':' ∉ owner ∧ ':' ∉ name ∧
      '.' ∉ name := by
  constructor
  · intro same
    refine or_iff_not_imp_left.mpr fun colon => ?_
    obtain ⟨owner, name, whole, first⟩ := List.eq_append_cons_of_mem (not_not.mp colon)
    have method := splitQualifiedName_eq_method_iff.mpr ⟨whole, first⟩
    have split_ : splitOwner path = ⟨some owner, name, true⟩ :=
      MemberName.parts_injective (same.symm.trans method)
    exact ⟨owner, name, whole, first, (splitOwner_eq_iff.mp split_).2⟩
  · rintro (plain | ⟨owner, name, whole, first, last⟩)
    · exact splitQualifiedName_of_colon_notMem plain
    · have split_ : splitOwner path = ⟨some owner, name, true⟩ :=
        splitOwner_eq_iff.mpr ⟨whole, last⟩
      rw [splitQualifiedName_eq_method_iff.mpr ⟨whole, first⟩, split_]
      rfl

/-- The head of a text is looked at only for the placeholder. -/
theorem memberName_eq_splitOwner (solid : Text.IsTrimmed path) (noDot : ¬ "~.".toList <+: path)
    (noColon : ¬ "~:".toList <+: path) : memberName path = splitOwner path := by
  rw [memberName, solid.trimmed]
  split
  · exact absurd rfl solid.present
  · exact absurd ⟨_, rfl⟩ noColon
  · exact absurd ⟨_, rfl⟩ noDot
  · rfl

end

end Doc

/-- Where names come apart alike. A qualified name comes apart into the owner and the name that it
was put together of exactly when the owner has no colon and, unless a colon stands between the two,
the name has neither mark. Names in tags come apart as those in code do, but for the placeholder,
and both as qualified names do exactly when there is no colon, or a single one behind which there is
no dot. -/
theorem names_come_apart_alike :
    (∀ (owner name : Text) (isMethod : Bool), owner ≠ [] →
      (splitQualifiedName (qualifiedName (some owner) name isMethod) =
        (some owner, name, isMethod) ↔
        ':' ∉ owner ∧ (isMethod = true ∨ ':' ∉ name ∧ '.' ∉ name))) ∧
    ∀ s : Text, Text.IsTrimmed s → ¬ "~.".toList <+: s → ¬ "~:".toList <+: s →
      Doc.memberName s = Doc.splitOwner s ∧
      (splitQualifiedName s = (Doc.splitOwner s).parts ↔
        ':' ∉ s ∨ ∃ owner name, s = owner ++ ':' :: name ∧ ':' ∉ owner ∧ ':' ∉ name ∧ '.' ∉ name) :=
  ⟨fun _ _ isMethod present => splitQualifiedName_qualifiedName_iff present isMethod,
    fun _ solid noDot noColon =>
      ⟨Doc.memberName_eq_splitOwner solid noDot noColon, Doc.splitQualifiedName_eq_splitOwner_iff⟩⟩

/-- A method may have a dot in its name and any owner without a colon, but a name in code with a dot
behind a colon is cut at the dot. -/
theorem names_come_apart_alike_mixed :
    splitQualifiedName (qualifiedName (some "Net.Socket".toList) "read.all" true) =
        (some "Net.Socket".toList, "read.all".toList, true) ∧
      Doc.memberName "Socket:read.all" = ⟨some "Socket:read".toList, "all", false⟩ ∧
      splitQualifiedName "Socket:read.all" ≠ (Doc.splitOwner "Socket:read.all").parts := by
  have solid : Text.IsTrimmed "Socket:read.all".toList := ⟨by decide, by decide⟩
  obtain ⟨whole, alike⟩ := names_come_apart_alike
  obtain ⟨tagged, differs⟩ := alike "Socket:read.all" solid (by decide) (by decide)
  refine ⟨(whole "Net.Socket" "read.all" true (by decide)).mpr ⟨by decide, Or.inl rfl⟩, tagged, ?_⟩
  rw [Ne, differs]
  rintro (plain | ⟨owner, name, cut, first, -, single⟩)
  · exact plain (by decide)
  · have split_ : splitQualifiedName "Socket:read.all" = (some owner, name, true) :=
      splitQualifiedName_eq_method_iff.mpr ⟨cut, first⟩
    cases split_
    exact single (by decide)

end LuauReference
