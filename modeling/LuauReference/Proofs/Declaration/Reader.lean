/-
This file proves that the declaration a documentation block is attached to stands in the file: on a
line with the number it carries, where looking by index finds it again, and with all its fields on
lines of the file. Types that a declaration gives are never empty.
-/

import LuauReference.Declaration.Reader
import LuauReference.Proofs.Declaration.Table
import LuauReference.Proofs.Doc.Reader

namespace LuauReference

namespace Declaration

/-! ### Signatures -/

/-- Whether no type of a signature is empty. -/
structure Signature.IsSound (signature : Signature) : Prop where
  params : ∀ param ∈ signature.params, param.type ≠ some []
  returnType : signature.returnType ≠ some []

theorem type_paramOf (token : Text) : (paramOf token).type ≠ some [] := by
  unfold paramOf
  split
  · exact Doc.nonEmpty?_ne _
  · dsimp only
    split
    · exact Doc.nonEmpty?_ne _
    · exact (Option.some_ne_none []).symm

theorem resultType?_ne (tail : Text) : resultType? tail ≠ some [] := by
  unfold resultType?
  split
  · exact Doc.nonEmpty?_ne _
  · exact (Option.some_ne_none []).symm

theorem isSound_of_signatureOf? {path body : Text} {signature : Signature}
    (found : signatureOf? path body = some signature) : signature.IsSound := by
  obtain ⟨⟨inner, tail⟩, closed, rfl⟩ := Option.map_eq_some_iff.mp found
  refine ⟨?_, resultType?_ne tail⟩
  intro param member
  obtain ⟨token, part, rfl⟩ := List.mem_map.mp member
  exact type_paramOf token

theorem isSound_of_signature {line : Text} {signature : Signature}
    (found : Declaration.signature line = some signature) : signature.IsSound := by
  unfold Declaration.signature at found
  dsimp only at found
  split at found
  · exact isSound_of_signatureOf? found
  · split at found
    · exact isSound_of_signatureOf? found
    · cases found

/-! ### The declaration on a line -/

/-- Whether a declaration stands in a file: its line is a line of the file, where it is found by its
index, so are the lines of its fields, and no type of its signature is empty. -/
structure IsIn (declaration : Declaration) (lines : List Text) : Prop where
  first : 1 ≤ declaration.lineNumber
  last : declaration.lineNumber ≤ lines.length
  line : declaration.line ∈ lines
  found : atIndex lines (declaration.lineNumber - 1) = .ok (some declaration)
  fields : ∀ fields ∈ declaration.tableFields?, ∀ field ∈ fields, field.IsIn 0 lines.length
  signature : ∀ signature ∈ declaration.signature?, signature.IsSound

/-- The parts of a shape: the fields are those of the table that opens on the line, and the
signature is that of the line. -/
theorem parts_of_shapeAt? {index : Nat} {line : Text} {rest : List Text} {shape : Shape}
    (found : shapeAt? index line rest = some shape) :
    (∀ fields ∈ tableFields? ⟨shape, index + 1, line⟩, fields = (table index line rest).1) ∧
      ∀ signature ∈ signature? ⟨shape, index + 1, line⟩, signature.IsSound := by
  revert found
  fun_cases shapeAt? index line rest with
  | case1 code signature read =>
    rintro ⟨⟩
    refine ⟨nofun, ?_⟩
    rintro other ⟨⟩
    exact isSound_of_signature read
  | case2 code noSignature name head fields last read =>
    rintro ⟨⟩
    refine ⟨?_, nofun⟩
    rintro other ⟨⟩
    rw [read]
  | case3 code noSignature noHead trimmed owner name read =>
    rintro ⟨⟩
    exact ⟨nofun, nofun⟩
  | case4 code noSignature noHead trimmed noField =>
    intro found
    obtain ⟨name, read, rfl⟩ := Option.map_eq_some_iff.mp found
    exact ⟨nofun, nofun⟩

theorem atIndex_of_drop {lines rest : List Text} {index : Nat} {line : Text}
    (place : lines.drop index = line :: rest) :
    atIndex lines index = .ok (declarationAt? index line rest) := by
  rw [atIndex, Comment.linesAt_of_drop place]
  rfl

theorem isIn_of_declarationAt? {lines rest : List Text} {index : Nat} {line : Text}
    {declaration : Declaration} (place : lines.drop index = line :: rest)
    (found : declarationAt? index line rest = some declaration) : declaration.IsIn lines := by
  have counted := Comment.length_of_drop place
  obtain ⟨shape, shaped, rfl⟩ := Option.map_eq_some_iff.mp found
  obtain ⟨fieldsRead, signatureRead⟩ := parts_of_shapeAt? shaped
  refine ⟨Nat.le_add_left 1 index, ?_, ?_, ?_, ?_, signatureRead⟩
  · dsimp only
    omega
  · exact List.mem_of_mem_drop (place ▸ List.mem_cons_self)
  · rw [Nat.add_sub_cancel, atIndex_of_drop place]
    exact congrArg Except.ok found
  · intro fields held field member
    rw [fieldsRead fields held] at member
    exact ((table_isTableIn place).1.fields field member).of_later (Nat.zero_le index)

/-! ### The line of code after a block -/

/-- The line of code that is found stands at its index. -/
theorem drop_of_nextCode? {lines left rest : List Text} {start index : Nat} {line : Text}
    (place : lines.drop start = left) (found : nextCode? start left = some (index, line, rest)) :
    lines.drop index = line :: rest := by
  fun_induction nextCode? start left with
  | case1 start => cases found
  | case2 start line rest content further block inductionHypothesis =>
    exact inductionHypothesis (Comment.drop_further place further) found
  | case3 start line rest noBlock skipped inductionHypothesis =>
    exact inductionHypothesis (Comment.drop_further place 0) found
  | case4 start line rest noBlock code =>
    cases found
    exact place

/-- The declaration that a block is attached to stands in the file. -/
theorem isIn_of_afterBlock? {lines : List Text} {block : Comment.Block} {declaration : Declaration}
    (found : afterBlock? lines block = some declaration) : declaration.IsIn lines := by
  obtain ⟨⟨index, line, rest⟩, code, read⟩ := Option.bind_eq_some_iff.mp found
  exact isIn_of_declarationAt? (drop_of_nextCode? rfl code) read

/-- Looking for a declaration at any index of a file returns, and what it finds stands in the
file. -/
theorem atIndex_returns {lines : List Text} {index : Nat} (inside : index < lines.length) :
    ∃ found, atIndex lines index = .ok found ∧ ∀ declaration ∈ found, declaration.IsIn lines := by
  obtain ⟨line, rest, place⟩ := Comment.exists_drop inside
  refine ⟨declarationAt? index line rest, atIndex_of_drop place, ?_⟩
  intro declaration member
  exact isIn_of_declarationAt? place member

end Declaration

end LuauReference
