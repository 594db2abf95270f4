/-
This file proves what becomes of a line that begins like a function. Where the parenthesis around
the parameters closes on the line, the line is read as that function. Where it does not, the line
goes on to the other shapes as if it had not begun like one. A function that is declared with its
keyword matches none of them, and no function is taken for a table type or a class; but one that is
assigned to a name with an owner has the form of a field that is assigned, and is read as a
property.
-/

import LuauReference.Proofs.Declaration.Head
import LuauReference.Proofs.Declaration.Reader
import LuauReference.Proofs.Symbol.Qualified

namespace LuauReference

namespace Declaration

/-! ### The closing parenthesis -/

/-- Whether a text closes a number of open parentheses, the last of them between the two given
sides: before that one, fewer are closed than are open. -/
structure Closes (opened : Nat) (s inner tail : Text) : Prop where
  whole : s = inner ++ ')' :: tail
  level : inner.count ')' + 1 = inner.count '(' + opened
  first : ∀ front, front <+: inner → front.count ')' < front.count '(' + opened

/-- A character in front changes the number of open parentheses by itself only. -/
theorem Closes.cons {opened inside : Nat} {s inner tail : Text} {c : Char}
    (closes : Closes inside s inner tail)
    (step : inside + [c].count ')' = opened + [c].count '(') (positive : 0 < opened) :
    Closes opened (c :: s) (c :: inner) tail where
  whole := by rw [closes.whole, List.cons_append]
  level := by
    have level := closes.level
    rw [← List.singleton_append, List.count_append, List.count_append]
    omega
  first := by
    intro front leads
    rcases List.prefix_cons_iff.mp leads with rfl | ⟨front, rfl, later⟩
    · simpa using positive
    · have below := closes.first front later
      rw [← List.singleton_append, List.count_append, List.count_append]
      omega

theorem Closes.of_cons {opened inside : Nat} {s inner tail : Text} {c : Char}
    (closes : Closes opened s (c :: inner) tail)
    (step : inside + [c].count ')' = opened + [c].count '(') :
    ∃ rest, s = c :: rest ∧ Closes inside rest inner tail := by
  refine ⟨_, closes.whole, rfl, ?_, ?_⟩
  · have level := closes.level
    rw [← List.singleton_append, List.count_append, List.count_append] at level
    omega
  · intro front leads
    have below := closes.first (c :: front) (List.cons_prefix_cons.mpr ⟨rfl, leads⟩)
    rw [← List.singleton_append, List.count_append, List.count_append] at below
    omega

/-- What is no parenthesis does not change how many are open. -/
theorem count_of_ne {c : Char} (notOpening : c ≠ '(') (notClosing : c ≠ ')') (opened : Nat) :
    opened + [c].count ')' = opened + [c].count '(' := by
  rw [List.count_singleton, List.count_singleton, beq_false_of_ne notOpening,
    beq_false_of_ne notClosing]

theorem closes_of_closeParens? {opened : Nat} {s inner tail : Text} (positive : 0 < opened)
    (found : closeParens? opened s = some (inner, tail)) : Closes opened s inner tail := by
  fun_induction closeParens? opened s generalizing inner with
  | case1 opened => cases found
  | case2 opened rest inductionHypothesis =>
    obtain ⟨sides, later, same⟩ := Option.map_eq_some_iff.mp found
    cases same
    exact (inductionHypothesis (by omega) later).cons rfl positive
  | case3 opened rest last notOpening =>
    cases found
    obtain rfl : opened = 1 := by omega
    refine ⟨rfl, rfl, fun front leads => ?_⟩
    rw [List.prefix_nil.mp leads]
    exact Nat.one_pos
  | case4 opened rest notLast notOpening inductionHypothesis =>
    obtain ⟨sides, later, same⟩ := Option.map_eq_some_iff.mp found
    cases same
    exact (inductionHypothesis (by omega) later).cons (Nat.sub_add_cancel positive) positive
  | case5 opened c rest notOpening notClosing inductionHypothesis =>
    obtain ⟨sides, later, same⟩ := Option.map_eq_some_iff.mp found
    cases same
    exact (inductionHypothesis positive later).cons
      (count_of_ne notOpening notClosing opened) positive

theorem Closes.closeParens? {opened : Nat} {s inner tail : Text}
    (closes : Closes opened s inner tail) :
    closeParens? opened s = some (inner, tail) := by
  induction inner generalizing opened s with
  | nil =>
    have level := closes.level
    obtain rfl : opened = 1 := by simpa using level.symm
    rw [closes.whole]
    rfl
  | cons c inner inductionHypothesis =>
    by_cases opens : c = '('
    · subst opens
      obtain ⟨rest, rfl, later⟩ : ∃ rest, s = '(' :: rest ∧ Closes (opened + 1) rest inner tail :=
        closes.of_cons rfl
      rw [Declaration.closeParens?, if_pos rfl, inductionHypothesis later]
      rfl
    · by_cases shuts : c = ')'
      · subst shuts
        -- This is not yet the last parenthesis: in the front that ends with it one is left open.
        have several : 1 < opened := by
          have below := closes.first [')'] (List.cons_prefix_cons.mpr ⟨rfl, List.nil_prefix⟩)
          simpa using below
        obtain ⟨rest, rfl, later⟩ : ∃ rest, s = ')' :: rest ∧ Closes (opened - 1) rest inner tail :=
          closes.of_cons (Nat.sub_add_cancel (Nat.le_of_lt several))
        rw [Declaration.closeParens?, if_neg opens, if_pos rfl, if_neg (Nat.not_le.mpr several),
          inductionHypothesis later]
        rfl
      · obtain ⟨rest, rfl, later⟩ := closes.of_cons (count_of_ne opens shuts opened)
        rw [Declaration.closeParens?, if_neg opens, if_neg shuts, inductionHypothesis later]
        rfl

/-! ### Functions that are declared -/

/-- Whether a function is declared with its keyword at the head of a text. -/
def IsDeclared (s : Text) : Prop :=
  ∃ c rest, afterKeyword? "function" (skipKeyword "local" s) = some (c :: rest) ∧
    Text.isWordStart c = true

theorem isDeclared_of_keywordHead? {s path body : Text}
    (head : keywordHead? s = some (path, body)) :
    IsDeclared s := by
  simp only [keywordHead?, Option.bind_eq_bind, Option.bind_eq_some_iff] at head
  obtain ⟨name, declared, ⟨path, tail⟩, named, body, -, ⟨⟩⟩ := head
  cases name with
  | nil => cases named
  | cons c rest =>
    rw [Text.run?, Option.ite_none_right_eq_some] at named
    exact ⟨c, rest, declared, named.1⟩

section

variable {s : Text} (declared : IsDeclared s)

include declared

/-- The first word of a declared function is a keyword, and another word follows it. -/
theorem IsDeclared.exists_run : ∃ keyword tail c rest,
    (keyword = "local".toList ∨ keyword = "function".toList) ∧
      Text.run? Text.isWordStart isDottedChar s = some (keyword, tail) ∧
      Text.trimStart tail = c :: rest ∧ Text.isWordStart c = true := by
  obtain ⟨c, rest, found, begins⟩ := declared
  rw [skipKeyword] at found
  cases skipped : afterKeyword? "local" s with
  | some behind =>
    rw [skipped] at found
    obtain ⟨d, others, whole, -, -⟩ := afterKeyword?_eq_some_iff.mp found
    obtain ⟨tail, read, same⟩ := path_of_afterKeyword? (by decide) skipped
    exact ⟨_, tail, _, _, Or.inl rfl, read, same.trans whole, rfl⟩
  | none =>
    rw [skipped] at found
    obtain ⟨tail, read, same⟩ := path_of_afterKeyword? (by decide) found
    exact ⟨_, tail, c, rest, Or.inr rfl, read, same, begins⟩

/-- No other keyword stands at its head. -/
theorem IsDeclared.afterKeyword? {keyword : Text} (identifier : Text.isIdentifier keyword = true)
    (notLocal : keyword ≠ "local".toList) (notFunction : keyword ≠ "function".toList) :
    afterKeyword? keyword s = none := by
  obtain ⟨first, tail, c, rest, either, read, -⟩ := declared.exists_run
  cases found : Declaration.afterKeyword? keyword s with
  | none => rfl
  | some behind =>
    obtain ⟨tail, again, -⟩ := path_of_afterKeyword? identifier found
    cases read.symm.trans again
    exact absurd either (not_or.mpr ⟨notLocal, notFunction⟩)

theorem IsDeclared.tableHead? {line : Text} (trimmed : Text.trimStart line = s) :
    tableHead? line = none := by
  have noExport : Declaration.afterKeyword? "export" s = none :=
    declared.afterKeyword? (by decide) (by decide) (by decide)
  have noType : Declaration.afterKeyword? "type" s = none :=
    declared.afterKeyword? (by decide) (by decide) (by decide)
  rw [Declaration.tableHead?, trimmed, skipKeyword, noExport, Option.getD_none, noType]
  rfl

theorem IsDeclared.assignedField? : assignedField? s = none := by
  obtain ⟨keyword, tail, c, rest, -, read, behind, begins⟩ := declared.exists_run
  have other : '=' ≠ c := by
    rintro rfl
    cases begins
  have nothing : Text.after? "=" (c :: rest) = none := if_neg other
  rw [Declaration.assignedField?, read, Option.bind_eq_bind, Option.bind_some]
  dsimp only
  rw [behind, nothing]
  rfl

theorem IsDeclared.localTable? : localTable? s = none := by
  obtain ⟨c, rest, found, begins⟩ := declared
  rw [Declaration.localTable?, Option.bind_eq_bind, Option.bind_eq_none_iff]
  intro behind skipped
  rw [skipKeyword, skipped, Option.getD_some] at found
  obtain ⟨tail, read, same⟩ := identifier?_of_afterKeyword? (by decide) found
  rw [read, Option.bind_eq_bind, Option.bind_some]
  dsimp only
  rw [same]
  split
  · next equals =>
    cases equals
    cases begins
  · next colon =>
    cases colon
    cases begins
  · rfl

end

/-! ### Functions that are assigned -/

/-- Whether something is assigned to a name, with or without owners, at the head of a text. -/
def IsAssigned (s path : Text) : Prop :=
  ∃ tail value, Text.run? Text.isWordStart isDottedChar s = some (path, tail) ∧
    Text.trimStart tail = '=' :: value

theorem isAssigned_of_assignedHead? {s path body : Text}
    (head : assignedHead? s = some (path, body)) :
    IsAssigned s path := by
  simp only [assignedHead?, Option.bind_eq_bind, Option.bind_eq_some_iff] at head
  obtain ⟨⟨path, tail⟩, named, value, assigned, function, -, body, -, ⟨⟩⟩ := head
  exact ⟨tail, value, named, Text.after?_eq_some_iff.mp assigned⟩

section

variable {s path : Text} (assigned : IsAssigned s path)

include assigned

/-- A keyword in front of an equals sign is the name that something is assigned to. -/
theorem IsAssigned.afterKeyword? {keyword rest : Text}
    (identifier : Text.isIdentifier keyword = true)
    (found : afterKeyword? keyword s = some rest) : keyword = path ∧
    ∃ value, rest = '=' :: value := by
  obtain ⟨tail, value, named, equals⟩ := assigned
  obtain ⟨behind, read, rfl⟩ := path_of_afterKeyword? identifier found
  cases named.symm.trans read
  exact ⟨rfl, value, equals⟩

theorem IsAssigned.afterKeyword?_skipKeyword {keyword optional rest : Text}
    (identifier : Text.isIdentifier keyword = true)
    (optionalIdentifier : Text.isIdentifier optional = true)
    (found : Declaration.afterKeyword? keyword (skipKeyword optional s) = some rest) :
    ∃ value, rest = '=' :: value := by
  rw [skipKeyword] at found
  cases skipped : Declaration.afterKeyword? optional s with
  | none =>
    rw [skipped] at found
    exact (assigned.afterKeyword? identifier found).2
  | some behind =>
    obtain ⟨-, value, rfl⟩ := assigned.afterKeyword? optionalIdentifier skipped
    obtain ⟨c, others, rfl, begins⟩ := Text.exists_cons_of_isIdentifier identifier
    have other : c ≠ '=' := by
      rintro rfl
      cases begins
    rw [skipped, Option.getD_some, afterKeyword?_of_ne other] at found
    cases found

theorem IsAssigned.keywordHead? : keywordHead? s = none := by
  rw [Declaration.keywordHead?, Option.bind_eq_bind, Option.bind_eq_none_iff]
  intro rest found
  obtain ⟨value, rfl⟩ := assigned.afterKeyword?_skipKeyword (by decide) (by decide) found
  rfl

theorem IsAssigned.tableHead? {line : Text} (trimmed : Text.trimStart line = s) :
    tableHead? line = none := by
  rw [Declaration.tableHead?, trimmed, Option.bind_eq_bind, Option.bind_eq_none_iff]
  intro rest found
  obtain ⟨value, rfl⟩ := assigned.afterKeyword?_skipKeyword (by decide) (by decide) found
  rfl

theorem IsAssigned.localTable? : localTable? s = none := by
  rw [Declaration.localTable?, Option.bind_eq_bind, Option.bind_eq_none_iff]
  intro rest found
  obtain ⟨-, value, rfl⟩ := assigned.afterKeyword? (by decide) found
  rfl

theorem IsAssigned.exists_cons : ∃ c rest, path = c :: rest ∧ Text.isWordStart c = true ∧
    ∀ d ∈ rest, isDottedChar d = true := by
  obtain ⟨tail, value, named, -⟩ := assigned
  cases s with
  | nil => cases named
  | cons c s =>
    rw [Text.run?, Option.ite_none_right_eq_some] at named
    obtain ⟨begins, ⟨⟩⟩ := named
    exact ⟨c, _, rfl, begins, fun d member => List.mem_takeWhile_imp member⟩

theorem IsAssigned.colon_notMem : ':' ∉ path := by
  obtain ⟨c, rest, rfl, begins, inside⟩ := assigned.exists_cons
  refine List.not_mem_cons_of_ne_of_not_mem ?_ fun member => absurd (inside _ member) (by decide)
  rintro rfl
  cases begins

/-- A path with a dot is not the keyword of a local variable. -/
theorem IsAssigned.startsWith_local (dotted : '.' ∈ path) : Text.startsWith s "local " = false := by
  cases found : Text.after? "local " s with
  | none => rw [Text.startsWith, found]; rfl
  | some rest =>
    have keyword : Declaration.afterKeyword? "local" s = some (Text.trimStart rest) :=
      afterKeyword?_eq_some_iff.mpr
        ⟨' ', rest, (Text.after?_eq_some_iff.mp found).trans rfl, rfl, rfl⟩
    obtain ⟨rfl, -⟩ := assigned.afterKeyword? (by decide) keyword
    exact absurd dotted (by decide)

/-- A name without a dot has no owner, so nothing is a field. -/
theorem IsAssigned.assignedField?_of_notMem (undotted : '.' ∉ path) : assignedField? s = none := by
  have whole : Doc.splitOwner path = ⟨none, path, false⟩ :=
    Doc.splitOwner_of_plain assigned.colon_notMem undotted
  obtain ⟨tail, value, named, equals⟩ := assigned
  rw [Declaration.assignedField?, named, Option.bind_eq_bind, Option.bind_some]
  dsimp only
  rw [equals, whole]
  rfl

/-- The name behind the last dot is a field of what stands in front of it. -/
theorem IsAssigned.assignedField? {owner name : Text} (dotted : path = owner ++ '.' :: name)
    (last : '.' ∉ name) : assignedField? s = some (owner, name) := by
  have noColon : ':' ∉ name := fun inside => assigned.colon_notMem <| by
    rw [dotted]
    exact List.mem_append_right owner (List.mem_cons_of_mem '.' inside)
  have split : Doc.splitOwner path = ⟨some owner, name, false⟩ :=
    Doc.splitOwner_eq_iff.mpr ⟨dotted, noColon, last⟩
  have owned : Doc.nonEmpty? owner = some owner := by
    obtain ⟨c, rest, same, begins, -⟩ := assigned.exists_cons
    cases owner with
    | nil =>
      cases dotted.symm.trans same
      cases begins
    | cons d owner => rfl
  have noLocal : Text.startsWith s "local " = false := assigned.startsWith_local <| by
    rw [dotted]
    exact List.mem_append_right owner List.mem_cons_self
  obtain ⟨tail, value, named, equals⟩ := assigned
  rw [Declaration.assignedField?, named, Option.bind_eq_bind, Option.bind_some]
  dsimp only
  rw [equals, split, noLocal]
  dsimp only
  rw [Option.bind_some, owned]
  rfl

end

/-! ### Lines that begin like functions -/

/-- Whether a text that stands behind a parenthesis leaves it open. -/
def IsUnclosed (body : Text) : Prop :=
  ∀ inner tail, ¬ Closes 1 body inner tail

theorem isUnclosed_iff {body : Text} : IsUnclosed body ↔ closeParens? 1 body = none := by
  constructor
  · intro unclosed
    cases found : closeParens? 1 body with
    | none => rfl
    | some sides =>
      exact absurd (closes_of_closeParens? Nat.one_pos found) (unclosed sides.1 sides.2)
  · intro nothing inner tail closes
    cases nothing.symm.trans closes.closeParens?

instance (body : Text) : Decidable (IsUnclosed body) :=
  decidable_of_iff _ isUnclosed_iff.symm

/-- Whether a text begins like a function with a path, and what stands behind its parenthesis. -/
def BeginsLike (s path body : Text) : Prop :=
  keywordHead? s = some (path, body) ∨ assignedHead? s = some (path, body)

instance (s path body : Text) : Decidable (BeginsLike s path body) :=
  inferInstanceAs
    (Decidable (keywordHead? s = some (path, body) ∨ assignedHead? s = some (path, body)))

section

variable {line path body : Text}

theorem BeginsLike.signature (head : BeginsLike (Text.trim line) path body) :
    Declaration.signature line = signatureOf? path body := by
  rw [Declaration.signature]
  rcases head with head | head
  · simp only [head]
  · simp only [(isAssigned_of_assignedHead? head).keywordHead?, head]

/-- No table type opens on a line that begins like a function. -/
theorem BeginsLike.tableHead? (head : BeginsLike (Text.trim line) path body) :
    tableHead? (Text.trimEnd line) = none :=
  head.elim (fun head => (isDeclared_of_keywordHead? head).tableHead? (Text.trimStart_trimEnd line))
    fun head => (isAssigned_of_assignedHead? head).tableHead? (Text.trimStart_trimEnd line)

theorem BeginsLike.localTable? (head : BeginsLike (Text.trim line) path body) :
    localTable? (Text.trim line) = none :=
  head.elim (fun head => (isDeclared_of_keywordHead? head).localTable?)
    fun head => (isAssigned_of_assignedHead? head).localTable?

variable (head : BeginsLike (Text.trim (codeOf line)) path body) (index : Nat) (rest : List Text)

include head

/-- Where the parenthesis closes, the line is read as that function. -/
theorem BeginsLike.shapeAt?_of_closes {inner tail : Text} (closes : Closes 1 body inner tail) :
    ∃ signature, signatureOf? path body = some signature ∧ signature.params = paramsOf inner ∧
      signature.returnType = resultType? tail ∧
      shapeAt? index line rest = some (.function signature) := by
  have read : Declaration.signature (Text.trimEnd (codeOf line)) = signatureOf? path body :=
    BeginsLike.signature (by rwa [Text.trim_trimEnd])
  rw [shapeAt?]
  dsimp only
  rw [read, signatureOf?, closes.closeParens?]
  exact ⟨_, rfl, rfl, rfl, rfl⟩

/-- Where it does not, the line is a field that is assigned, or nothing. -/
theorem BeginsLike.shapeAt?_of_unclosed (unclosed : IsUnclosed body) :
    shapeAt? index line rest =
      (assignedField? (Text.trim (codeOf line))).map fun field => .property field.2 field.1 := by
  have read : Declaration.signature (Text.trimEnd (codeOf line)) = none := by
    rw [BeginsLike.signature (by rwa [Text.trim_trimEnd]), signatureOf?, isUnclosed_iff.mp unclosed]
    rfl
  rw [shapeAt?]
  dsimp only
  rw [read]
  dsimp only
  rw [head.tableHead?]
  dsimp only
  rw [Text.trim_trimEnd, head.localTable?]
  cases assignedField? (Text.trim (codeOf line)) <;> rfl

end

/-- What is read on a line of a file that begins like the function with a path. -/
structure IsReadAsFunction (lines : List Text) (index : Nat) (line path body : Text) : Prop where
  /-- Where the parenthesis closes on the line, the function whose parameters stand in between is
  read. -/
  closed : ∀ inner tail, Closes 1 body inner tail →
    ∃ signature, signatureOf? path body = some signature ∧
    signature.params = paramsOf inner ∧ signature.returnType = resultType? tail ∧
    atIndex lines index = .ok (some ⟨.function signature, index + 1, line⟩)
  /-- Where it does not, nothing is read of a function that is declared with its keyword. -/
  declared : IsUnclosed body → keywordHead? (Text.trim (codeOf line)) = some (path, body) →
    atIndex lines index = .ok none
  /-- Where it does not, nothing is read of a function without an owner in front of a dot. -/
  unowned : IsUnclosed body → '.' ∉ path → atIndex lines index = .ok none
  /-- Where it does not, a function that is assigned to a name with an owner is read as its
  property. -/
  owned : IsUnclosed body → assignedHead? (Text.trim (codeOf line)) = some (path, body) →
    ∀ owner name, path = owner ++ '.' :: name → '.' ∉ name →
      atIndex lines index = .ok (some ⟨.property name owner, index + 1, line⟩)
  /-- No table type and no class is ever read. -/
  kinds : ∀ declaration, atIndex lines index = .ok (some declaration) →
    (∃ signature, declaration.shape = .function signature) ∨
      ∃ name owner, declaration.shape = .property name owner

/-- A line that begins like a function is read as that function exactly where the parenthesis closes
on it. -/
theorem functions_read_where_closed {lines : List Text} {index : Nat} {line path body : Text}
    (stands : lines[index]? = some line) (head : BeginsLike (Text.trim (codeOf line)) path body) :
    IsReadAsFunction lines index line path body := by
  obtain ⟨rest, place⟩ := Comment.exists_drop_of_getElem? stands
  have read := atIndex_of_drop place
  -- What is found on an unclosed line is what its text assigns to, and nothing else.
  have left (unclosed : IsUnclosed body) {field : Option (Text × Text)}
      (same : assignedField? (Text.trim (codeOf line)) = field) :
      declarationAt? index line rest = field.map fun field =>
        ⟨.property field.2 field.1, index + 1, line⟩ := by
    rw [declarationAt?, head.shapeAt?_of_unclosed index rest unclosed, same, Option.map_map]
    rfl
  refine ⟨?closed, ?declared, ?unowned, ?owned, ?kinds⟩
  case closed =>
    intro inner tail closes
    obtain ⟨signature, found, params, result, shape⟩ := head.shapeAt?_of_closes index rest closes
    exact ⟨signature, found, params, result, by rw [read, declarationAt?, shape]; rfl⟩
  case declared =>
    intro unclosed keyword
    rw [read, left unclosed (isDeclared_of_keywordHead? keyword).assignedField?]
    rfl
  case unowned =>
    intro unclosed undotted
    have noField : assignedField? (Text.trim (codeOf line)) = none :=
      head.elim (fun head => (isDeclared_of_keywordHead? head).assignedField?)
        fun head => (isAssigned_of_assignedHead? head).assignedField?_of_notMem undotted
    rw [read, left unclosed noField]
    rfl
  case owned =>
    intro unclosed assigned owner name dotted last
    rw [read, left unclosed ((isAssigned_of_assignedHead? assigned).assignedField? dotted last)]
    rfl
  case kinds =>
    intro declaration found
    rw [read] at found
    have found := Except.ok.inj found
    by_cases unclosed : IsUnclosed body
    · rw [left unclosed rfl] at found
      obtain ⟨field, -, rfl⟩ := Option.map_eq_some_iff.mp found
      exact Or.inr ⟨_, _, rfl⟩
    · obtain ⟨inner, tail, closes⟩ : ∃ inner tail, Closes 1 body inner tail := by
        simpa [IsUnclosed] using unclosed
      obtain ⟨signature, -, -, -, shape⟩ := head.shapeAt?_of_closes index rest closes
      rw [declarationAt?, shape] at found
      cases found
      exact Or.inl ⟨signature, rfl⟩

/-- Functions of a gate: the parameters of the first are on one line, those of the others go on. -/
def gateFunctions : List Text :=
  ["Gate.open = function(key: (Part) -> ()) end", "function Gate.close(key: Key,",
    "Gate.lock = function(key: Key,"]

theorem functions_read_where_closed_gate :
    atIndex gateFunctions 0 = .ok (some ⟨.function ⟨"open", some "Gate".toList, false,
        [⟨"key", some "(Part) -> ()".toList⟩], none⟩, 1,
        "Gate.open = function(key: (Part) -> ()) end"⟩) ∧
      atIndex gateFunctions 1 = .ok none ∧
      atIndex gateFunctions 2 =
        .ok (some ⟨.property "lock" "Gate", 3, "Gate.lock = function(key: Key,"⟩) := by
  have opens : assignedHead? (Text.trim (codeOf "Gate.open = function(key: (Part) -> ()) end")) =
      some ("Gate.open".toList, "key: (Part) -> ()) end".toList) := by decide
  have closes : keywordHead? (Text.trim (codeOf "function Gate.close(key: Key,")) =
      some ("Gate.close".toList, "key: Key,".toList) := by decide
  have locks : assignedHead? (Text.trim (codeOf "Gate.lock = function(key: Key,")) =
      some ("Gate.lock".toList, "key: Key,".toList) := by decide
  have unclosed : IsUnclosed "key: Key," := by decide
  have first : IsReadAsFunction gateFunctions 0 _ _ _ :=
    functions_read_where_closed rfl (Or.inr opens)
  have second : IsReadAsFunction gateFunctions 1 _ _ _ :=
    functions_read_where_closed rfl (Or.inl closes)
  have third : IsReadAsFunction gateFunctions 2 _ _ _ :=
    functions_read_where_closed rfl (Or.inr locks)
  refine ⟨?_, second.declared unclosed closes,
    third.owned unclosed locks "Gate" "lock" rfl (by decide)⟩
  obtain ⟨signature, found, -, -, read⟩ :=
    first.closed "key: (Part) -> ()" " end" (closes_of_closeParens? Nat.one_pos (by decide))
  rw [read]
  cases found
  rfl

/-- A function that is assigned to a field and goes on behind the line is taken for a property. -/
theorem not_functions_read_where_closed :
    ¬ ∀ (lines : List Text) (index : Nat) (line path body : Text), lines[index]? = some line →
      BeginsLike (Text.trim (codeOf line)) path body → IsUnclosed body →
      atIndex lines index = .ok none := by
  intro nothing
  have read := nothing gateFunctions 2 _ "Gate.lock" "key: Key," rfl (by decide) (by decide)
  have property : atIndex gateFunctions 2 ≠ .ok none := by decide
  exact property read

end Declaration

end LuauReference
