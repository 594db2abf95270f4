/-
This file proves that the head of a function is read back from its signature. Pages and the types of
functions print one on a single line or with a line for each parameter, and what is printed behind
the keyword of a function is read as a declaration of the same function: its name and owner, its
parameters with their types, and its result. The parentheses around the parameters are found again
and the commas between them are told from those inside of types, because the brackets of each type
are nested.
-/

import LuauReference.Declaration.Signature
import LuauReference.Page.Signature
import LuauReference.Proofs.Declaration.Line
import LuauReference.Proofs.Declaration.Nesting
import LuauReference.Proofs.Symbol.Assembly
import LuauReference.Proofs.Symbol.Qualified

namespace LuauReference

namespace Declaration

/-! ### Parameters -/

/-- What no type of a parameter has outside of brackets: commas and equals signs. -/
def paramMarks : Text := ",="

/-- Whether a parameter can be printed and read back. Three dots are a name as well, and a type is
trimmed and nested. -/
structure Param.IsReadable (param : Param) : Prop where
  name : Text.isIdentifier param.name = true ∨ param.name = "..."
  trimmed : ∀ type ∈ param.type, Text.IsTrimmed type
  nested : ∀ type ∈ param.type, IsNested paramMarks type

/-- The text of a parameter. -/
def Param.text (param : Param) : Text :=
  Assembly.paramText param.name param.type

theorem areSeparators_comma : areSeparators "," = true := rfl

theorem Param.IsReadable.isTrimmed_name {param : Param} (readable : param.IsReadable) :
    Text.IsTrimmed param.name := by
  rcases readable.name with identifier | dots
  · exact Text.isTrimmed_of_isIdentifier identifier
  · rw [dots]
    exact ⟨by decide, by decide⟩

/-- The text of a parameter is a part of a list. -/
theorem Param.IsReadable.isNested_text {param : Param} (readable : param.IsReadable) :
    IsNested paramMarks param.text := by
  have name : IsNested paramMarks param.name := by
    rcases readable.name with identifier | dots
    · exact isNested_of_isIdentifier identifier (by decide)
    · rw [dots]
      decide
  have typed := readable.nested
  unfold Param.text Assembly.paramText
  split
  · next type same => exact (name.append (by decide)).append (typed type same)
  · exact name

theorem Param.IsReadable.isTrimmed_text {param : Param} (readable : param.IsReadable) :
    Text.IsTrimmed param.text := by
  unfold Param.text Assembly.paramText
  split
  · next type same => exact readable.isTrimmed_name.append (readable.trimmed type same) ": "
  · exact readable.isTrimmed_name

/-- A type is read back when it stands behind a blank. -/
theorem nonEmpty?_trim_cons {type : Text} (trimmed : Text.IsTrimmed type) :
    Doc.nonEmpty? (Text.trim (' ' :: type)) = some type := by
  have blank : Text.isBlankText [' '] = true := rfl
  have whole : Text.trim (' ' :: type) = type :=
    (Text.trim_append_left blank type).trans trimmed.trimmed
  rw [whole, Doc.nonEmpty?_of_ne_nil trimmed.present]

theorem paramOf_dots {type : Option Text} (trimmed : ∀ text ∈ type, Text.IsTrimmed text) :
    paramOf (Assembly.paramText "..." type) = ⟨"...", type⟩ := by
  cases type with
  | none => rfl
  | some type =>
    have behind : Text.after? "..." ("...".toList ++ ": ".toList ++ type) =
        some (": ".toList ++ type) :=
      Text.after?_eq_some_iff.mpr rfl
    have typed := nonEmpty?_trim_cons (trimmed type rfl)
    rw [paramOf, Assembly.paramText, behind]
    exact congrArg (Param.mk "...") typed

/-- No identifier begins with a dot. -/
theorem after?_dots {name : Text} (identifier : Text.isIdentifier name = true) (tail : Text) :
    Text.after? "..." (name ++ tail) = none := by
  cases name with
  | nil => cases identifier
  | cons c rest =>
    have other : '.' ≠ c := by
      rintro rfl
      cases identifier
    exact if_neg other

theorem paramOf_identifier {name : Text} (identifier : Text.isIdentifier name = true)
    {type : Option Text}
    (trimmed : ∀ text ∈ type, Text.IsTrimmed text)
    (nested : ∀ text ∈ type, IsNested paramMarks text) :
    paramOf (Assembly.paramText name type) = ⟨name, type⟩ := by
  have noColon : ':' ∉ name := Text.notMem_of_isIdentifier identifier rfl
  cases type with
  | none =>
    have noDots := after?_dots identifier []
    rw [List.append_nil] at noDots
    have noType : Text.cut? ":" name = none := Text.cut?_of_notMem noColon
    simp only
      [paramOf, Assembly.paramText, noDots, noType, Text.identifier?_of_isIdentifier identifier,
      Option.map_some, Option.getD_some]
  | some type =>
    have whole : Assembly.paramText name (some type) = name ++ ':' :: ' ' :: type :=
      List.append_assoc name _ type
    have typed : Text.cut? ":" (name ++ ':' :: ' ' :: type) = some (name, ' ' :: type) :=
      Text.cut?_append_cons noColon _
    have kept : beforeDefault 0 none (' ' :: type) = ' ' :: type :=
      beforeDefault_of_isNested (by decide)
        (IsNested.append (s := [' ']) (by decide) (nested type rfl))
    have named : Text.identifier? (name ++ ':' :: ' ' :: type) = some (name, ':' :: ' ' :: type) :=
      Text.identifier?_append identifier rfl _
    simp only [paramOf, whole, after?_dots identifier, named, typed, kept,
      nonEmpty?_trim_cons (trimmed type rfl), Option.map_some, Option.getD_some]

/-- A parameter is read back from its text. -/
theorem Param.IsReadable.paramOf_text {param : Param} (readable : param.IsReadable) :
    paramOf param.text = param := by
  obtain ⟨name, type⟩ := param
  obtain ⟨identifier | dots, trimmed, nested⟩ := readable
  · exact paramOf_identifier identifier trimmed nested
  · obtain rfl : name = "...".toList := dots
    exact paramOf_dots trimmed

/-! ### Lists of parameters -/

section

variable {params : List Param} (readable : ∀ param ∈ params, param.IsReadable)
    {front pad back : Text}
  (frontBlank : Text.isBlankText front = true) (padBlank : Text.isBlankText pad = true)
  (backBlank : Text.isBlankText back = true)

include readable frontBlank padBlank backBlank

/-- Parameters are read back from their list, whatever blanks stand around them. -/
theorem paramsOf_join :
    paramsOf (front ++ Text.join (',' :: pad) (params.map Param.text) ++ back) = params := by
  have listed : ',' ∈ ",".toList := by decide
  have parts : ∀ part ∈ params.map Param.text, Text.IsTrimmed part ∧ IsNested "," part := by
    intro part member
    obtain ⟨param, inside, rfl⟩ := List.mem_map.mp member
    exact ⟨(readable param inside).isTrimmed_text, (readable param inside).isNested_text.mono rfl⟩
  rw [paramsOf, splitTopLevel_join areSeparators_comma listed frontBlank padBlank backBlank parts,
    List.map_map]
  have same : ∀ param ∈ params, (paramOf ∘ Param.text) param = id param := fun param member =>
    (readable param member).paramOf_text
  rw [List.map_congr_left same, List.map_id]

/-- The brackets of a list of parameters are nested. -/
theorem isNested_params :
    IsNested [] (front ++ Text.join (',' :: pad) (params.map Param.text) ++ back) := by
  have padded {s : Text} (blank : Text.isBlankText s = true) : IsNested [] s :=
    isNested_of_isBlankText rfl blank
  have comma : IsNested [] (',' :: pad) :=
    IsNested.append (s := [',']) (by decide) (padded padBlank)
  have parts : ∀ part ∈ params.map Param.text, IsNested [] part := by
    intro part member
    obtain ⟨param, inside, rfl⟩ := List.mem_map.mp member
    exact (readable param inside).isNested_text.mono rfl
  exact ((padded frontBlank).append (isNested_join comma parts)).append (padded backBlank)

end

/-! ### Names with an owner -/

/-- Whether an owner, a character and a name make up the path of a member. -/
structure IsMember (owner : Text) (mark : Char) (name : Text) : Prop where
  owner : Text.isDotted owner = true
  mark : mark = '.' ∨ mark = ':'
  name : Text.isIdentifier name = true

section

variable {owner name : Text} {mark : Char}

/-- A path is split into the owner and the name that it was made of. -/
theorem IsMember.splitOwner (member : IsMember owner mark name) :
    Doc.splitOwner (owner ++ mark :: name) = ⟨some owner, name, mark == ':'⟩ := by
  have noDot : '.' ∉ name := Text.notMem_of_isIdentifier member.name rfl
  have noColon : ':' ∉ name := Text.notMem_of_isIdentifier member.name rfl
  rcases member.mark with rfl | rfl
  · exact Doc.splitOwner_append_cons noColon noDot owner false
  · exact Doc.splitOwner_append_cons noColon noDot owner true

/-- A path is read up to the parenthesis behind it. -/
theorem IsMember.run? (member : IsMember owner mark name) (body : Text) :
    Text.run? Text.isWordStart isPathChar (owner ++ mark :: name ++ '(' :: body) =
      some (owner ++ mark :: name, '(' :: body) := by
  obtain ⟨c, rest, rfl, begins, runs⟩ := Text.exists_cons_of_isDotted member.owner
  have path : ∀ d ∈ rest ++ mark :: name, isPathChar d = true := by
    intro d inside
    rcases List.mem_append.mp inside with inside | inside
    · rw [isPathChar, runs d inside, Bool.true_or]
    · rcases List.mem_cons.mp inside with rfl | inside
      · rcases member.mark with rfl | rfl
        all_goals rfl
      · rw [isPathChar, Text.isWordChar_of_mem member.name d inside, Bool.true_or, Bool.true_or]
  have stop : ¬ isPathChar '(' = true := by decide
  rw [List.cons_append, List.cons_append, Text.run?, if_pos begins,
    List.takeWhile_append_of_pos path,
    List.dropWhile_append_of_pos path, List.takeWhile_cons_of_neg stop,
    List.dropWhile_cons_of_neg stop,
    List.append_nil]

/-! ### Heads of functions -/

/-- The head of a function that is declared with a keyword. -/
theorem IsMember.keywordHead? (member : IsMember owner mark name) (body : Text) :
    keywordHead? ("function ".toList ++ (owner ++ mark :: name ++ '(' :: body)) =
      some (owner ++ mark :: name, body) := by
  have solid : Text.IsTrimmed owner := by
    obtain ⟨c, rest, rfl, -⟩ := Text.exists_cons_of_isDotted member.owner
    exact ⟨List.cons_ne_nil _ _, Text.trim_of_isDotted member.owner⟩
  have whole : owner ++ mark :: name ++ '(' :: body = owner ++ (mark :: name ++ '(' :: body) :=
    List.append_assoc owner _ _
  have behind : afterKeyword? "function"
      ("function ".toList ++ (owner ++ mark :: name ++ '(' :: body)) =
      some (owner ++ mark :: name ++ '(' :: body) := by
    rw [whole]
    exact afterKeyword?_append "function" solid _
  have generic : skipGenerics ('(' :: body) = '(' :: body := rfl
  have unlocal : skipKeyword "local"
      ("function ".toList ++ (owner ++ mark :: name ++ '(' :: body)) =
      "function ".toList ++ (owner ++ mark :: name ++ '(' :: body) := rfl
  simp only [Declaration.keywordHead?, unlocal, behind, member.run?, generic, afterParen?,
    Option.bind_eq_bind, Option.bind_some, Option.pure_def]

/-- What follows the parameters is not read with blanks at its end. -/
theorem resultType?_trimEnd (tail : Text) : resultType? (Text.trimEnd tail) = resultType? tail := by
  rw [resultType?, Text.trim_trimEnd, resultType?]

/-- A function with an owner is read from its keyword, its path, its parameters and what follows
them. -/
theorem IsMember.signature (member : IsMember owner mark name) {inner : Text}
    (nested : IsNested [] inner)
    (tail : Text) :
    Declaration.signature
      ("function ".toList ++ (owner ++ mark :: name ++ '(' :: inner ++ ')' :: tail)) =
      some ⟨name, some owner, mark == ':' ||
        (paramsOf inner).head?.map Param.name == some "self".toList,
        paramsOf inner, resultType? tail⟩ := by
  have trimmed :
      Text.trim ("function ".toList ++ (owner ++ mark :: name ++ '(' :: inner ++ ')' :: tail)) =
      "function ".toList ++
        (owner ++ mark :: name ++ '(' :: (inner ++ ')' :: Text.trimEnd tail)) := by
    have whole : "function ".toList ++ (owner ++ mark :: name ++ '(' :: inner ++ ')' :: tail) =
        "function ".toList ++ (owner ++ mark :: name ++ '(' :: inner) ++ ')' :: tail :=
      (List.append_assoc _ _ _).symm
    have first : Text.trimStart
          ("function ".toList ++ (owner ++ mark :: name ++ '(' :: inner) ++ ')' :: tail) =
        "function ".toList ++ (owner ++ mark :: name ++ '(' :: inner) ++ ')' :: tail := rfl
    rw [whole, Text.trim, first, Text.trimEnd_append_cons (by decide)]
    simp only [List.append_assoc, List.cons_append]
  have owned : owner.isEmpty = false := by
    obtain ⟨c, rest, rfl, -⟩ := Text.exists_cons_of_isDotted member.owner
    rfl
  rw [Declaration.signature, trimmed, member.keywordHead?]
  dsimp only
  rw [signatureOf?, closeParens?_append nested, Option.map_some]
  dsimp only
  rw [resultType?_trimEnd, member.splitOwner]
  simp only [owned, Bool.not_false, Bool.true_and]

end

/-! ### Results -/

/-- What a page prints behind the parameters is no result of a declaration. -/
theorem resultType?_arrow (result : Text) : resultType? (" -> ".toList ++ result) = none := by
  have head : Text.trim (" -> ".toList ++ result) = '-' :: Text.trimEnd ("> ".toList ++ result) :=
    Text.trimEnd_append_cons (c := '-') rfl [] _
  rw [resultType?, head]
  rfl

theorem resultType?_colon {result : Text} (trimmed : Text.IsTrimmed result) :
    resultType? (": ".toList ++ result) = some result := by
  have head : Text.trim (": ".toList ++ result) = ": ".toList ++ result :=
    trimmed.trimEnd_append ": "
  rw [resultType?, head]
  exact nonEmpty?_trim_cons trimmed

/-! ### What is printed -/

/-- Whether an object of a document stands for a parameter. -/
structure Describes (object : Fields) (param : Param) : Prop where
  name : object.get? "name" = some (.str param.name)
  type : object.getD "type" = .ofText? param.type

theorem Param.IsReadable.type_ne {param : Param} (readable : param.IsReadable) :
    param.type ≠ some [] :=
  fun same => (readable.trimmed [] same).present rfl

section

variable {object : Fields} {param : Param} (described : Describes object param)
  (readable : param.IsReadable)

include described readable

theorem Describes.truthy?_name : (object.getD "name").truthy? = some (.str param.name) := by
  obtain ⟨c, rest, same⟩ := List.exists_cons_of_ne_nil readable.isTrimmed_name.present
  rw [Fields.getD, described.name, same]
  rfl

theorem Describes.truthy?_type : (object.getD "type").truthy? = param.type.map Json.str := by
  rw [described.type, Assembly.truthy?_ofText? readable.type_ne]

theorem Describes.typedName :
    Page.typedName (.str param.name) (object.getD "type") = param.text := by
  have present := readable.type_ne
  rw [described.type, Param.text]
  cases typed : param.type with
  | none => rfl
  | some type =>
    have solid : type.isEmpty = false :=
      List.isEmpty_eq_false_iff.mpr fun empty => present (typed.trans (congrArg some empty))
    rw [Page.typedName, Json.ofText?, Json.isTruthy, solid]
    rfl

end

section

variable {objects : List Fields} {params : List Param}
    (described : List.Forall₂ Describes objects params)
  (readable : ∀ param ∈ params, param.IsReadable)

include described readable

/-- The parameters on a page are those that the objects stand for. -/
theorem paramTexts_eq : Page.paramTexts objects = params.map Param.text := by
  rw [Page.paramTexts]
  induction described with
  | nil => rfl
  | @cons object param objects params same _ inductionHypothesis =>
    obtain ⟨first, others⟩ := List.forall_mem_cons.mp readable
    rw [List.filterMap_cons, same.truthy?_name first, Option.map_some, same.typedName first,
      inductionHypothesis others, List.map_cons]

theorem functionTextOf_eq :
    Assembly.functionTextOf objects [] =
      .ok ('(' :: Text.join ", " (params.map Param.text) ++ [')']) := by
  rw [Assembly.functionTextOf]
  refine Failure.bind_eq_ok_iff.mpr ⟨params.map fun param => (param.name, param.type), ?_, ?_⟩
  · induction described with
    | nil => rfl
    | @cons object param objects params same _ inductionHypothesis =>
      obtain ⟨first, others⟩ := List.forall_mem_cons.mp readable
      rw [List.mapM_cons, same.name, inductionHypothesis others, same.truthy?_type first,
        Option.map_map,
        List.map_cons]
      cases param.type <;> rfl
  · have text : (params.map fun param => (param.name, param.type)).map
        (fun parts => Assembly.paramText parts.1 parts.2) = params.map Param.text := List.map_map
    refine congrArg Except.ok ?_
    rw [← text]
    rfl

/-- On a page the parameters stand in parentheses with commas and blanks between them. -/
theorem exists_functionSignature_eq (path : Text) (returns : List Fields) (style : SignatureStyle) :
    ∃ front pad back, Text.isBlankText front = true ∧ Text.isBlankText pad = true ∧
      Text.isBlankText back = true ∧ Page.functionSignature path objects returns style =
        path ++ '(' :: (front ++ Text.join (',' :: pad) (params.map Param.text) ++ back) ++
          ')' :: (" -> ".toList ++ Page.returnText returns) := by
  rw [Page.functionSignature, paramTexts_eq described readable]
  dsimp only
  split
  · next several =>
    have many : 1 < (params.map Param.text).length := by
      simpa using (Bool.and_eq_true_iff.mp several).2
    obtain ⟨first, rest, whole⟩ := List.exists_cons_of_length_pos (Nat.zero_lt_of_lt many)
    refine ⟨"\n  ", "\n  ", "\n", rfl, rfl, rfl, ?_⟩
    rw [whole, Text.join_map_append]
    simp [Page.signatureIndent]
  · exact ⟨[], [' '], [], rfl, rfl, rfl, by simp⟩

end

/-- Reading a declaration undoes printing a signature: what a page shows of a function, and its type
on one line with a result behind it, are read as a function of the same name, owner and parameters.
It is a method exactly when it is written with a colon or its first parameter is the receiver. -/
theorem signature_of_printed {owner name : Text} {mark : Char} (member : IsMember owner mark name)
    {objects : List Fields} {params : List Param}
    (described : List.Forall₂ Describes objects params)
    (readable : ∀ param ∈ params, param.IsReadable) (returns : List Fields) (style : SignatureStyle)
    {result : Text} (trimmed : Text.IsTrimmed result) :
    let isMethod := mark == ':' || params.head?.map Param.name == some "self".toList
    signature
      ("function ".toList ++ Page.functionSignature (owner ++ mark :: name) objects returns style) =
        some ⟨name, some owner, isMethod, params, none⟩ ∧
      ∃ display, Assembly.functionTextOf objects [] = .ok display ∧
        signature
          ("function ".toList ++ (owner ++ mark :: name ++ display ++ ": ".toList ++ result)) =
          some ⟨name, some owner, isMethod, params, some result⟩ := by
  intro isMethod
  constructor
  · obtain ⟨front, pad, back, frontBlank, padBlank, backBlank, printed⟩ :=
      exists_functionSignature_eq described readable (owner ++ mark :: name) returns style
    have nested := isNested_params readable frontBlank padBlank backBlank
    rw [printed, member.signature nested, paramsOf_join readable frontBlank padBlank backBlank,
      resultType?_arrow]
  · refine ⟨_, functionTextOf_eq described readable, ?_⟩
    have nothing : Text.isBlankText [] = true := rfl
    have space : Text.isBlankText [' '] = true := rfl
    have nested := isNested_params readable nothing space nothing
    have whole : owner ++ mark :: name ++
        ('(' :: Text.join ", " (params.map Param.text) ++ [')']) ++
        ": ".toList ++ result = owner ++ mark :: name ++ '(' ::
          ([] ++ Text.join (',' :: [' ']) (params.map Param.text) ++ []) ++
            ')' :: (": ".toList ++ result) := by
      simp
    rw [whole, member.signature nested, paramsOf_join readable nothing space nothing,
      resultType?_colon trimmed]

/-- The objects of the parameters of a method, with a function in a type and a table in that. -/
def openObjects : List Fields :=
  [[("name".toList, .str "self"), ("type".toList, .null)],
    [("name".toList, .str "on"),
      ("type".toList, .str "(\x7b [string]: Part, n: 1 \x7d) -> Map<a, b>")],
    [("name".toList, .str "..."), ("type".toList, .str "any"), ("description".toList, .null)]]

/-- The parameters that they stand for. -/
def openParams : List Param :=
  [⟨"self", none⟩, ⟨"on", some "(\x7b [string]: Part, n: 1 \x7d) -> Map<a, b>"⟩,
    ⟨"...", some "any"⟩]

/-- A method on several lines, and on one with its result. -/
theorem signature_of_printed_open :
    signature
      ("function ".toList ++ Page.functionSignature "Gate.Frame:open" openObjects [] .block) =
        some ⟨"open", some "Gate.Frame".toList, true, openParams, none⟩ ∧
      ∃ display, Assembly.functionTextOf openObjects [] = .ok display ∧
        signature
          ("function ".toList ++
            ("Gate.Frame:open".toList ++ display ++ ": ".toList ++ "() -> ()".toList)) =
          some ⟨"open", some "Gate.Frame".toList, true, openParams, some "() -> ()".toList⟩ := by
  have readable : ∀ param ∈ openParams, param.IsReadable := by
    intro param member
    simp only [openParams, List.mem_cons, List.not_mem_nil, or_false] at member
    rcases member with rfl | rfl | rfl
    · exact ⟨Or.inl (by decide), nofun, nofun⟩
    · refine ⟨Or.inl (by decide), ?_, ?_⟩
      all_goals rintro type ⟨⟩
      · exact ⟨by decide, by decide⟩
      · decide
    · refine ⟨Or.inr rfl, ?_, ?_⟩
      all_goals rintro type ⟨⟩
      · exact ⟨by decide, by decide⟩
      · decide
  have described : List.Forall₂ Describes openObjects openParams :=
    .cons ⟨rfl, rfl⟩ (.cons ⟨rfl, rfl⟩ (.cons ⟨rfl, rfl⟩ .nil))
  have member : IsMember "Gate.Frame" ':' "open" := ⟨by decide, Or.inr rfl, by decide⟩
  exact signature_of_printed member described readable [] .block ⟨by decide, by decide⟩

end Declaration

end LuauReference
