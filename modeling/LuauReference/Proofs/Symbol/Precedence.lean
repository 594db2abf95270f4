/-
This file proves who owns what a documentation block documents. The tags of a block are read one by
one, and each may set the owner or leave it, so that at first sight the order of the tags decides.
It does not: the last tag for the owner counts wherever it stands, and names that carry an owner
count only without one. After the tags come the class that the placeholder stands for, the
declaration below the block and the only class of the file. What is left without an owner and needs
one is reported, once and at its own line.

The state that the reader hands from block to block is only the class declared last. It is first
taken out of the recursion, so that everything about one block can be said at its position.
-/

import LuauReference.Proofs.Comment.Scan
import LuauReference.Proofs.Doc.Place
import LuauReference.Proofs.Doc.Rearrangement
import LuauReference.Proofs.Page.Owner
import LuauReference.Proofs.Symbol.Position

namespace LuauReference

/-! ### What the tags say -/

namespace Doc

/-- The tags of a documentation block, in order. -/
def tagsIn (content : List Text) : List Tag :=
  said (Comment.dedent content)

namespace Tag

/-- The owner that a tag for owners gives. -/
def givenOwner? : Tag → Option Text
  | .within owner => owner
  | _ => none

/-- The owner in the name of what a tag declares. -/
def namedOwner? : Tag → Option Text
  | .declare _ owner => owner.bind nonEmpty?
  | _ => none

/-- What a tag declares. -/
def declared? : Tag → Option Declared
  | .declare declared _ => some declared
  | _ => none

/-- The class that a tag declares. -/
def class? (tag : Tag) : Option Text :=
  match tag.declared? with
  | some declared => if declared.kind = .class then nonEmpty? declared.name else none
  | none => none

end Tag

/-- The owner that tags state: the last one given, or else the first one in a declared name. -/
def statedOwner (tags : List Tag) : Option Text :=
  (tags.filterMap Tag.givenOwner?).getLast? <|> tags.findSome? Tag.namedOwner?

theorem statedOwner_concat_within (tags : List Tag) (owner : Text) :
    statedOwner (tags ++ [.within (some owner)]) = some owner := by
  rw [statedOwner, List.filterMap_append]
  simp [Tag.givenOwner?]

theorem statedOwner_concat_declare (tags : List Tag) (declared : Declared) (owner : Option Text) :
    statedOwner (tags ++ [.declare declared owner]) =
      (statedOwner tags <|> owner.bind nonEmpty?) := by
  have named : [Tag.declare declared owner].findSome? Tag.namedOwner? = owner.bind nonEmpty? := by
    simp [Tag.namedOwner?]
  rw [statedOwner, statedOwner, List.filterMap_append, List.findSome?_append, named]
  simp [Tag.givenOwner?, Option.or_assoc]

/-- A tag that neither gives nor names an owner does not change the one that is stated. -/
theorem statedOwner_concat_of_none {tag : Tag} (ungiven : tag.givenOwner? = none)
    (unnamed : tag.namedOwner? = none) (tags : List Tag) :
    statedOwner (tags ++ [tag]) = statedOwner tags := by
  rw [statedOwner, statedOwner, List.filterMap_append, List.findSome?_append]
  simp [ungiven, unnamed]

/-- The reader keeps the owner that the tags state, in whatever order it meets them. -/
theorem within_applyAll {tags : List Tag} (given : Tag.within none ∉ tags) :
    (applyAll tags).marks.within = statedOwner tags := by
  induction tags using List.reverseRecOn with
  | nil => rfl
  | append_singleton tags tag inductionHypothesis =>
    rw [List.mem_append, not_or] at given
    have before := inductionHypothesis given.1
    rw [applyAll_concat]
    cases tag with
    | within owner =>
      cases owner with
      | none => exact absurd List.mem_cons_self given.2
      | some owner => rw [statedOwner_concat_within]; rfl
    | declare declared owner =>
      rw [Tag.apply_declare, statedOwner_concat_declare, before]
      cases statedOwner tags <;> rfl
    | _ => rw [statedOwner_concat_of_none rfl rfl, ← before]; rfl

theorem declared_applyAll (tags : List Tag) :
    (applyAll tags).declared = tags.filterMap Tag.declared? := by
  induction tags using List.reverseRecOn with
  | nil => rfl
  | append_singleton tags tag inductionHypothesis =>
    rw [applyAll_concat, List.filterMap_append, ← inductionHypothesis]
    cases tag with
    | declare declared owner => rw [Tag.apply_declare]; rfl
    | _ => exact (List.append_nil _).symm

theorem read_eq (content : List Text) : read content = recordOf (Comment.dedent content) :=
  (lines_go_to_places content).2.2

/-- The owner that a record keeps is the one that the tags of its block state. -/
theorem within_read {content : List Text} (given : Tag.within none ∉ tagsIn content) :
    (read content).marks.within = statedOwner (tagsIn content) := by
  rw [read_eq]
  exact within_applyAll given

theorem declared_read (content : List Text) :
    (read content).declared = (tagsIn content).filterMap Tag.declared? := by
  rw [read_eq]
  exact declared_applyAll _

end Doc

/-! ### What is decided about the blocks of a file -/

namespace Assembly

theorem classesOf_read (content : List Text) :
    classesOf (Doc.read content) = (Doc.tagsIn content).filterMap Doc.Tag.class? := by
  rw [classesOf, Doc.declared_read, List.filterMap_filterMap]
  refine List.filterMap_congr fun tag _ => ?_
  rw [Doc.Tag.class?]
  cases tag.declared? <;> rfl

/-- The blocks of a file that are read: those outside of table types. -/
def readBlocks (lines : List Text) : List Comment.Block :=
  (recordsOf lines).map Prod.fst

/-- The names of the classes that blocks declare, in order. -/
def declaredClasses (blocks : List Comment.Block) : List Text :=
  blocks.flatMap fun block => (Doc.tagsIn block.content).filterMap Doc.Tag.class?

/-- The names of the classes of a file, each of them once. -/
def classesIn (lines : List Text) : List Text :=
  (declaredClasses (readBlocks lines)).eraseDups

/-- Records with the placeholder owner replaced, given the class declared last before them. -/
def settled : Option Text → List (Comment.Block × Doc.Record) → List (Comment.Block × Doc.Record)
  | _, [] => []
  | before, (block, record) :: rest =>
    let current := currentClass before record
    (block, resolvePlaceholder current record) :: settled current rest

/-- What is decided about the blocks of a file that are read, in order. -/
def decided (lines : List Text) : List (Comment.Block × Subject) :=
  (settled none (recordsOf lines)).map fun (block, record) =>
    (block, subjectOf record (declarationFor? lines block record) (classesIn lines))

theorem recordsOf_eq (lines : List Text) :
    recordsOf lines = (readBlocks lines).map fun block => (block, Doc.read block.content) := by
  rw [readBlocks, recordsOf]
  dsimp only
  rw [List.map_map, List.map_map]
  rfl

theorem flatMap_classesOf (blocks : List Comment.Block) :
    ((blocks.map fun block => (block, Doc.read block.content)).flatMap fun (_, record) =>
      classesOf record) = declaredClasses blocks := by
  rw [List.flatMap_map, declaredClasses]
  simp only [classesOf_read]

/-- The class that the placeholder stands for is told by the records up to a position. -/
theorem settled_getElem? {before : Option Text} {records : List (Comment.Block × Doc.Record)}
    {index : Nat} {block : Comment.Block} {record : Doc.Record}
    (stands : records[index]? = some (block, record)) :
    (settled before records)[index]? = some (block, resolvePlaceholder
      (((records.take (index + 1)).flatMap fun (_, record) => classesOf record).getLast? <|> before)
      record) := by
  induction records generalizing before index with
  | nil => cases stands
  | cons pair rest inductionHypothesis =>
    obtain ⟨first, own⟩ := pair
    cases index with
    | zero =>
      cases stands
      simp [settled, currentClass]
    | succ index =>
      rw [settled, List.getElem?_cons_succ, inductionHypothesis stands, List.take_succ_cons,
        List.flatMap_cons, List.getLast?_append, currentClass]
      simp only [Option.orElse_eq_orElse, Option.orElse_eq_or, Option.or_assoc]

theorem map_fst_settled (before : Option Text) (records : List (Comment.Block × Doc.Record)) :
    (settled before records).map Prod.fst = records.map Prod.fst := by
  induction records generalizing before with
  | nil => rfl
  | cons pair rest inductionHypothesis =>
    rw [settled, List.map_cons, List.map_cons, inductionHypothesis]

theorem map_fst_decided (lines : List Text) : (decided lines).map Prod.fst = readBlocks lines := by
  rw [decided, List.map_map]
  exact map_fst_settled none _

/-- The symbols and reports of a file are those of its blocks, each with its settled record. -/
theorem assembleRecords_eq (lines : List Text) (file : Text) (classNames : List Text)
    (before : Option Text) (records : List (Comment.Block × Doc.Record)) :
    assembleRecords lines file classNames before records =
      ((settled before records).flatMap fun (block, record) =>
          (blockSymbols record block (declarationFor? lines block record) lines file classNames).1,
        (settled before records).flatMap fun (block, record) =>
          (blockSymbols record block
            (declarationFor? lines block record) lines file classNames).2 ++
            signatureDiagnostics file block.firstLine record
              (declarationFor? lines block record)) := by
  induction records generalizing before with
  | nil => rfl
  | cons pair rest inductionHypothesis =>
    rw [assembleRecords, inductionHypothesis]
    rfl

theorem assemble_eq (lines : List Text) (file : Text) :
    assemble lines file = assembleRecords lines file (classesIn lines) none (recordsOf lines) := by
  rw [assemble, classesIn, ← flatMap_classesOf, ← recordsOf_eq]

/-! ### Owners of blocks -/

theorem within_resolvePlaceholder (current : Option Text) (record : Doc.Record) :
    (resolvePlaceholder current record).marks.within = record.marks.within.bind fun owner =>
      if owner = Doc.ownerPlaceholder then current else some owner := by
  unfold resolvePlaceholder
  cases stated : record.marks.within with
  | none =>
    rw [if_neg (Option.some_ne_none _).symm, stated]
    rfl
  | some owner =>
    simp only [Option.some.injEq, Option.bind_some]
    split
    · rfl
    · exact stated

/-- The placeholder does not matter for where a declaration is looked up. -/
theorem declarationFor?_resolvePlaceholder (lines : List Text) (block : Comment.Block)
    (current : Option Text) (record : Doc.Record) :
    declarationFor? lines block (resolvePlaceholder current record) =
      declarationFor? lines block record := by
  unfold resolvePlaceholder
  split <;> rfl

/-- A function that turns out to be a constructor needs an owner as before. -/
theorem isOwned_subjectOf (record : Doc.Record) (declaration : Option Declaration)
    (classNames : List Text) :
    isOwned (subjectOf record declaration classNames).kind =
      isOwned (identify record declaration).1 := by
  rw [subjectOf]
  dsimp only
  split
  · next builds =>
    simp only [Bool.and_eq_true, beq_iff_eq] at builds
    rw [builds.1.1.1]
    rfl
  · rfl

/-- The owner that tags give, where the placeholder stands for a class. -/
def taggedOwner (tags : List Doc.Tag) (current : Option Text) : Option Text :=
  (Doc.statedOwner tags).bind fun owner =>
    if owner = Doc.ownerPlaceholder then current else some owner

/-- The only one of some classes. -/
def onlyClass? : List Text → Option Text
  | [only] => some only
  | _ => none

/-- What may give an owner to what the block at a position documents, in the order in which it is
asked: its tags, with the class declared last at or before the block, its declaration, and for what
needs an owner the only class of the file. -/
def ownerSources (lines : List Text) (index : Nat) (block : Comment.Block)
    (kind : Option Doc.Kind) :
    List (Option Text) :=
  [taggedOwner (Doc.tagsIn block.content)
      (declaredClasses ((readBlocks lines).take (index + 1))).getLast?,
    ((declarationFor? lines block (Doc.read block.content)).bind Declaration.within?).bind
      Doc.nonEmpty?,
    if isOwned kind then onlyClass? (classesIn lines) else none]

theorem ownerOf_eq (record : Doc.Record) (declaration : Option Declaration) (classNames : List Text)
    (kind : Option Doc.Kind) :
    ownerOf record declaration classNames kind =
      [record.marks.within, (declaration.bind Declaration.within?).bind Doc.nonEmpty?,
        if isOwned kind then onlyClass? classNames else none].findSome? id := by
  unfold ownerOf onlyClass?
  cases record.marks.within with
  | some owner => rfl
  | none =>
    cases (declaration.bind Declaration.within?).bind Doc.nonEmpty? with
    | some owner => rfl
    | none => rcases classNames with _ | ⟨only, _ | _⟩ <;> cases isOwned kind <;> rfl

/-! ### Reports on owners -/

end Assembly

/-- Whether a report is on an owner that is missing. -/
def Diagnostic.isOnOwner (diagnostic : Diagnostic) : Bool :=
  diagnostic.message == missingClass || diagnostic.message == ambiguousOwner

namespace Assembly

theorem isOnOwner_of_mem_ownerDiagnostics {file : Text} {line : Nat} {classNames : List Text}
    {kind : Option Doc.Kind} {within : Option Text} {diagnostic : Diagnostic}
    (member : diagnostic ∈ ownerDiagnostics file line classNames kind within) :
    diagnostic.isOnOwner = true ∧ diagnostic.line = line := by
  unfold ownerDiagnostics at member
  split at member
  · split at member
    · rw [List.mem_singleton.mp member]
      exact ⟨rfl, rfl⟩
    · rw [List.mem_singleton.mp member]
      exact ⟨rfl, rfl⟩
  · cases member

theorem filter_isOnOwner_ownerDiagnostics (file : Text) (line : Nat) (classNames : List Text)
    (kind : Option Doc.Kind) (within : Option Text) :
    (ownerDiagnostics file line classNames kind within).filter Diagnostic.isOnOwner =
      ownerDiagnostics file line classNames kind within :=
  List.filter_eq_self.mpr fun _ member => (isOnOwner_of_mem_ownerDiagnostics member).1

/-- Of the reports on a block those on its owner are the ones that are due to it. -/
theorem filter_isOnOwner_block (record : Doc.Record) (block : Comment.Block)
    (declaration : Option Declaration) (lines : List Text) (file : Text) (classNames : List Text) :
    ((blockSymbols record block declaration lines file classNames).2 ++
        signatureDiagnostics file block.firstLine record declaration).filter Diagnostic.isOnOwner =
      ownerDiagnostics file block.firstLine classNames
        (subjectOf record declaration classNames).kind
        (subjectOf record declaration classNames).within := by
  have misuse (kind : Doc.Kind) :
      (misuseDiagnostics file block.firstLine record kind).filter Diagnostic.isOnOwner = [] := by
    unfold misuseDiagnostics
    split <;> rfl
  have mismatch : (signatureDiagnostics file block.firstLine record declaration).filter
      Diagnostic.isOnOwner = [] := by
    unfold signatureDiagnostics
    split
    · rfl
    · dsimp only
      split <;> rfl
  rw [blockSymbols_eq, List.filter_append, mismatch, List.append_nil]
  dsimp only
  split
  · rw [List.filter_append, misuse, List.append_nil, filter_isOnOwner_ownerDiagnostics]
  · rw [filter_isOnOwner_ownerDiagnostics]

/-- The reports on owners of a file are those that are due to its blocks. -/
theorem filter_isOnOwner_assemble (lines : List Text) (file : Text) :
    (assemble lines file).2.filter Diagnostic.isOnOwner =
      (decided lines).flatMap fun (block, subject) =>
        ownerDiagnostics file block.firstLine (classesIn lines) subject.kind subject.within := by
  rw [assemble_eq, assembleRecords_eq, decided, List.flatMap_map, List.filter_flatMap]
  simp only [filter_isOnOwner_block]

/-- What one item of a list gives is told from what all of them give by a key that grows along the
list. -/
theorem filter_flatMap_of_key {α β : Type} {items : List α} {give : α → List β} {key : α → Int}
    {keyOf : β → Int} (apart : items.Pairwise fun item later => key item < key later)
    (own : ∀ item ∈ items, ∀ given ∈ give item, keyOf given = key item) {item : α}
    (member : item ∈ items) :
    (items.flatMap give).filter (fun given => keyOf given == key item) = give item := by
  induction items with
  | nil => cases member
  | cons first rest inductionHypothesis =>
    obtain ⟨ahead, apart⟩ := List.pairwise_cons.mp apart
    obtain ⟨ownFirst, ownRest⟩ := List.forall_mem_cons.mp own
    have others {wanted : α} (differs : ∀ other ∈ rest, key other ≠ key wanted) :
        (rest.flatMap give).filter (fun given => keyOf given == key wanted) = [] := by
      refine List.filter_eq_nil_iff.mpr fun given inside => ?_
      obtain ⟨other, held, gives⟩ := List.mem_flatMap.mp inside
      rw [ownRest other held given gives, beq_iff_eq]
      exact differs other held
    rw [List.flatMap_cons, List.filter_append]
    rcases List.mem_cons.mp member with rfl | later
    · rw [others fun other held => ne_of_gt (ahead other held), List.append_nil]
      refine List.filter_eq_self.mpr fun given gives => ?_
      rw [ownFirst given gives, beq_iff_eq]
    · rw [inductionHypothesis apart ownRest later, List.filter_eq_nil_iff.mpr, List.nil_append]
      intro given gives
      rw [ownFirst given gives, beq_iff_eq]
      exact ne_of_lt (ahead item later)

/-- No two blocks that are read begin on one line. -/
theorem pairwise_decided (lines : List Text) :
    (decided lines).Pairwise fun first second =>
      (first.1.firstLine : Int) < second.1.firstLine := by
  have read : (readBlocks lines).Sublist (Comment.blocks lines) := by
    rw [readBlocks, recordsOf, List.map_map]
    exact (List.map_id _).symm ▸ List.filter_sublist
  have apart : (readBlocks lines).Pairwise fun first second =>
      first.firstLine < second.firstLine := by
    refine ((Comment.pairwise_blocksFrom 1 lines).sublist read).imp_of_mem ?_
    intro first second held _ before
    have ordered := (Comment.isIn_of_mem_blocks (read.subset held)).ordered
    exact Nat.lt_of_le_of_lt ordered before
  rw [← map_fst_decided, List.pairwise_map] at apart
  exact apart.imp Int.ofNat_lt.mpr

/-- The reports on owners at the first line of a block. -/
def ownerReports (lines : List Text) (file : Text) (block : Comment.Block) : List Diagnostic :=
  ((assemble lines file).2.filter Diagnostic.isOnOwner).filter fun diagnostic =>
    diagnostic.line == (block.firstLine : Int)

theorem ownerReports_eq {lines : List Text} (file : Text) {block : Comment.Block}
    {subject : Subject}
    (member : (block, subject) ∈ decided lines) :
    ownerReports lines file block =
      ownerDiagnostics file block.firstLine (classesIn lines) subject.kind subject.within := by
  rw [ownerReports, filter_isOnOwner_assemble]
  exact filter_flatMap_of_key (pairwise_decided lines)
    (fun _ _ _ due => (isOnOwner_of_mem_ownerDiagnostics due).2) member

/-! ### The order of sources -/

/-- Whether the owner of what a block documents, the block at a position among those that are read,
comes from the first source that has one, stands in the symbol of the block, and is reported as
missing at the first line of the block exactly when there is none and one is needed: as an error
when the file has no class and as a warning when it has several. -/
structure IsOwnedInOrder (lines : List Text) (file : Text) (index : Nat) (block : Comment.Block)
    (subject : Subject) : Prop where
  owner : subject.within = (ownerSources lines index block subject.kind).findSome? id
  symbol : subject.isKnown = true → ∃ symbol ∈ (assemble lines file).1, IsSymbolOf subject symbol ∧
    symbol.location =
      locationOf block (declarationFor? lines block (Doc.read block.content)) lines file
  missing : isOwned subject.kind = true → subject.within = none →
    (classesIn lines = [] ∧ ownerReports lines file block =
      [.error file block.firstLine Diagnostic.missingClass]) ∨
    (2 ≤ (classesIn lines).length ∧ ownerReports lines file block =
      [.warning file block.firstLine Diagnostic.ambiguousOwner])
  quiet : isOwned subject.kind = false ∨ subject.within ≠ none → ownerReports lines file block = []

/-- Where a block stands among those that are read, its record is settled with the class declared
last up to there. -/
theorem settled_recordsOf {lines : List Text} {index : Nat} {block : Comment.Block}
    (stands : (readBlocks lines)[index]? = some block) :
    (settled none (recordsOf lines))[index]? = some (block,
      resolvePlaceholder (declaredClasses ((readBlocks lines).take (index + 1))).getLast?
        (Doc.read block.content)) := by
  have record : (recordsOf lines)[index]? = some (block, Doc.read block.content) := by
    rw [recordsOf_eq, List.getElem?_map, stands, Option.map_some]
  rw [settled_getElem? record, recordsOf_eq, ← List.map_take, flatMap_classesOf,
    Option.orElse_eq_orElse, Option.orElse_eq_or, Option.or_none]

/-- A block whose subject is known has a symbol with the owner that was decided. -/
theorem exists_symbol_of_settled {lines : List Text} (file : Text) {block : Comment.Block}
    {record : Doc.Record} (member : (block, record) ∈ settled none (recordsOf lines))
    (known : (subjectOf record (declarationFor? lines block record) (classesIn lines)).isKnown =
      true) :
    ∃ symbol ∈ (assemble lines file).1,
      IsSymbolOf (subjectOf record (declarationFor? lines block record) (classesIn lines)) symbol ∧
      symbol.location = locationOf block (declarationFor? lines block record) lines file := by
  rw [Subject.isKnown, Bool.and_eq_true, Option.isSome_iff_exists, Option.isSome_iff_exists]
    at known
  obtain ⟨⟨kind, kindFound⟩, name, nameFound⟩ := known
  let declaration := declarationFor? lines block record
  let subject := subjectOf record declaration (classesIn lines)
  let symbol : Symbol := ⟨kind.word, name, qualifiedName subject.within name subject.isMethod,
    locationOf block declaration lines file, docsOf record,
    typesOf kind record declaration subject.isMethod, visibilityOf record⟩
  refine ⟨symbol, ?_, ⟨?_, nameFound, rfl⟩, rfl⟩
  · rw [assemble_eq, assembleRecords_eq]
    refine List.mem_flatMap.mpr ⟨(block, record), member, ?_⟩
    dsimp only
    rw [blockSymbols_eq]
    dsimp only
    rw [kindFound, nameFound]
    exact List.mem_cons_self
  · rw [kindFound]
    rfl

/-- What needs an owner has one in a file with one class. -/
theorem length_ne_one_of_missing {record : Doc.Record} {declaration : Option Declaration}
    {classNames : List Text} (owned : isOwned (subjectOf record declaration classNames).kind = true)
    (missing : (subjectOf record declaration classNames).within = none) :
    classNames.length ≠ 1 := by
  intro one
  obtain ⟨only, rfl⟩ := List.length_eq_one_iff.mp one
  rw [isOwned_subjectOf] at owned
  change ownerOf record declaration [only] (identify record declaration).1 = none at missing
  rw [ownerOf_eq, List.findSome?_eq_none_iff] at missing
  have sole := missing _ (List.mem_of_getLast? rfl)
  rw [owned] at sole
  cases sole

theorem ownerDiagnostics_of_missing {file : Text} {line : Nat} {classNames : List Text}
    {kind : Option Doc.Kind} (owned : isOwned kind = true)
    (several : classNames.length ≠ 1) :
    (classNames = [] ∧ ownerDiagnostics file line classNames kind none =
      [.error file line Diagnostic.missingClass]) ∨
    (2 ≤ classNames.length ∧ ownerDiagnostics file line classNames kind none =
      [.warning file line Diagnostic.ambiguousOwner]) := by
  unfold ownerDiagnostics
  rw [owned]
  rcases classNames with _ | ⟨first, _ | ⟨second, more⟩⟩
  · exact Or.inl ⟨rfl, rfl⟩
  · exact absurd rfl several
  · exact Or.inr ⟨by simp, rfl⟩

theorem ownerDiagnostics_of_quiet {file : Text} {line : Nat} {classNames : List Text}
    {kind : Option Doc.Kind} {within : Option Text} (quiet : isOwned kind = false ∨ within ≠ none) :
    ownerDiagnostics file line classNames kind within = [] := by
  unfold ownerDiagnostics
  refine if_neg ?_
  rw [Bool.and_eq_true, Option.isNone_iff_eq_none, not_and_or, Bool.not_eq_true]
  exact quiet.symm

theorem decided_of_settled {lines : List Text} {index : Nat} {block : Comment.Block}
    {record : Doc.Record}
    (stands : (settled none (recordsOf lines))[index]? = some (block, record)) :
    (decided lines)[index]? =
      some (block, subjectOf record (declarationFor? lines block record) (classesIn lines)) := by
  rw [decided, List.getElem?_map, stands]
  rfl

/-- The owner of a settled record is the one that the tags of its block give. -/
theorem within_settled {content : List Text} (given : Doc.Tag.within none ∉ Doc.tagsIn content)
    (current : Option Text) :
    (resolvePlaceholder current (Doc.read content)).marks.within =
      taggedOwner (Doc.tagsIn content) current := by
  rw [within_resolvePlaceholder, Doc.within_read given]
  rfl

theorem isOwnedInOrder_of_settled {lines : List Text} (file : Text) {index : Nat}
    {block : Comment.Block} {record : Doc.Record}
    (stands : (settled none (recordsOf lines))[index]? = some (block, record))
    (own : record.marks.within = taggedOwner (Doc.tagsIn block.content)
      (declaredClasses ((readBlocks lines).take (index + 1))).getLast?)
    (declared : declarationFor? lines block record =
      declarationFor? lines block (Doc.read block.content)) :
    IsOwnedInOrder lines file index block
      (subjectOf record (declarationFor? lines block record) (classesIn lines)) := by
  have reports := ownerReports_eq file (List.mem_of_getElem? (decided_of_settled stands))
  refine ⟨?_, fun known => ?_, fun owned missing => ?_, fun quiet => ?_⟩
  · refine (ownerOf_eq _ _ _ _).trans ?_
    rw [own, ownerSources, isOwned_subjectOf, declared]
    rfl
  · rw [← declared]
    exact exists_symbol_of_settled file (List.mem_of_getElem? stands) known
  · rw [reports, missing]
    exact ownerDiagnostics_of_missing owned (length_ne_one_of_missing owned missing)
  · rw [reports]
    exact ownerDiagnostics_of_quiet quiet

end Assembly

/-- The owner of what a documentation block documents comes from one order of sources: the last tag
for owners, wherever it stands, or else the first declared name that carries an owner, where the
placeholder stands for the class declared last; then the declaration below the block; then, for what
needs an owner, the only class of the file. What needs an owner and has none is reported exactly
once, at the first line of its block, and nothing else is. In a file with exactly one class there is
no such report at all. -/
theorem owners_in_order (lines : List Text) (file : Text) :
    (∀ (index : Nat) (block : Comment.Block), (Assembly.readBlocks lines)[index]? = some block →
      Doc.Tag.within none ∉ Doc.tagsIn block.content →
      ∃ subject, (Assembly.decided lines)[index]? = some (block, subject) ∧
        Assembly.IsOwnedInOrder lines file index block subject) ∧
    (∀ diagnostic ∈ (assemble lines file).2, diagnostic.isOnOwner = true →
      ∃ block ∈ Assembly.readBlocks lines, diagnostic.line = block.firstLine) ∧
    ((Assembly.classesIn lines).length = 1 →
      (assemble lines file).2.filter Diagnostic.isOnOwner = []) := by
  refine ⟨?_, ?_, ?_⟩
  · intro index block stands given
    have settled := Assembly.settled_recordsOf stands
    exact ⟨_, Assembly.decided_of_settled settled,
      Assembly.isOwnedInOrder_of_settled file settled (Assembly.within_settled given _)
        (Assembly.declarationFor?_resolvePlaceholder lines block _ _)⟩
  · intro diagnostic member onOwner
    have due := List.mem_filter.mpr ⟨member, onOwner⟩
    rw [Assembly.filter_isOnOwner_assemble] at due
    obtain ⟨⟨block, subject⟩, inside, gives⟩ := List.mem_flatMap.mp due
    refine ⟨block, ?_, (Assembly.isOnOwner_of_mem_ownerDiagnostics gives).2⟩
    exact Assembly.map_fst_decided lines ▸ List.mem_map_of_mem inside
  · intro one
    rw [Assembly.filter_isOnOwner_assemble, Assembly.decided, List.flatMap_map,
      List.flatMap_eq_nil_iff]
    rintro ⟨block, record⟩ -
    refine Assembly.ownerDiagnostics_of_quiet ?_
    by_contra due
    rw [not_or, Bool.not_eq_false, not_not] at due
    exact Assembly.length_ne_one_of_missing due.1 due.2 one

/-- Two classes, a function whose name carries one owner while a later tag gives the placeholder,
and a function of which nothing tells the owner. -/
def gateLines : List Text :=
  ["--- @class Door", "", "--- @function Gate.open", "--- @within ~", "", "--- @class Gate", "",
    "--- Shuts.", "function shut()"]

theorem owners_in_order_gate :
    (Assembly.readBlocks gateLines)[1]? = some ⟨3, 4, ["@function Gate.open", "@within ~"]⟩ ∧
    Doc.Tag.within none ∉ Doc.tagsIn ["@function Gate.open", "@within ~"] ∧
    (Assembly.readBlocks gateLines)[3]? = some ⟨8, 8, ["Shuts."]⟩ ∧
    Doc.Tag.within none ∉ Doc.tagsIn ["Shuts."] ∧
    (∃ subject, (Assembly.decided gateLines)[1]? =
      some (⟨3, 4, ["@function Gate.open", "@within ~"]⟩, subject) ∧
      subject.within = some "Door".toList) ∧
    (∃ subject, (Assembly.decided gateLines)[3]? = some (⟨8, 8, ["Shuts."]⟩, subject) ∧
      subject.within = none ∧ Assembly.isOwned subject.kind = true ∧
      2 ≤ (Assembly.classesIn gateLines).length ∧
      Assembly.ownerReports gateLines "Gate.luau" ⟨8, 8, ["Shuts."]⟩ =
        [.warning "Gate.luau" 8 Diagnostic.ambiguousOwner]) := by
  have opening : (Assembly.readBlocks gateLines)[1]? =
      some ⟨3, 4, ["@function Gate.open", "@within ~"]⟩ := by decide +kernel
  have shutting : (Assembly.readBlocks gateLines)[3]? = some ⟨8, 8, ["Shuts."]⟩ := by decide +kernel
  have given : Doc.Tag.within none ∉ Doc.tagsIn ["@function Gate.open", "@within ~"] := by
    decide +kernel
  have silent : Doc.Tag.within none ∉ Doc.tagsIn ["Shuts."] := by decide +kernel
  obtain ⟨each, -, -⟩ := owners_in_order gateLines "Gate.luau"
  obtain ⟨first, opened, openedBy⟩ := each 1 _ opening given
  obtain ⟨second, shut, shutBy⟩ := each 3 _ shutting silent
  have unowned : second.within = none ∧ Assembly.isOwned second.kind = true := by
    have known : (Assembly.decided gateLines)[3]?.map (fun pair =>
        (pair.2.within, Assembly.isOwned pair.2.kind)) = some (none, true) := by decide +kernel
    rw [shut] at known
    exact Prod.mk.inj (Option.some.inj known)
  refine ⟨opening, given, shutting, silent, ⟨first, opened, ?_⟩, second, shut, unowned.1,
    unowned.2, ?_⟩
  · rw [openedBy.owner]
    have source : Assembly.taggedOwner (Doc.tagsIn ["@function Gate.open", "@within ~"])
        (Assembly.declaredClasses ((Assembly.readBlocks gateLines).take 2)).getLast? =
          some "Door".toList := by decide +kernel
    rw [Assembly.ownerSources, source]
    rfl
  · rcases shutBy.missing unowned.2 unowned.1 with ⟨noClass, -⟩ | several
    · exact absurd noClass (by decide +kernel)
    · exact several

end LuauReference
