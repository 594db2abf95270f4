/-
This file proves that a plan recovers the owners that were decided when the symbols were made. The
owner of a symbol and whether it is a method come from tags, declarations and the classes of a file,
and are then written into its qualified name; a plan reads them off again by other rules, at the
first colon or else at the last dot. The rules agree where the owner has no colon and the name has
neither mark, however owner and name came about.
-/

import LuauReference.Proofs.Page.Placement
import LuauReference.Proofs.Symbol.Assembly
import LuauReference.Proofs.Symbol.Qualified
import LuauReference.Proofs.Text.Identifier

namespace LuauReference

/-! ### Qualified names -/

/-- A qualified name is taken apart as it was put together. -/
theorem splitQualifiedName_qualifiedName {owner name : Text} (present : owner ≠ [])
    (ownerPlain : ':' ∉ owner) (namePlain : ':' ∉ name) (single : '.' ∉ name) (isMethod : Bool) :
    splitQualifiedName (qualifiedName (some owner) name isMethod) = (some owner, name, isMethod) :=
  (splitQualifiedName_qualifiedName_iff present isMethod).mpr
    ⟨ownerPlain, Or.inr ⟨namePlain, single⟩⟩

/-! ### What the blocks of a file document -/

namespace Assembly

/-- Whether it is known of a block what it documents. -/
def Subject.isKnown (subject : Subject) : Bool :=
  subject.kind.isSome && subject.name.isSome

/-- What the given records document, with the class declared last before them. -/
def subjectsFrom (lines : List Text) (classNames : List Text) :
    Option Text → List (Comment.Block × Doc.Record) → List Subject
  | _, [] => []
  | before, (block, record) :: rest =>
    let current := currentClass before record
    let record := resolvePlaceholder current record
    subjectOf record (declarationFor? lines block record) classNames ::
      subjectsFrom lines classNames current rest

/-- What the blocks of a file document, block by block, as far as it is known. -/
def subjects (lines : List Text) : List Subject :=
  let records := recordsOf lines
  let classNames := (records.flatMap fun (_, record) => classesOf record).eraseDups
  (subjectsFrom lines classNames none records).filter Subject.isKnown

/-- Whether a symbol is the one that is made for what a block documents. -/
structure IsSymbolOf (subject : Subject) (symbol : Symbol) : Prop where
  kind : subject.kind.map Doc.Kind.word = some symbol.kind
  name : subject.name = some symbol.name
  qualified : symbol.qualified = qualifiedName subject.within symbol.name subject.isMethod

/-- Whether a symbol is no field of another one. -/
def isOwn (symbol : Symbol) : Bool :=
  symbol.kind != "field".toList

/-- A block makes a symbol for what it documents when that is known, and else none; all its other
symbols are fields. -/
theorem blockSymbols_own (record : Doc.Record) (block : Comment.Block)
    (declaration : Option Declaration) (lines : List Text) (file : Text) (classNames : List Text) :
    List.Forall₂ IsSymbolOf ([subjectOf record declaration classNames].filter Subject.isKnown)
      ((blockSymbols record block declaration lines file classNames).1.filter isOwn) := by
  unfold blockSymbols
  dsimp only
  split
  · next kind name kindFound nameFound =>
    have known : (subjectOf record declaration classNames).isKnown = true := by
      rw [Subject.isKnown, kindFound, nameFound]
      rfl
    have own : kind.word ≠ "field".toList := by
      cases kind <;> decide
    have fields (location : Location) (visibility : Text) :
        (fieldSymbols kind name record declaration lines file location visibility).filter isOwn =
          [] := by
      refine List.filter_eq_nil_iff.mpr fun symbol member => ?_
      simp [isOwn, kind_of_mem_fieldSymbols member]
    rw [List.filter_cons_of_pos known, List.filter_cons_of_pos (p := isOwn) (bne_iff_ne.mpr own),
      fields]
    refine .cons ⟨?_, nameFound, rfl⟩ .nil
    rw [kindFound]
    rfl
  · next unknown =>
    have missing : (subjectOf record declaration classNames).isKnown ≠ true := by
      intro known
      rw [Subject.isKnown, Bool.and_eq_true, Option.isSome_iff_exists, Option.isSome_iff_exists]
        at known
      obtain ⟨⟨kind, kindFound⟩, name, nameFound⟩ := known
      exact unknown kind name kindFound nameFound
    rw [List.filter_cons_of_neg missing]
    exact .nil

theorem assembleRecords_own (lines : List Text) (file : Text) (classNames : List Text)
    (before : Option Text) (records : List (Comment.Block × Doc.Record)) :
    List.Forall₂ IsSymbolOf
      ((subjectsFrom lines classNames before records).filter Subject.isKnown)
      ((assembleRecords lines file classNames before records).1.filter isOwn) := by
  induction records generalizing before with
  | nil => exact .nil
  | cons pair rest inductionHypothesis =>
    obtain ⟨block, record⟩ := pair
    rw [subjectsFrom, assembleRecords]
    dsimp only
    rw [← List.singleton_append, List.filter_append, List.filter_append]
    exact List.rel_append (blockSymbols_own _ _ _ _ _ _) (inductionHypothesis _)

/-- The symbols of a file other than fields are those for what its blocks document, one for one. -/
theorem assemble_own (lines : List Text) (file : Text) :
    List.Forall₂ IsSymbolOf (subjects lines) ((assemble lines file).1.filter isOwn) :=
  assembleRecords_own lines file _ none _

end Assembly

/-! ### Owners in a plan -/

namespace Page

/-- Whether plans take a symbol for a member of an owner, and for a method or not: its owner and the
mark before its name say so, it is attached to the page of that owner when there is one and it is
shown, and a function that is not marked as something else stands in the section of methods when it
is one. -/
structure IsRecovered (symbol : Symbol) (owner : Text) (isMethod : Bool) : Prop where
  owned : ownerOf symbol = some owner
  separator : separatorOf symbol = some ':' ↔ isMethod = true
  attached : ∀ (test : Symbol → Bool) (includePrivate : Bool) (reference : Reference),
    ∀ page ∈ plan test includePrivate reference, page.name = owner →
      symbol ∈ reference.symbols → isVisible includePrivate symbol = true → symbol.kind ≠ "class" →
      symbol ∈ page.attached
  method : ∀ (test : Symbol → Bool), test = isSignal ∨ test = (fun _ => false) →
    symbol.kind = "function" → isEvent symbol = false → isCallback symbol = false →
      (bucketOf test symbol = some .method ↔ isMethod = true) ∧
      ∀ (includePrivate : Bool) (reference : Reference),
        ∀ page ∈ plan test includePrivate reference, page.name = owner →
          symbol ∈ reference.symbols → isVisible includePrivate symbol = true →
          (symbol ∈ page.symbolsIn .method ↔ isMethod = true)

section

variable {symbol : Symbol} {owner : Text} {isMethod : Bool}

/-- A shown symbol is attached to the page of its owner. -/
theorem mem_attached (owned : ownerOf symbol = some owner) {test : Symbol → Bool}
    {includePrivate : Bool} {reference : Reference} {page : ClassPage}
    (inside : page ∈ plan test includePrivate reference) (named : page.name = owner)
    (held : symbol ∈ reference.symbols) (visible : isVisible includePrivate symbol = true)
    (notClass : symbol.kind ≠ "class") : symbol ∈ page.attached := by
  obtain ⟨chosen, _, rfl⟩ := mem_plan.mp inside
  refine List.mem_filter.mpr ⟨List.mem_filter.mpr ⟨held, visible⟩, ?_⟩
  rw [Bool.and_eq_true, bne_iff_ne, decide_eq_true_eq]
  exact ⟨notClass, owned.trans (congrArg some named.symm)⟩

/-- A page shows in a section those of its symbols that belong there. -/
theorem mem_symbolsIn {test : Symbol → Bool} {includePrivate : Bool} {reference : Reference}
    {page : ClassPage} (inside : page ∈ plan test includePrivate reference) {bucket : Bucket} :
    symbol ∈ page.symbolsIn bucket ↔
      symbol ∈ page.attached ∧ bucketOf test symbol = some bucket := by
  obtain ⟨chosen, _, rfl⟩ := mem_plan.mp inside
  rw [symbolsIn_classPage, sectionSymbols, (Text.sortOn_perm _ _).mem_iff, List.mem_filter,
    decide_eq_true_eq]
  rfl

/-- A function that nothing else is said of is shown as a method when a colon stands before its
name. -/
theorem bucketOf_function {test : Symbol → Bool}
    (known : test = isSignal ∨ test = fun _ => false) (function : symbol.kind = "function")
    (noEvent : isEvent symbol = false) (noCallback : isCallback symbol = false) :
    bucketOf test symbol = some .method ↔ separatorOf symbol = some ':' := by
  have silent : test symbol = false := by
    rcases known with rfl | rfl
    · rw [isSignal, function, if_neg (by decide)]
    · rfl
  have plain : bucketOf test symbol =
      if separatorOf symbol = some ':' then some .method
      else if symbol.name = "new" ∧ separatorOf symbol = some '.' then some .constructor
      else some .function := by
    simp only [bucketOf, function, noEvent, silent, noCallback]
    simp
  rw [plain]
  split
  · next colon => exact iff_of_true rfl colon
  · next other =>
    split <;> exact iff_of_false (by decide) other

theorem isRecovered_of_split
    (split_ : splitQualifiedName symbol.fullName = (some owner, symbol.name, isMethod)) :
    IsRecovered symbol owner isMethod := by
  have owned : ownerOf symbol = some owner := by rw [ownerOf, split_]
  have separator : separatorOf symbol = some ':' ↔ isMethod = true := by
    rw [separatorOf, split_]
    cases isMethod <;> simp
  refine ⟨owned, separator,
    fun test includePrivate reference page inside named held visible notClass =>
    mem_attached owned inside named held visible notClass,
      fun test known function noEvent noCallback => ?_⟩
  have bucket := (bucketOf_function known function noEvent noCallback).trans separator
  refine ⟨bucket, fun includePrivate reference page inside named held visible => ?_⟩
  have notClass : symbol.kind ≠ "class" := by
    rw [function]
    decide
  rw [mem_symbolsIn inside, bucket]
  exact and_iff_right (mem_attached owned inside named held visible notClass)

end

/-- Plans recover the owners that were decided when the symbols of a file were made. The symbols
that are no fields are made for what the blocks document, one for one, and where the owner is a text
without a colon and the name has neither a colon nor a dot, every plan takes the symbol for a member
of that owner, and for a method exactly when it was decided to be one. -/
theorem owners_recovered (lines : List Text) (file : Text) :
    List.Forall₂ (fun subject symbol => Assembly.IsSymbolOf subject symbol ∧
        ∀ owner, subject.within = some owner → owner ≠ [] → ':' ∉ owner →
          ':' ∉ symbol.name → '.' ∉ symbol.name → IsRecovered symbol owner subject.isMethod)
      (Assembly.subjects lines) ((assemble lines file).1.filter Assembly.isOwn) := by
  refine (Assembly.assemble_own lines file).imp fun subject symbol made => ⟨made, ?_⟩
  intro owner decided present ownerPlain namePlain single
  refine isRecovered_of_split ?_
  have split_ :=
    splitQualifiedName_qualifiedName present ownerPlain namePlain single subject.isMethod
  rw [← decided, ← made.qualified] at split_
  have qualified : ¬ symbol.qualified.isEmpty = true := by
    rw [made.qualified, decided, List.isEmpty_iff, qualifiedName,
      if_neg (mt List.isEmpty_iff.mp present)]
    exact List.append_ne_nil_of_left_ne_nil present _
  rw [Symbol.fullName, if_neg qualified, split_, decided]

/-- A class whose name has a dot, a method that belongs to the class declared last, and a
constructor. -/
def socketLines : List Text :=
  ["--- @class Net.Socket", "", "--- Reads.", "--- @method read", "--- @within ~", "", "--- Opens.",
    "--- @within Net.Socket", "function Socket.new(host)"]

/-- The reference of these lines. -/
def socketReference : Reference where
  generatorVersion := "1"
  modules := [⟨"Socket", "Socket.luau", [], (assemble socketLines "Socket.luau").1⟩]

theorem owners_recovered_socket :
    ∃ subject ∈ Assembly.subjects socketLines, ∃ symbol ∈ socketReference.symbols,
      subject.within = some "Net.Socket".toList ∧ subject.isMethod = true ∧
      symbol.name = "read" ∧ symbol.qualified = "Net.Socket:read" ∧
      ownerOf symbol = some "Net.Socket".toList ∧
      ∃ page ∈ plan isSignal false socketReference, page.name = "Net.Socket" ∧
        symbol ∈ page.attached ∧ symbol ∈ page.symbolsIn .method := by
  have facts : ∃ (first : 1 < (Assembly.subjects socketLines).length)
      (second : 1 < ((assemble socketLines "Socket.luau").1.filter Assembly.isOwn).length),
      let subject := (Assembly.subjects socketLines).get ⟨1, first⟩
      let symbol := ((assemble socketLines "Socket.luau").1.filter Assembly.isOwn).get ⟨1, second⟩
      subject.within = some "Net.Socket".toList ∧ subject.isMethod = true ∧ symbol.name = "read" ∧
        symbol.qualified = "Net.Socket:read" ∧ symbol.kind = "function" ∧
        isEvent symbol = false ∧ isCallback symbol = false ∧ isVisible false symbol = true := by
    decide +kernel
  obtain ⟨first, second, within, isMethod, named, qualified, function, noEvent, noCallback,
    visible⟩ :=
    facts
  obtain ⟨_, each⟩ := List.forall₂_iff_get.mp (owners_recovered socketLines "Socket.luau")
  let symbol := ((assemble socketLines "Socket.luau").1.filter Assembly.isOwn).get ⟨1, second⟩
  have recovered : IsRecovered symbol "Net.Socket" _ :=
    (each 1 first second).2 _ within (by decide) (by decide) (by rw [named]; decide)
      (by rw [named]; decide)
  have held : symbol ∈ socketReference.symbols :=
    List.mem_append_left _ (List.mem_filter.mp (List.get_mem _ ⟨1, second⟩)).1
  have planned :
      "Net.Socket".toList ∈ (plan isSignal false socketReference).map ClassPage.name := by
    rw [mem_names_plan]
    decide +kernel
  obtain ⟨page, inside, title⟩ := List.mem_map.mp planned
  have attached : symbol ∈ page.attached :=
    recovered.attached _ _ _ page inside title held visible (by rw [function]; decide)
  have shown :=
    (recovered.method isSignal (Or.inl rfl) function noEvent noCallback).2 _ _ page inside
    title held visible
  exact ⟨_, List.get_mem _ ⟨1, first⟩, symbol, held, within, isMethod, named, qualified,
    recovered.owned, page, inside, title, attached, shown.mpr isMethod⟩

end Page

end LuauReference
