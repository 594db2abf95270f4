/-
This file reads single tags. A tag is a line that begins with an at sign and a name; the rest of the
line is its value. Reading a tag yields what it says, a value of one type, and applying that to a
record is a separate step, so that the two can be looked at apart.
-/

import LuauReference.Doc.Basic

namespace LuauReference

namespace Doc

/-! ### Member names -/

/-- The owner that stands for the class declared before. -/
def ownerPlaceholder : Text := "~"

/-- A name with the owner in front of it, and whether a colon stood between them. -/
structure MemberName where
  within : Option Text
  name : Text
  isMethod : Bool
  deriving DecidableEq, Repr

/-- Cuts a path at its last colon when no dot follows that, and else at its last dot. -/
def splitOwner (path : Text) : MemberName :=
  match Text.cutLast? ':' path with
  | some (owner, name) =>
    if List.elem '.' name then atDot path else ⟨some owner, name, true⟩
  | none => atDot path
where
  /-- Cuts a path at its last dot. -/
  atDot (path : Text) : MemberName :=
    match Text.cutLast? '.' path with
    | some (owner, name) => ⟨some owner, name, false⟩
    | none => ⟨none, path, false⟩

/-- Reads the name of a member. The placeholder owner is told by the head of the text, whatever the
rest holds. -/
def memberName (value : Text) : MemberName :=
  match Text.trim value with
  | [] => ⟨none, [], false⟩
  | '~' :: ':' :: name => ⟨some ownerPlaceholder, name, true⟩
  | '~' :: '.' :: name => ⟨some ownerPlaceholder, name, false⟩
  | path => splitOwner path

/-! ### Values -/

/-- A text unless it is empty. -/
def nonEmpty? (value : Text) : Option Text :=
  if value.isEmpty then none else some value

/-- The type and the description of a value that divides them by two hyphens. -/
def typeAndDescription (value : Text) : Text × Text :=
  match Text.cut? "--" value with
  | some (type, description) => (Text.trim type, Text.trim description)
  | none => (Text.trim value, [])

/-- An entry with a type and a description, under an optional name. -/
def entryOf (name : Option Text) (value : Text) : Entry :=
  let (type, description) := typeAndDescription value
  ⟨name, nonEmpty? type, (nonEmpty? description).toList⟩

/-- A field: its name, then its type and description. -/
def fieldOf (value : Text) : Field :=
  let (name, rest) := Text.headWord value
  let (type, description) := typeAndDescription rest
  ⟨name, nonEmpty? type, nonEmpty? description⟩

/-! ### Tags -/

/-- What a tag says. A declaration comes with the owner that its name gives. -/
inductive Tag
  | declare (declared : Declared) (owner : Option Text)
  | within (owner : Option Text)
  | field (field : Field)
  | param (entry : Entry)
  | returns (entry : Entry)
  | error (entry : Entry)
  | yields
  | label (value : Option Text)
  | category (value : Option Text)
  | event
  | callback
  | extends_ (value : Option Text)
  | unreleased
  | since (value : Option Text)
  | deprecated (deprecation : Deprecation)
  | realm (realm : Realm)
  | visibility (visibility : Visibility)
  | readonly
  | indexName (value : Option Text)
  | external (external : Option External)
  | inheritDoc (value : Option Text)
  | includes (value : Option Text)
  | snippet (value : Option Text)
  | alias_ (value : Option Text)
  deriving DecidableEq, Repr

/-- The declaration of a member whose name may carry its owner. -/
def declareMember (kind : Kind) (name : Text) (type : Option Text) (isMethod : Bool → Bool) : Tag :=
  let member := memberName name
  .declare ⟨kind, member.name, type, isMethod member.isMethod⟩ member.within

/-- A tag from its name and its value. Unknown names say nothing. -/
def Tag.read? (name value : Text) : Option Tag :=
  if name = "class" then some (.declare { kind := .class, name := value } none)
  else if name = "interface" then some (.declare { kind := .interface, name := value } none)
  else if name = "type" then
    let (head, rest) := Text.headWord value
    some (.declare { kind := .type, name := head, type := nonEmpty? rest } none)
  else if name = "prop" then
    let (head, rest) := Text.headWord value
    some (declareMember .property head (nonEmpty? rest) fun _ => false)
  else if name = "function" then some (declareMember .function value none id)
  else if name = "method" then some (declareMember .function value none fun _ => true)
  else if name = "constructor" then some (declareMember .constructor value none fun _ => false)
  else if name = "within" then some (.within (nonEmpty? value))
  else if name = "field" then some (.field (fieldOf value))
  else if name = "param" then
    let (head, rest) := Text.headWord value
    some (.param (entryOf (some head) rest))
  else if name = "return" then some (.returns (entryOf none value))
  else if name = "error" then some (.error (entryOf none value))
  else if name = "yields" then some .yields
  else if name = "tag" then some (.label (nonEmpty? value))
  else if name = "category" then some (.category (nonEmpty? value))
  else if name = "event" then some .event
  else if name = "callback" then some .callback
  else if name = "extends" then some (.extends_ (nonEmpty? value))
  else if name = "unreleased" then some .unreleased
  else if name = "since" then some (.since (nonEmpty? value))
  else if name = "deprecated" then
    let (version, description) := typeAndDescription value
    some (.deprecated ⟨nonEmpty? version, nonEmpty? description⟩)
  else if name = "server" then some (.realm .server)
  else if name = "client" then some (.realm .client)
  else if name = "plugin" then some (.realm .plugin)
  else if name = "private" then some (.visibility .hidden)
  else if name = "ignore" then some (.visibility .ignored)
  else if name = "readonly" then some .readonly
  else if name = "__index" then some (.indexName (nonEmpty? value))
  else if name = "external" then
    let (head, url) := Text.headWord value
    some (.external (if head.isEmpty || url.isEmpty then none else some ⟨head, url⟩))
  else if name = "inheritDoc" then some (.inheritDoc (nonEmpty? value))
  else if name = "include" then some (.includes (nonEmpty? value))
  else if name = "snippet" then some (.snippet (nonEmpty? value))
  else if name = "alias" then some (.alias_ (nonEmpty? value))
  else none

/-- The name and the value of a trimmed line that is a tag. A line whose value goes on after a line
feed is none. -/
def tagParts? : Text → Option (Text × Text)
  | '@' :: rest => do
    let (name, tail) ← Text.identifier? rest
    let value ← Text.restOfLine? (Text.trimStart tail)
    pure (name, Text.trim value)
  | _ => none

/-! ### Applying a tag -/

/-- The marks after a tag. The owner in a declared name counts only when no owner was given before;
of tags that set a value the last one counts. -/
def Tag.applyMarks (tag : Tag) (marks : Marks) : Marks :=
  match tag with
  | .declare _ owner =>
    if marks.within.isSome then marks else { marks with within := owner.bind nonEmpty? }
  | .within owner => { marks with within := owner }
  | .yields => { marks with yields := true }
  | .category value => { marks with categories := marks.categories ++ value.toList }
  | .event => { marks with event := true }
  | .callback => { marks with callback := true }
  | .extends_ value => { marks with extends_ := marks.extends_ ++ value.toList }
  | .unreleased => { marks with unreleased := true }
  | .since value => { marks with since := value }
  | .deprecated deprecation => { marks with deprecated := some deprecation }
  | .visibility level => { marks with visibility := some level }
  | .readonly => { marks with readonly := true }
  | .indexName value => { marks with indexName := value }
  | .inheritDoc value => { marks with inheritDoc := value }
  | .includes value => { marks with includes := marks.includes ++ value.toList }
  | .snippet value => { marks with snippets := marks.snippets ++ value.toList }
  | .alias_ value => { marks with aliases := marks.aliases ++ value.toList }
  | .field _ | .param _ | .returns _ | .error _ | .label _ | .realm _ | .external _ => marks

/-- The record after a tag. -/
def Tag.apply (tag : Tag) (record : Record) : Record :=
  let record := { record with marks := tag.applyMarks record.marks }
  match tag with
  | .declare declared _ => { record with declared := record.declared ++ [declared] }
  | .field item => { record with fields := record.fields ++ [item] }
  | .param entry => { record with params := record.params ++ [entry] }
  | .returns entry => { record with returns := record.returns ++ [entry] }
  | .error entry => { record with errors := record.errors ++ [entry] }
  | .label value => { record with labels := record.labels ++ value.toList }
  | .realm place => { record with realms := record.realms ++ [place] }
  | .external link => { record with externals := record.externals ++ link.toList }
  | _ => record

end Doc

end LuauReference
