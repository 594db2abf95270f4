/-
This file proves that tags of different groups may stand in any order. The record falls into parts,
and a tag changes one part and looks at no other, so a part is made up by the tags for it alone, in
their order. The groups are told by names: declarations and the owner share a part, since a
declaration looks at the owner, and so do the marks for one visibility and those for where something
runs. Lines that continue an entry stay with their tag, and the width by which a block is moved to
the left does not depend on the order of its lines.
-/

import LuauReference.Proofs.Doc.Place
import LuauReference.Symbol.Assembly

namespace LuauReference

namespace Doc

/-! ### Parts of a record -/

/-- The parts of a record that different groups of tags make up. -/
inductive Part
  | declared
  | fields
  | params
  | returns
  | errors
  | labels
  | realms
  | externals
  | yields
  | readonly
  | visibility
  | since
  | unreleased
  | deprecated
  | indexName
  | inheritDoc
  | includes
  | snippets
  | aliases
  | event
  | callback
  | extends_
  | categories
  deriving DecidableEq, Repr

/-- The part that a tag changes. -/
def Tag.part : Tag → Part
  | .declare .. | .within _ => .declared
  | .field _ => .fields
  | .param _ => .params
  | .returns _ => .returns
  | .error _ => .errors
  | .label _ => .labels
  | .realm _ => .realms
  | .external _ => .externals
  | .yields => .yields
  | .readonly => .readonly
  | .visibility _ => .visibility
  | .since _ => .since
  | .unreleased => .unreleased
  | .deprecated _ => .deprecated
  | .indexName _ => .indexName
  | .inheritDoc _ => .inheritDoc
  | .includes _ => .includes
  | .snippet _ => .snippets
  | .alias_ _ => .aliases
  | .event => .event
  | .callback => .callback
  | .extends_ _ => .extends_
  | .category _ => .categories

/-- A record that holds one part of another and nothing else. -/
def Record.restrict (record : Record) : Part → Record
  | .declared => { declared := record.declared, marks := { within := record.marks.within } }
  | .fields => { fields := record.fields }
  | .params => { params := record.params }
  | .returns => { returns := record.returns }
  | .errors => { errors := record.errors }
  | .labels => { labels := record.labels }
  | .realms => { realms := record.realms }
  | .externals => { externals := record.externals }
  | .yields => { marks := { yields := record.marks.yields } }
  | .readonly => { marks := { readonly := record.marks.readonly } }
  | .visibility => { marks := { visibility := record.marks.visibility } }
  | .since => { marks := { since := record.marks.since } }
  | .unreleased => { marks := { unreleased := record.marks.unreleased } }
  | .deprecated => { marks := { deprecated := record.marks.deprecated } }
  | .indexName => { marks := { indexName := record.marks.indexName } }
  | .inheritDoc => { marks := { inheritDoc := record.marks.inheritDoc } }
  | .includes => { marks := { includes := record.marks.includes } }
  | .snippets => { marks := { snippets := record.marks.snippets } }
  | .aliases => { marks := { aliases := record.marks.aliases } }
  | .event => { marks := { event := record.marks.event } }
  | .callback => { marks := { callback := record.marks.callback } }
  | .extends_ => { marks := { extends_ := record.marks.extends_ } }
  | .categories => { marks := { categories := record.marks.categories } }

/-- The description and the parts of a record are all of it. -/
theorem Record.eq_of_restrict {first second : Record}
    (described : first.description = second.description)
    (same : ∀ part, first.restrict part = second.restrict part) : first = second := by
  have field {Value : Type} (get : Record → Value) (part : Part) :
      get (first.restrict part) = get (second.restrict part) := congrArg get (same part)
  obtain ⟨description, declared, fields, params, returns, errors, labels, realms, externals,
    marks⟩ := first
  obtain ⟨_, _, _, _, _, _, _, _, _, others⟩ := second
  have marked : marks = others := by
    obtain ⟨⟩ := marks
    obtain ⟨⟩ := others
    rw [Marks.mk.injEq]
    exact ⟨field (·.marks.within) .declared, field (·.marks.yields) .yields,
      field (·.marks.readonly) .readonly, field (·.marks.visibility) .visibility,
      field (·.marks.since) .since, field (·.marks.unreleased) .unreleased,
      field (·.marks.deprecated) .deprecated, field (·.marks.indexName) .indexName,
      field (·.marks.inheritDoc) .inheritDoc, field (·.marks.includes) .includes,
      field (·.marks.snippets) .snippets, field (·.marks.aliases) .aliases,
      field (·.marks.event) .event, field (·.marks.callback) .callback,
      field (·.marks.extends_) .extends_, field (·.marks.categories) .categories⟩
  rw [Record.mk.injEq]
  exact ⟨described, field Record.declared .declared, field Record.fields .fields,
    field Record.params .params, field Record.returns .returns, field Record.errors .errors,
    field Record.labels .labels, field Record.realms .realms, field Record.externals .externals,
    marked⟩

/-! ### A tag changes one part -/

namespace Tag

/-- A declaration sets the owner only where none is set. -/
theorem apply_declare (declared : Declared) (owner : Option Text) (record : Record) :
    (Tag.declare declared owner).apply record =
      { record with
        declared := record.declared ++ [declared]
        marks := { record.marks with
          within := if record.marks.within.isSome then record.marks.within
            else owner.bind nonEmpty? } } := by
  unfold apply applyMarks
  dsimp only
  split <;> rfl

/-- A tag leaves the other parts as they are. -/
theorem restrict_apply_of_ne {tag : Tag} {part : Part} (other : tag.part ≠ part) (record : Record) :
    (tag.apply record).restrict part = record.restrict part := by
  cases tag with
  | declare declared owner =>
    rw [apply_declare]
    cases part <;> first | rfl | exact absurd rfl other
  | _ => cases part <;> first | rfl | exact absurd rfl other

/-- A tag looks at no part but its own. -/
theorem restrict_apply_part (tag : Tag) (record : Record) :
    (tag.apply record).restrict tag.part = tag.apply (record.restrict tag.part) := by
  cases tag with
  | declare declared owner =>
    rw [apply_declare, apply_declare]
    rfl
  | _ => rfl

theorem description_apply (tag : Tag) (record : Record) :
    (tag.apply record).description = record.description := by
  cases tag <;> rfl

end Tag

/-- A part of a record is made up by the tags for it. -/
theorem restrict_applyAll (tags : List Tag) (part : Part) :
    (applyAll tags).restrict part = applyAll (tags.filter (·.part = part)) := by
  induction tags using List.reverseRecOn with
  | nil => cases part <;> rfl
  | append_singleton tags tag inductionHypothesis =>
    rw [applyAll_concat, List.filter_append]
    by_cases own : tag.part = part
    · have kept : [tag].filter (·.part = part) = [tag] :=
        List.filter_cons_of_pos (decide_eq_true own)
      subst own
      rw [kept, applyAll_concat, Tag.restrict_apply_part, inductionHypothesis]
    · have dropped : [tag].filter (·.part = part) = [] :=
        List.filter_cons_of_neg (mt of_decide_eq_true own)
      rw [dropped, List.append_nil, Tag.restrict_apply_of_ne own, inductionHypothesis]

theorem description_applyAll (tags : List Tag) : (applyAll tags).description = [] := by
  induction tags using List.reverseRecOn with
  | nil => rfl
  | append_singleton tags tag inductionHypothesis =>
    rw [applyAll_concat, Tag.description_apply, inductionHypothesis]

/-- Tags that stand in the same order for each part make up the same record. -/
theorem applyAll_of_filter_eq {first second : List Tag}
    (same : ∀ part : Part, first.filter (·.part = part) = second.filter (·.part = part)) :
    applyAll first = applyAll second := by
  refine Record.eq_of_restrict ?_ fun part => ?_
  · rw [description_applyAll, description_applyAll]
  · rw [restrict_applyAll, restrict_applyAll, same]

/-! ### Groups of names -/

/-- The groups of tags within which the order counts. -/
inductive Group
  | declaration
  | realm
  | visibility
  | single (name : Text)
  deriving DecidableEq, Repr

/-- The tags that declare what is documented, and the one for its owner. -/
def declarationNames : List Text :=
  ["class", "interface", "type", "prop", "function", "method", "constructor", "within"]

/-- The tags that say where something runs. -/
def realmNames : List Text :=
  ["server", "client", "plugin"]

/-- The tags that set the visibility. -/
def visibilityNames : List Text :=
  ["private", "ignore"]

/-- The group of a tag, by its name. -/
def groupOf (name : Text) : Group :=
  if declarationNames.contains name then .declaration
  else if realmNames.contains name then .realm
  else if visibilityNames.contains name then .visibility
  else .single name

/-- The group of tags that changes a part. -/
def Part.group : Part → Group
  | .declared => .declaration
  | .realms => .realm
  | .visibility => .visibility
  | .fields => .single "field"
  | .params => .single "param"
  | .returns => .single "return"
  | .errors => .single "error"
  | .labels => .single "tag"
  | .externals => .single "external"
  | .yields => .single "yields"
  | .readonly => .single "readonly"
  | .since => .single "since"
  | .unreleased => .single "unreleased"
  | .deprecated => .single "deprecated"
  | .indexName => .single "__index"
  | .inheritDoc => .single "inheritDoc"
  | .includes => .single "include"
  | .snippets => .single "snippet"
  | .aliases => .single "alias"
  | .event => .single "event"
  | .callback => .single "callback"
  | .extends_ => .single "extends"
  | .categories => .single "category"

/-- The group of a name is that of the part which its tag changes. -/
theorem groupOf_of_read? {name value : Text} {tag : Tag} (found : Tag.read? name value = some tag) :
    groupOf name = tag.part.group := by
  revert found
  fun_cases Tag.read? name value <;> rintro ⟨⟩ <;> subst_vars <;> rfl

/-! ### Clauses -/

/-- A tag line and the lines after it that continue its entry. -/
structure Clause where
  tag : Text
  more : List Text
  deriving DecidableEq, Repr

namespace Clause

/-- The lines of a clause. -/
def lines (clause : Clause) : List Text :=
  clause.tag :: clause.more

/-- A clause that is moved to the left. -/
def dropped (width : Nat) (clause : Clause) : Clause :=
  ⟨clause.tag.drop width, clause.more.map (List.drop width)⟩

/-- Whether a clause is a tag, with lines after it that continue the entry of that tag once they are
moved to the left. No line of it is a fence. -/
structure IsUnit (width : Nat) (clause : Clause) : Prop where
  tagged : isTagLine clause.tag = true
  entry : clause.more ≠ [] → isEntryTag clause.tag = true
  unfenced : ∀ line ∈ clause.more, isFence line = false
  goesOn : ∀ line ∈ clause.more, isContinuation (line.drop width) = true

/-- The group of a clause, if its first line has the form of a tag. -/
def group? (clause : Clause) : Option Group :=
  (tagParts? (Text.trim clause.tag)).map fun (name, _) => groupOf name

/-- What a clause adds to the record. -/
def said (width : Nat) (clause : Clause) : Option Tag :=
  (tagOf? clause.tag).map
    (Tag.continuedBy (clause.more.map fun line => continuation (line.drop width)))

theorem group?_of_said {width : Nat} {clause : Clause} {tag : Tag}
    (found : clause.said width = some tag) : clause.group? = some tag.part.group := by
  obtain ⟨own, read, rfl⟩ := Option.map_eq_some_iff.mp found
  obtain ⟨⟨name, value⟩, parts, known⟩ := Option.bind_eq_some_iff.mp read
  have part : (own.continuedBy (clause.more.map fun line => continuation (line.drop width))).part =
      own.part := by
    cases own <;> rfl
  rw [group?, parts, part]
  exact congrArg some (groupOf_of_read? known)

end Clause

/-- The lines of all clauses. -/
def linesOf (clauses : List Clause) : List Text :=
  clauses.flatMap Clause.lines

theorem linesOf_cons (clause : Clause) (clauses : List Clause) :
    linesOf (clause :: clauses) = clause.lines ++ linesOf clauses :=
  List.flatMap_cons

/-! ### Reading clauses -/

theorem not_isFence_of_isTagLine {line : Text} (tagged : isTagLine line = true) :
    isFence line = false := by
  obtain ⟨rest, trimmed⟩ := exists_of_isTagLine tagged
  rw [isFence, trimmed]
  rfl

/-- Lines that continue the entry of a tag are read with it. -/
theorem Reading.foldl_continues {tag : Tag} {place : Continuing}
    (opens : tag.continuing? = some place) {more : List Text}
    (unfenced : ∀ line ∈ more, isFence line = false)
    (goesOn : ∀ line ∈ more, isContinuation line = true) (record : Record) :
    more.foldl Reading.next ⟨tag.apply record, false, some place⟩ =
      ⟨(tag.continuedBy (more.map continuation)).apply record, false, some place⟩ := by
  induction more generalizing tag with
  | nil => rw [List.map_nil, Tag.continuedBy_nil, List.foldl_nil]
  | cons line more inductionHypothesis =>
    obtain ⟨noFence, noFences⟩ := List.forall_mem_cons.mp unfenced
    obtain ⟨shaped, others⟩ := List.forall_mem_cons.mp goesOn
    have outside : isFencedAfter false line = false := by rw [isFencedAfter, noFence]; rfl
    have step : Reading.next ⟨tag.apply record, false, some place⟩ line = _ :=
      next_of_continues outside rfl shaped
    rw [List.foldl_cons, step, Record.extend_apply opens,
      inductionHypothesis ((tag.continuing?_continuedBy _).trans opens) noFences others,
      Tag.continuedBy_continuedBy]
    rfl

/-- A clause is read as its tag, whatever was open before. -/
theorem Reading.foldl_clause {width : Nat} {clause : Clause} (unit : clause.IsUnit width)
    (kept : ∀ line ∈ clause.lines, Text.trim (line.drop width) = Text.trim line)
    {reading : Reading} (outside : reading.inFence = false) :
    ∃ continuing, (clause.dropped width).lines.foldl Reading.next reading =
      ⟨(clause.said width).elim reading.record (·.apply reading.record), false, continuing⟩ := by
  obtain ⟨tagKept, moreKept⟩ := List.forall_mem_cons.mp kept
  have tagged : isTagLine (clause.tag.drop width) = true := by
    rw [isTagLine, tagKept]
    exact unit.tagged
  have read : tagOf? (clause.tag.drop width) = tagOf? clause.tag := by rw [tagOf?, tagKept, tagOf?]
  have unfenced : isFencedAfter reading.inFence (clause.tag.drop width) = false := by
    rw [isFencedAfter, not_isFence_of_isTagLine tagged, outside]
    rfl
  rw [Clause.dropped, Clause.lines, List.foldl_cons, next_of_isTagLine unfenced tagged, read,
    Clause.said]
  by_cases nothing : clause.more = []
  · rw [nothing, List.map_nil, List.map_nil, Tag.map_continuedBy_nil]
    exact ⟨_, rfl⟩
  · have opens := unit.entry nothing
    rw [isEntryTag_eq] at opens
    obtain ⟨place, kind⟩ := Option.isSome_iff_exists.mp opens
    obtain ⟨tag, found, continuing⟩ := Option.bind_eq_some_iff.mp kind
    refine ⟨some place, ?_⟩
    rw [found, Option.elim_some, Option.bind_some, continuing, foldl_continues continuing,
      List.map_map]
    · rfl
    · intro line member
      obtain ⟨whole, inside, rfl⟩ := List.mem_map.mp member
      rw [isFence, moreKept whole inside]
      exact unit.unfenced whole inside
    · intro line member
      obtain ⟨whole, inside, rfl⟩ := List.mem_map.mp member
      exact unit.goesOn whole inside

/-- Clauses are read as their tags. -/
theorem Reading.foldl_clauses {width : Nat} {clauses : List Clause}
    (units : ∀ clause ∈ clauses, clause.IsUnit width)
    (kept : ∀ line ∈ linesOf clauses, Text.trim (line.drop width) = Text.trim line)
    {reading : Reading} (outside : reading.inFence = false) :
    (((linesOf clauses).map (List.drop width)).foldl Reading.next reading).record =
      (clauses.filterMap (Clause.said width)).foldl (fun record tag => tag.apply record)
        reading.record := by
  induction clauses generalizing reading with
  | nil => rfl
  | cons clause clauses inductionHypothesis =>
    obtain ⟨unit, others⟩ := List.forall_mem_cons.mp units
    rw [linesOf_cons] at kept
    obtain ⟨here, later⟩ := List.forall_mem_append.mp kept
    obtain ⟨continuing, read⟩ := foldl_clause unit here outside
    have moved : clause.lines.map (List.drop width) = (clause.dropped width).lines := rfl
    rw [linesOf_cons, List.map_append, List.foldl_append, moved, read,
      inductionHypothesis others later rfl, List.filterMap_cons]
    cases clause.said width <;> rfl

theorem read_linesOf {clauses : List Clause}
    (units : ∀ clause ∈ clauses, clause.IsUnit (Comment.sharedIndent (linesOf clauses))) :
    read (linesOf clauses) =
      applyAll (clauses.filterMap (Clause.said (Comment.sharedIndent (linesOf clauses)))) :=
  Reading.foldl_clauses units (fun _ member => Comment.trim_drop_sharedIndent member) rfl

/-! ### Rearrangement -/

/-- The tags for a part come from the clauses of its group. -/
theorem filter_said (width : Nat) (clauses : List Clause) (part : Part) :
    (clauses.filterMap (Clause.said width)).filter (·.part = part) =
      ((clauses.filter (·.group? = some part.group)).filterMap (Clause.said width)).filter
        (·.part = part) := by
  rw [List.filterMap_filter, List.filter_filterMap, List.filter_filterMap]
  refine List.filterMap_congr fun clause _ => ?_
  split
  · rfl
  · next other =>
    rw [Option.filter_none, Option.filter_eq_none_iff]
    intro tag found same
    rw [decide_eq_true_eq] at other same
    exact other (same ▸ Clause.group?_of_said found)

/-- Clauses may stand in any order in which those of each group follow one another as before. -/
theorem read_of_rearranged {clauses others : List Clause}
    (units : ∀ clause ∈ clauses, clause.IsUnit (Comment.sharedIndent (linesOf clauses)))
    (perm : others.Perm clauses)
    (kept : ∀ group : Group, others.filter (·.group? = some group) =
      clauses.filter (·.group? = some group)) :
    read (linesOf others) = read (linesOf clauses) ∧
      Assembly.docsOf (read (linesOf others)) = Assembly.docsOf (read (linesOf clauses)) := by
  have width : Comment.sharedIndent (linesOf others) = Comment.sharedIndent (linesOf clauses) :=
    Comment.sharedIndent_of_perm (perm.flatMap_right _)
  have same : read (linesOf others) = read (linesOf clauses) := by
    rw [read_linesOf units, read_linesOf, width]
    · refine applyAll_of_filter_eq fun part => (filter_said _ others part).trans ?_
      rw [kept, ← filter_said]
    · intro clause member
      rw [width]
      exact units clause (perm.mem_iff.mp member)
  exact ⟨same, congrArg Assembly.docsOf same⟩

/-- A parameter with two lines that continue it. -/
def sampleParam : Clause :=
  ⟨"@param key string -- what opens it", ["  and what", "\tcloses it"]⟩

/-- A method of the class that is documented. -/
def sampleMethod : Clause :=
  ⟨"@method ~:open", []⟩

/-- An owner, which counts for more than the one in the name of a method before it. -/
def sampleOwner : Clause :=
  ⟨"@within Door", []⟩

def sampleClauses : List Clause :=
  [sampleParam, sampleMethod, sampleOwner]

def sampleRearranged : List Clause :=
  [sampleMethod, sampleOwner, sampleParam]

theorem isUnit_sampleClauses :
    ∀ clause ∈ sampleClauses, clause.IsUnit (Comment.sharedIndent (linesOf sampleClauses)) := by
  have tags : ∀ clause ∈ sampleClauses, isTagLine clause.tag = true ∧
      (clause.more ≠ [] → isEntryTag clause.tag = true) ∧
      (∀ line ∈ clause.more, isFence line = false) ∧
      ∀ line ∈ clause.more,
        isContinuation (line.drop (Comment.sharedIndent (linesOf sampleClauses))) = true := by
    decide
  intro clause member
  obtain ⟨tagged, entry, unfenced, goesOn⟩ := tags clause member
  exact ⟨tagged, entry, unfenced, goesOn⟩

theorem perm_sampleRearranged : sampleRearranged.Perm sampleClauses :=
  show ([sampleMethod, sampleOwner] ++ [sampleParam]).Perm
    ([sampleParam] ++ [sampleMethod, sampleOwner])
    from List.perm_append_comm

theorem filter_sampleRearranged (group : Group) :
    sampleRearranged.filter (·.group? = some group) = sampleClauses.filter
      (·.group? = some group) := by
  have param : sampleParam.group? = some (.single "param") := by decide
  have method : sampleMethod.group? = some .declaration := by decide
  have owner : sampleOwner.group? = some .declaration := by decide
  simp only
    [sampleRearranged, sampleClauses, List.filter_cons, List.filter_nil, param, method, owner,
    Option.some.injEq, decide_eq_true_eq]
  by_cases own : Group.single "param" = group
  · subst own
    simp only [reduceCtorEq, if_false, if_true]
  · simp only [if_neg own]

theorem read_of_rearranged_sample :
    (∀ clause ∈ sampleClauses, clause.IsUnit (Comment.sharedIndent (linesOf sampleClauses))) ∧
      sampleRearranged.Perm sampleClauses ∧
      (∀ group : Group, sampleRearranged.filter (·.group? = some group) =
        sampleClauses.filter (·.group? = some group)) ∧
      read (linesOf sampleRearranged) = read (linesOf sampleClauses) ∧
      Assembly.docsOf (read (linesOf sampleRearranged)) =
        Assembly.docsOf (read (linesOf sampleClauses)) :=
  ⟨isUnit_sampleClauses, perm_sampleRearranged, filter_sampleRearranged,
    read_of_rearranged isUnit_sampleClauses perm_sampleRearranged filter_sampleRearranged⟩

end Doc

end LuauReference
