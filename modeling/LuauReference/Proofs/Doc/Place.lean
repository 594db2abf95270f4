/-
This file proves that every line of a documentation block goes to exactly one place, and that the
place is told by positions alone. A line belongs to the entry of a tag further up when it and all
lines after the tag have the form of continuations outside of fenced code; any other line outside of
fenced code is a tag or a field if it begins like one, and the rest is the description. The reader
instead carries along whether a fence is open and which list of entries goes on. The induction adds
lines at the end: then no line in front changes its place, and the state of the reader is what these
positions say of the next line.
-/

import LuauReference.Proofs.Doc.Line
import Mathlib.Data.List.GetD
import Mathlib.Data.List.Induction

namespace LuauReference

namespace Doc

/-! ### Positions -/

/-- The line at a position of a block. -/
def lineAt (lines : List Text) (position : Nat) : Text :=
  lines.getD position []

/-- Whether a position is in fenced code: the fences up to it and with it are odd in number. -/
def isFenced (lines : List Text) (position : Nat) : Bool :=
  (lines.take (position + 1)).countP isFence % 2 == 1

/-- The names of the tags whose entry can go on with further lines. -/
def entryNames : List Text :=
  ["param", "return", "error"]

/-- Whether a line is a tag whose entry can go on with further lines. -/
def isEntryTag (line : Text) : Bool :=
  match tagParts? (Text.trim line) with
  | some (name, _) => entryNames.contains name
  | none => false

/-- Whether the line at a position goes on with the entry that the tag at an earlier one opened. -/
def Continues (lines : List Text) (opened position : Nat) : Prop :=
  opened < position ∧ isFenced lines opened = false ∧ isEntryTag (lineAt lines opened) = true ∧
    ∀ between ≤ position, opened < between →
      isFenced lines between = false ∧ isContinuation (lineAt lines between) = true

instance (lines : List Text) (opened position : Nat) :
    Decidable (Continues lines opened position) :=
  inferInstanceAs (Decidable (_ ∧ _ ∧ _ ∧ ∀ between ≤ position, _))

/-- Where a line goes. -/
inductive Place
  | entry (opened : Nat)
  | tag
  | field
  | description
  deriving DecidableEq, Repr

/-- Where the line at a position goes. -/
def placeOf (lines : List Text) (position : Nat) : Place :=
  match (List.range position).find? fun opened => Continues lines opened position with
  | some opened => .entry opened
  | none =>
    if isFenced lines position then .description
    else if isTagLine (lineAt lines position) then .tag
    else if isFieldLine (lineAt lines position) then .field
    else .description

/-- The positions of the lines that go to a place. -/
def positionsOf (lines : List Text) (place : Place) : List Nat :=
  (List.range lines.length).filter (placeOf lines · = place)

/-- What the lines that go to an entry add to it. -/
def continuations (lines : List Text) (opened : Nat) : List Text :=
  (positionsOf lines (.entry opened)).map fun position => continuation (lineAt lines position)

/-- What the line at a position adds to the record, with the lines that go to its entry. Fields are
added like the tag for fields. -/
def saidAt (lines : List Text) (position : Nat) : Option Tag :=
  match placeOf lines position with
  | .tag => (tagOf? (lineAt lines position)).map (Tag.continuedBy (continuations lines position))
  | .field => some (.field (fieldOfLine (lineAt lines position)))
  | .entry _ | .description => none

/-- What all lines of a block add to the record, in order. -/
def said (lines : List Text) : List Tag :=
  (List.range lines.length).filterMap (saidAt lines)

/-- The lines of a block that describe what it documents. -/
def describing (lines : List Text) : List Text :=
  (positionsOf lines .description).map fun position => Text.trimEnd (lineAt lines position)

/-- The record of a block, told by the positions of its lines. -/
def recordOf (lines : List Text) : Record :=
  (applyAll (said lines)).withDescription (describing lines)

/-! ### Tags that open entries -/

theorem isTagLine_of_tagParts? {line : Text} {parts : Text × Text}
    (found : tagParts? (Text.trim line) = some parts) : isTagLine line = true := by
  rw [isTagLine, beq_iff_eq]
  cases trimmed : Text.trim line with
  | nil =>
    rw [trimmed] at found
    cases found
  | cons c rest =>
    rw [trimmed] at found
    unfold tagParts? at found
    split at found
    · next same => rw [(List.cons.inj same).1, List.head?_cons]
    · cases found

theorem tagOf?_eq_none {line : Text} (untagged : isTagLine line = false) : tagOf? line = none := by
  rw [tagOf?]
  cases found : tagParts? (Text.trim line) with
  | none => rfl
  | some parts => cases untagged.symm.trans (isTagLine_of_tagParts? found)

theorem isTagLine_of_isEntryTag {line : Text} (opens : isEntryTag line = true) :
    isTagLine line = true := by
  rw [isEntryTag] at opens
  split at opens
  · next found => exact isTagLine_of_tagParts? found
  · cases opens

/-- The names of the tags whose entry can go on are told by the tags that they are read as. -/
theorem isSome_continuing?_read? (name value : Text) :
    ((Tag.read? name value).bind Tag.continuing?).isSome = entryNames.contains name := by
  -- The name of an unknown tag is left open; it differs from all known ones.
  fun_cases Tag.read? name value <;> first
    | subst_vars; rfl
    | simp_all [entryNames]

theorem isEntryTag_eq (line : Text) :
    isEntryTag line = ((tagOf? line).bind Tag.continuing?).isSome := by
  rw [isEntryTag, tagOf?]
  cases tagParts? (Text.trim line) with
  | none => rfl
  | some parts => exact (isSome_continuing?_read? parts.1 parts.2).symm

/-! ### Lines behind others -/

section

variable (lines : List Text) (line : Text) {position : Nat}

theorem lineAt_concat (within : position < lines.length) :
    lineAt (lines ++ [line]) position = lineAt lines position :=
  List.getD_append lines [line] [] position within

theorem lineAt_length : lineAt (lines ++ [line]) lines.length = line := by
  rw [lineAt, List.getD_append_right _ _ _ _ (Nat.le_refl _), Nat.sub_self]
  rfl

theorem isFenced_concat (within : position < lines.length) :
    isFenced (lines ++ [line]) position = isFenced lines position := by
  rw [isFenced, isFenced, List.take_append_of_le_length within]

/-- A fence changes whether the fences so far are odd in number. -/
theorem odd_fences_concat : ((lines ++ [line]).countP isFence % 2 == 1) =
    isFencedAfter (lines.countP isFence % 2 == 1) line := by
  rw [List.countP_append, List.countP_singleton, isFencedAfter]
  split
  · rcases Nat.mod_two_eq_zero_or_one (lines.countP isFence) with even | odd
    · rw [even, Nat.add_mod, even]; rfl
    · rw [odd, Nat.add_mod, odd]; rfl
  · rfl

theorem isFenced_length : isFenced (lines ++ [line]) lines.length =
    isFencedAfter (lines.countP isFence % 2 == 1) line := by
  have whole : (lines ++ [line]).take (lines.length + 1) = lines ++ [line] :=
    List.take_of_length_le (by rw [List.length_append, List.length_singleton])
  rw [isFenced, whole, odd_fences_concat]

theorem continues_concat (within : position < lines.length) (opened : Nat) :
    Continues (lines ++ [line]) opened position ↔ Continues lines opened position := by
  refine and_congr_right fun before => ?_
  have opens : opened < lines.length := Nat.lt_trans before within
  rw [isFenced_concat lines line opens, lineAt_concat lines line opens]
  refine and_congr_right' <| and_congr_right' <| forall_congr' fun between => ?_
  refine forall_congr' fun upTo => ?_
  rw [isFenced_concat lines line (Nat.lt_of_le_of_lt upTo within),
    lineAt_concat lines line (Nat.lt_of_le_of_lt upTo within)]

theorem placeOf_concat (within : position < lines.length) :
    placeOf (lines ++ [line]) position = placeOf lines position := by
  rw [placeOf, placeOf, isFenced_concat lines line within, lineAt_concat lines line within]
  simp only [continues_concat lines line within]

theorem positionsOf_concat (place : Place) : positionsOf (lines ++ [line]) place =
    positionsOf lines place ++
      if placeOf (lines ++ [line]) lines.length = place then [lines.length] else [] := by
  rw [positionsOf, List.length_append, List.length_singleton, List.range_succ, List.filter_append]
  congr 1
  · refine List.filter_congr fun position member => ?_
    rw [placeOf_concat lines line (List.mem_range.mp member)]
  · simp only [List.filter_singleton, Bool.cond_decide]

/-- The lines of a place that stand in front keep their text. -/
theorem map_positionsOf_concat (text : Text → Text) (place : Place) :
    (positionsOf (lines ++ [line]) place).map
      (fun position => text (lineAt (lines ++ [line]) position)) =
      (positionsOf lines place).map (fun position => text (lineAt lines position)) ++
        if placeOf (lines ++ [line]) lines.length = place then [text line] else [] := by
  rw [positionsOf_concat, List.map_append]
  congr 1
  · refine List.map_congr_left fun position member => ?_
    rw [lineAt_concat lines line (List.mem_range.mp (List.mem_of_mem_filter member))]
  · split
    · rw [List.map_singleton, lineAt_length]
    · rfl

theorem describing_concat : describing (lines ++ [line]) = describing lines ++
    if placeOf (lines ++ [line]) lines.length = .description then [Text.trimEnd line] else [] :=
  map_positionsOf_concat lines line Text.trimEnd .description

theorem describing_concat_of_ne (other : placeOf (lines ++ [line]) lines.length ≠ .description) :
    describing (lines ++ [line]) = describing lines := by
  rw [describing_concat, if_neg other, List.append_nil]

/-- What was said before is said with the further line, if that goes to its entry. -/
theorem saidAt_concat (within : position < lines.length) :
    saidAt (lines ++ [line]) position = (saidAt lines position).map (Tag.continuedBy <|
      if placeOf (lines ++ [line]) lines.length = .entry position then [continuation line]
      else []) := by
  rw [saidAt, saidAt, placeOf_concat lines line within, lineAt_concat lines line within]
  cases placeOf lines position with
  | entry opened => rfl
  | tag =>
    dsimp only
    rw [Option.map_map, continuations, map_positionsOf_concat]
    exact congrArg (Option.map · _) (funext fun tag => (tag.continuedBy_continuedBy _ _).symm)
  | field => rfl
  | description => rfl

theorem saidAt_concat_of_ne (within : position < lines.length)
    (other : placeOf (lines ++ [line]) lines.length ≠ .entry position) :
    saidAt (lines ++ [line]) position = saidAt lines position := by
  rw [saidAt_concat lines line within, if_neg other, Tag.map_continuedBy_nil]

end

/-! ### Entries that go on -/

section

variable {lines : List Text} {opened position : Nat}

/-- A line goes on with one entry at most: the tag of another one in between would be no
continuation. -/
theorem Continues.unique {other : Nat} (first : Continues lines opened position)
    (second : Continues lines other position) : opened = other := by
  have apart {a b : Nat} (early : Continues lines a position) (late : Continues lines b position)
      (before : a < b) : False := by
    have tagged := isContinuation_of_isTagLine (isTagLine_of_isEntryTag late.2.2.1)
    exact Bool.false_ne_true
      (tagged.symm.trans (early.2.2.2 b (Nat.le_of_lt late.1) before).2)
  rcases Nat.lt_trichotomy opened other with before | same | behind
  · exact (apart first second before).elim
  · exact same
  · exact (apart second first behind).elim

theorem placeOf_of_continues (continues : Continues lines opened position) :
    placeOf lines position = .entry opened := by
  have found : (List.range position).find? (fun opened => Continues lines opened position) =
      some opened := by
    refine List.find?_range_eq_some.mpr
      ⟨decide_eq_true continues, List.mem_range.mpr continues.1, ?_⟩
    intro earlier before
    rw [Bool.not_eq_true', decide_eq_false_iff_not]
    exact fun also => Nat.ne_of_lt before (also.unique continues)
  rw [placeOf, found]

theorem placeOf_eq_entry_iff : placeOf lines position = .entry opened ↔
    Continues lines opened position := by
  refine ⟨fun placed => ?_, placeOf_of_continues⟩
  rw [placeOf] at placed
  split at placed
  · next found =>
    cases placed
    have continues := List.find?_some found
    exact of_decide_eq_true continues
  · split at placed
    · cases placed
    · split at placed
      · cases placed
      · split at placed <;> cases placed

theorem not_continues_of_placeOf (placed : ∀ opened, placeOf lines position ≠ .entry opened)
    (opened : Nat) : ¬ Continues lines opened position :=
  mt placeOf_of_continues (placed opened)

/-- Where a line goes that continues nothing. -/
theorem placeOf_of_not_continues (alone : ∀ opened, ¬ Continues lines opened position) :
    placeOf lines position =
      if isFenced lines position then .description
      else if isTagLine (lineAt lines position) then .tag
      else if isFieldLine (lineAt lines position) then .field
      else .description := by
  have nothing : (List.range position).find? (fun opened => Continues lines opened position) =
      none :=
    List.find?_eq_none.mpr fun opened _ => by rw [decide_eq_true_eq]; exact alone opened
  rw [placeOf, nothing]

/-- Whether the entry that the tag at a position opened is open behind all lines. -/
def IsOpen (lines : List Text) (opened : Nat) : Prop :=
  opened < lines.length ∧ isFenced lines opened = false ∧ isEntryTag (lineAt lines opened) = true ∧
    ∀ between < lines.length, opened < between →
      isFenced lines between = false ∧ isContinuation (lineAt lines between) = true

theorem continues_length_iff (lines : List Text) (line : Text) (opened : Nat) :
    Continues (lines ++ [line]) opened lines.length ↔ IsOpen lines opened ∧
      isFenced (lines ++ [line]) lines.length = false ∧ isContinuation line = true := by
  constructor
  · rintro ⟨before, unfenced, opens, goesOn⟩
    rw [isFenced_concat lines line before] at unfenced
    rw [lineAt_concat lines line before] at opens
    have last := goesOn lines.length (Nat.le_refl _) before
    rw [lineAt_length] at last
    refine ⟨⟨before, unfenced, opens, fun between within behind => ?_⟩, last⟩
    have inner := goesOn between (Nat.le_of_lt within) behind
    rwa [isFenced_concat lines line within, lineAt_concat lines line within] at inner
  · rintro ⟨⟨before, unfenced, opens, goesOn⟩, last⟩
    refine ⟨before, ?_, ?_, fun between upTo behind => ?_⟩
    · rw [isFenced_concat lines line before, unfenced]
    · rw [lineAt_concat lines line before, opens]
    · rcases Nat.lt_or_eq_of_le upTo with within | rfl
      · rw [isFenced_concat lines line within, lineAt_concat lines line within]
        exact goesOn between within behind
      · rw [lineAt_length]
        exact last

theorem isOpen_concat_iff (lines : List Text) (line : Text) (opened : Nat) :
    IsOpen (lines ++ [line]) opened ↔ Continues (lines ++ [line]) opened lines.length ∨
      opened = lines.length ∧ isFenced (lines ++ [line]) lines.length = false ∧
        isEntryTag line = true := by
  have counted : (lines ++ [line]).length = lines.length + 1 := by
    rw [List.length_append, List.length_singleton]
  constructor
  · rintro ⟨within, unfenced, opens, goesOn⟩
    rw [counted] at within goesOn
    rcases Nat.lt_or_eq_of_le (Nat.le_of_lt_succ within) with before | rfl
    · exact Or.inl
        ⟨before, unfenced, opens, fun between upTo => goesOn between (Nat.lt_succ_of_le upTo)⟩
    · rw [lineAt_length] at opens
      exact Or.inr ⟨rfl, unfenced, opens⟩
  · rintro (⟨before, unfenced, opens, goesOn⟩ | ⟨rfl, unfenced, opens⟩)
    · exact ⟨by omega, unfenced, opens, fun between within => goesOn between (by omega)⟩
    · refine ⟨by omega, unfenced, ?_, fun between within behind => by omega⟩
      rw [lineAt_length, opens]

end

/-! ### The record of lines behind others -/

section

variable {lines : List Text} {line : Text}

/-- Nothing goes on yet with what the last line says. -/
theorem positionsOf_entry_length (lines : List Text) (line : Text) :
    positionsOf (lines ++ [line]) (.entry lines.length) = [] := by
  refine List.filter_eq_nil_iff.mpr fun position member placed => ?_
  have behind := (placeOf_eq_entry_iff.mp (of_decide_eq_true placed)).1
  rw [List.mem_range, List.length_append, List.length_singleton] at member
  omega

/-- A line that goes on with no entry is said behind all others. -/
theorem said_concat (alone : ∀ opened, ¬ Continues (lines ++ [line]) opened lines.length) :
    said (lines ++ [line]) = said lines ++ (saidAt (lines ++ [line]) lines.length).toList := by
  rw [said, List.length_append, List.length_singleton, List.range_succ, List.filterMap_append, said]
  refine congrArg (· ++ _) (List.filterMap_congr fun position member => ?_)
  exact saidAt_concat_of_ne lines line (List.mem_range.mp member)
    (mt placeOf_eq_entry_iff.mp (alone position))

theorem recordOf_concat_tag (placed : placeOf (lines ++ [line]) lines.length = .tag) :
    recordOf (lines ++ [line]) = (tagOf? line).elim (recordOf lines)
      (·.apply (recordOf lines)) := by
  have alone := not_continues_of_placeOf (by rw [placed]; exact nofun)
  have last : saidAt (lines ++ [line]) lines.length = tagOf? line := by
    rw [saidAt, placed]
    dsimp only
    rw [continuations, positionsOf_entry_length, lineAt_length, List.map_nil,
      Tag.map_continuedBy_nil]
  have same := describing_concat_of_ne lines line (by rw [placed]; exact nofun)
  rw [recordOf, said_concat alone, last, same]
  cases tagOf? line with
  | none => rw [Option.toList_none, List.append_nil, Option.elim_none, recordOf]
  | some tag =>
    rw [Option.toList_some, applyAll_concat, Option.elim_some, recordOf, Tag.apply_withDescription]

theorem recordOf_concat_field (placed : placeOf (lines ++ [line]) lines.length = .field) :
    recordOf (lines ++ [line]) = (Tag.field (fieldOfLine line)).apply (recordOf lines) := by
  have alone := not_continues_of_placeOf (by rw [placed]; exact nofun)
  have last : saidAt (lines ++ [line]) lines.length = some (.field (fieldOfLine line)) := by
    rw [saidAt, placed]
    dsimp only
    rw [lineAt_length]
  have same := describing_concat_of_ne lines line (by rw [placed]; exact nofun)
  rw [recordOf, said_concat alone, last, same, Option.toList_some, applyAll_concat, recordOf,
    Tag.apply_withDescription]

theorem recordOf_concat_description
    (placed : placeOf (lines ++ [line]) lines.length = .description) :
    recordOf (lines ++ [line]) = (recordOf lines).describe line := by
  have alone := not_continues_of_placeOf (by rw [placed]; exact nofun)
  have last : saidAt (lines ++ [line]) lines.length = none := by
    rw [saidAt, placed]
  rw [recordOf, said_concat alone, last, Option.toList_none, List.append_nil,
    describing_concat, placed,
    if_pos rfl]
  rfl

/-- The tag of an open entry is the last thing said. -/
theorem said_of_isOpen {opened : Nat} (open_ : IsOpen lines opened) :
    said lines = (List.range opened).filterMap (saidAt lines) ++ (saidAt lines opened).toList := by
  obtain ⟨within, unfenced, opens, goesOn⟩ := open_
  obtain ⟨further, counted⟩ : ∃ further, lines.length = opened + 1 + further :=
    ⟨lines.length - (opened + 1), by omega⟩
  have silent : ((List.range further).map (opened + 1 + ·)).filterMap (saidAt lines) = [] := by
    refine List.filterMap_eq_nil_iff.mpr fun position member => ?_
    obtain ⟨offset, small, rfl⟩ := List.mem_map.mp member
    rw [List.mem_range] at small
    have continues : Continues lines opened (opened + 1 + offset) :=
      ⟨by omega, unfenced, opens, fun between upTo behind => goesOn between (by omega) behind⟩
    rw [saidAt, placeOf_of_continues continues]
  rw [said, counted, List.range_add, List.filterMap_append, silent, List.append_nil,
    List.range_succ,
    List.filterMap_append]
  rfl

/-- The tag that opened an entry is read as one whose entry can go on. -/
theorem saidAt_of_isOpen {opened : Nat} (open_ : IsOpen lines opened) {place : Continuing}
    (kind : (tagOf? (lineAt lines opened)).bind Tag.continuing? = some place) :
    ∃ tag, saidAt lines opened = some tag ∧ tag.continuing? = some place := by
  obtain ⟨within, unfenced, opens, goesOn⟩ := open_
  have tagged := isTagLine_of_isEntryTag opens
  have alone : ∀ earlier, ¬ Continues lines earlier opened := fun earlier continues => by
    have goesOn := (continues.2.2.2 opened (Nat.le_refl _) continues.1).2
    exact Bool.false_ne_true ((isContinuation_of_isTagLine tagged).symm.trans goesOn)
  obtain ⟨tag, read, continuing⟩ := Option.bind_eq_some_iff.mp kind
  refine ⟨tag.continuedBy (continuations lines opened), ?_,
    (tag.continuing?_continuedBy _).trans continuing⟩
  rw [saidAt, placeOf_of_not_continues alone, unfenced, if_neg Bool.false_ne_true, if_pos tagged]
  dsimp only
  rw [read, Option.map_some]

theorem recordOf_concat_entry {opened : Nat}
    (continues : Continues (lines ++ [line]) opened lines.length) {place : Continuing}
    (kind : (tagOf? (lineAt lines opened)).bind Tag.continuing? = some place) :
    recordOf (lines ++ [line]) = (recordOf lines).extend (continuation line) place := by
  have placed := placeOf_of_continues continues
  have before := ((continues_length_iff lines line opened).mp continues).1
  have after := (isOpen_concat_iff lines line opened).mpr (Or.inl continues)
  obtain ⟨tag, told, continuing⟩ := saidAt_of_isOpen before kind
  have front : (List.range opened).filterMap (saidAt (lines ++ [line])) =
      (List.range opened).filterMap (saidAt lines) := by
    refine List.filterMap_congr fun position member => ?_
    have earlier := List.mem_range.mp member
    refine saidAt_concat_of_ne lines line (Nat.lt_trans earlier before.1) ?_
    rw [placed]
    exact fun same => Nat.ne_of_gt earlier (Place.entry.inj same)
  have last : saidAt (lines ++ [line]) opened = some (tag.continuedBy [continuation line]) := by
    rw [saidAt_concat lines line before.1, told, placed, if_pos rfl, Option.map_some]
  have same := describing_concat_of_ne lines line (by rw [placed]; exact nofun)
  rw [recordOf, said_of_isOpen after, front, last, same, Option.toList_some, applyAll_concat,
    ← Record.extend_apply continuing, recordOf, said_of_isOpen before, told, Option.toList_some,
    applyAll_concat, Record.extend_withDescription]

end

/-! ### Reading a block -/

/-- Where the reading of a block stands behind some of its lines. -/
structure Reading.IsBehind (reading : Reading) (lines : List Text) : Prop where
  fenced : reading.inFence = (lines.countP isFence % 2 == 1)
  open_ : ∀ place, reading.continuing = some place ↔
    ∃ opened, IsOpen lines opened ∧ (tagOf? (lineAt lines opened)).bind Tag.continuing? = some place
  record : reading.record = recordOf lines

namespace Reading.IsBehind

theorem start : Reading.IsBehind {} [] where
  fenced := rfl
  open_ := fun _ => ⟨nofun, fun ⟨_, open_, _⟩ => absurd open_.1 (Nat.not_lt_zero _)⟩
  record := rfl

variable {reading : Reading} {lines : List Text} (behind : reading.IsBehind lines) {line : Text}

include behind

theorem isFenced_length : isFenced (lines ++ [line]) lines.length =
    isFencedAfter reading.inFence line := by
  rw [Doc.isFenced_length, behind.fenced]

/-- No entry is open where the reader knows of none. -/
theorem not_isOpen (closed : reading.continuing = none) (opened : Nat) : ¬ IsOpen lines opened := by
  intro open_
  have opens := open_.2.2.1
  rw [isEntryTag_eq] at opens
  obtain ⟨place, kind⟩ := Option.isSome_iff_exists.mp opens
  cases closed.symm.trans ((behind.open_ place).mpr ⟨opened, open_, kind⟩)

theorem alone_of_closed (closed : reading.continuing = none ∨ isContinuation line = false)
    (opened : Nat) : ¬ Continues (lines ++ [line]) opened lines.length := by
  rw [continues_length_iff]
  rintro ⟨open_, -, shaped⟩
  rcases closed with nothing | unshaped
  · exact behind.not_isOpen nothing opened open_
  · exact Bool.false_ne_true (unshaped.symm.trans shaped)

/-- A line that goes on with no entry leaves open at most the one that it opens itself. -/
theorem of_alone (alone : ∀ opened, ¬ Continues (lines ++ [line]) opened lines.length)
    {after : Reading}
    (fenced : after.inFence = isFencedAfter reading.inFence line)
    (continuing : after.continuing =
      if isFencedAfter reading.inFence line then none else (tagOf? line).bind Tag.continuing?)
    (record : after.record = recordOf (lines ++ [line])) : after.IsBehind (lines ++ [line]) where
  fenced := by rw [fenced, odd_fences_concat, behind.fenced]
  record := record
  open_ := by
    intro place
    rw [continuing]
    constructor
    · intro opens
      rw [Option.ite_none_left_eq_some, Bool.not_eq_true] at opens
      obtain ⟨unfenced, kind⟩ := opens
      refine ⟨lines.length, (isOpen_concat_iff lines line _).mpr (Or.inr ⟨rfl, ?_, ?_⟩), ?_⟩
      · rw [behind.isFenced_length, unfenced]
      · rw [isEntryTag_eq, kind, Option.isSome_some]
      · rw [lineAt_length, kind]
    · rintro ⟨opened, open_, kind⟩
      rcases (isOpen_concat_iff lines line opened).mp open_ with continues | ⟨rfl, unfenced, -⟩
      · exact absurd continues (alone opened)
      · rw [behind.isFenced_length] at unfenced
        rw [lineAt_length] at kind
        rw [unfenced, if_neg Bool.false_ne_true, kind]

/-- A line that goes on with an entry leaves it open. -/
theorem of_continues {place : Continuing} (open_ : reading.continuing = some place)
    (outside : isFencedAfter reading.inFence line = false) (shaped : isContinuation line = true) :
    Reading.IsBehind ⟨reading.record.extend (continuation line) place, false, some place⟩
      (lines ++ [line]) := by
  have goesOn (opened : Nat) : IsOpen (lines ++ [line]) opened ↔ IsOpen lines opened := by
    have untagged : isEntryTag line = false := by
      by_contra opens
      rw [Bool.not_eq_false] at opens
      have unshaped := isContinuation_of_isTagLine (isTagLine_of_isEntryTag opens)
      exact Bool.false_ne_true (unshaped.symm.trans shaped)
    rw [isOpen_concat_iff, continues_length_iff, behind.isFenced_length, outside, shaped, untagged]
    simp
  refine ⟨?_, fun other => ?_, ?_⟩
  · rw [odd_fences_concat, ← behind.fenced, outside]
  · rw [← open_, behind.open_]
    refine exists_congr fun opened => ?_
    rw [goesOn]
    exact and_congr_right fun open_ => by rw [lineAt_concat lines line open_.1]
  · obtain ⟨opened, stands, kind⟩ := (behind.open_ place).mp open_
    have continues := (continues_length_iff lines line opened).mpr
      ⟨stands, behind.isFenced_length.trans outside, shaped⟩
    rw [recordOf_concat_entry continues kind, behind.record]

theorem next_of_fenced (fenced : isFencedAfter reading.inFence line = true) :
    (reading.next line).IsBehind (lines ++ [line]) := by
  have here := behind.isFenced_length.trans fenced
  have alone : ∀ opened, ¬ Continues (lines ++ [line]) opened lines.length :=
    fun opened continues =>
    Bool.false_ne_true ((continues.2.2.2 _ (Nat.le_refl _) continues.1).1.symm.trans here)
  have placed : placeOf (lines ++ [line]) lines.length = .description := by
    rw [placeOf_of_not_continues alone, here, if_pos rfl]
  rw [Reading.next_of_fenced fenced]
  refine behind.of_alone alone fenced.symm (by rw [fenced, if_pos rfl]) ?_
  rw [recordOf_concat_description placed, behind.record]

section

variable (outside : isFencedAfter reading.inFence line = false)

include outside

theorem placeOf_outside (closed : reading.continuing = none ∨ isContinuation line = false) :
    placeOf (lines ++ [line]) lines.length =
      if isTagLine line then .tag else if isFieldLine line then .field else .description := by
  rw [placeOf_of_not_continues (behind.alone_of_closed closed), behind.isFenced_length, outside,
    if_neg Bool.false_ne_true, lineAt_length]

theorem next_of_isTagLine (tagged : isTagLine line = true) :
    (reading.next line).IsBehind (lines ++ [line]) := by
  have closed : reading.continuing = none ∨ isContinuation line = false :=
    Or.inr (isContinuation_of_isTagLine tagged)
  have placed := behind.placeOf_outside outside closed
  rw [tagged, if_pos rfl] at placed
  rw [Reading.next_of_isTagLine outside tagged]
  refine behind.of_alone (behind.alone_of_closed closed) outside.symm ?_ ?_
  · rw [outside, if_neg Bool.false_ne_true]
  · rw [recordOf_concat_tag placed, behind.record]

theorem next_of_isFieldLine (dotted : isFieldLine line = true) :
    (reading.next line).IsBehind (lines ++ [line]) := by
  have untagged := isTagLine_of_isFieldLine dotted
  have closed : reading.continuing = none ∨ isContinuation line = false :=
    Or.inr (isContinuation_of_isFieldLine dotted)
  have placed := behind.placeOf_outside outside closed
  rw [untagged, if_neg Bool.false_ne_true, dotted, if_pos rfl] at placed
  rw [Reading.next_of_isFieldLine outside dotted]
  refine behind.of_alone (behind.alone_of_closed closed) outside.symm ?_ ?_
  · rw [tagOf?_eq_none untagged, Option.bind_none, ite_self]
  · rw [recordOf_concat_field placed, behind.record]

theorem next_of_closed (closed : reading.continuing = none ∨ isContinuation line = false)
    (untagged : isTagLine line = false) (undotted : isFieldLine line = false) :
    (reading.next line).IsBehind (lines ++ [line]) := by
  have placed := behind.placeOf_outside outside closed
  rw [untagged, if_neg Bool.false_ne_true, undotted, if_neg Bool.false_ne_true] at placed
  rw [Reading.next_of_closed outside closed untagged undotted]
  refine behind.of_alone (behind.alone_of_closed closed) outside.symm ?_ ?_
  · rw [tagOf?_eq_none untagged, Option.bind_none, ite_self]
  · rw [recordOf_concat_description placed, behind.record]

end

/-- Reading a line keeps to what the positions say. -/
theorem next (line : Text) : (reading.next line).IsBehind (lines ++ [line]) := by
  cases fenced : isFencedAfter reading.inFence line with
  | true => exact behind.next_of_fenced fenced
  | false =>
    cases tagged : isTagLine line with
    | true => exact behind.next_of_isTagLine fenced tagged
    | false =>
      cases dotted : isFieldLine line with
      | true => exact behind.next_of_isFieldLine fenced dotted
      | false =>
        cases open_ : reading.continuing with
        | none => exact behind.next_of_closed fenced (Or.inl open_) tagged dotted
        | some place =>
          cases shaped : isContinuation line with
          | false => exact behind.next_of_closed fenced (Or.inr shaped) tagged dotted
          | true =>
            rw [Reading.next_of_continues fenced open_ shaped]
            exact behind.of_continues open_ fenced shaped

end Reading.IsBehind

theorem isBehind_foldl (lines : List Text) : (lines.foldl Reading.next {}).IsBehind lines := by
  induction lines using List.reverseRecOn with
  | nil => exact .start
  | append_singleton lines line inductionHypothesis =>
    rw [List.foldl_append]
    exact inductionHypothesis.next line

/-- Every line of a block goes to the one place that its position tells: to the entry that it goes
on with, or else to the tags, the fields or the description by how it begins. The record is what the
lines add from their places. -/
theorem lines_go_to_places (content : List Text) :
    let lines := Comment.dedent content
    (∀ opened position, placeOf lines position = .entry opened ↔ Continues lines opened position) ∧
    (∀ position, (∀ opened, ¬ Continues lines opened position) → placeOf lines position =
      if isFenced lines position then .description
      else if isTagLine (lineAt lines position) then .tag
      else if isFieldLine (lineAt lines position) then .field
      else .description) ∧
    read content = recordOf lines :=
  ⟨fun _ _ => placeOf_eq_entry_iff, fun _ => placeOf_of_not_continues,
    (isBehind_foldl (Comment.dedent content)).record⟩

example : (List.range 6).map
    (placeOf ["@param key", "  what opens it", "```", "  @tag", "```", ".at"]) =
    [.tag, .entry 0, .description, .description, .description, .field] := by
  decide

end Doc

end LuauReference
