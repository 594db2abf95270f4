/-
This file reads the lines of a documentation block into a record. Every line goes to one of four
places: it continues the entry of the tag before it, it is a tag, it is a field written with a dot,
or it belongs to the description. Inside fenced code all lines belong to the description.
-/

import LuauReference.Doc.Tag

namespace LuauReference

namespace Doc

/-- What begins and ends fenced code. -/
def fence : Text := "```"

/-- Which list of entries has the entry that following lines may continue: its last one. -/
inductive Continuing
  | param
  | returns
  | error
  deriving DecidableEq, Repr

/-- The entry list that a tag leaves open. -/
def Tag.continuing? : Tag → Option Continuing
  | .param _ => some .param
  | .returns _ => some .returns
  | .error _ => some .error
  | _ => none

/-- Where the reading of a block stands between two lines. -/
structure Reading where
  record : Record := {}
  inFence : Bool := false
  continuing : Option Continuing := none

/-- Adds a line to the description of the last entry. -/
def extendLast (line : Text) : List Entry → List Entry
  | [] => []
  | [last] => [{ last with lines := last.lines ++ [line] }]
  | entry :: next :: more => entry :: extendLast line (next :: more)

/-- Adds a line to the entry that is continued. -/
def Record.extend (record : Record) (line : Text) : Continuing → Record
  | .param => { record with params := extendLast line record.params }
  | .returns => { record with returns := extendLast line record.returns }
  | .error => { record with errors := extendLast line record.errors }

/-- Whether a line can continue an entry: it is indented by a tab or two spaces and is neither a tag
nor a field. -/
def isContinuation (line : Text) : Bool :=
  let indent := Text.indent line
  if List.elem '\t' indent || 2 ≤ indent.length then
    match Text.trim (Text.dropIndent line) with
    | '@' :: _ => false
    | '.' :: _ => false
    | _ => true
  else
    false

/-- Reads one line. -/
def Reading.next (reading : Reading) (line : Text) : Reading :=
  let trimmed := Text.trim line
  let inFence := if Text.startsWith trimmed fence then !reading.inFence else reading.inFence
  let describe : Reading :=
    ⟨{ reading.record with description := reading.record.description ++ [Text.trimEnd line] },
      inFence, none⟩
  if inFence then
    describe
  else
    match reading.continuing.filter fun _ => isContinuation line with
    | some place =>
      ⟨reading.record.extend (Text.trimEnd (Text.dropIndent line)) place, false, some place⟩
    | none =>
      match trimmed with
      | '@' :: _ =>
        match (tagParts? trimmed).bind fun (name, value) => Tag.read? name value with
        | some tag => ⟨tag.apply reading.record, false, tag.continuing?⟩
        | none => ⟨reading.record, false, none⟩
      | '.' :: rest =>
        let field := fieldOf (Text.trim rest)
        ⟨{ reading.record with fields := reading.record.fields ++ [field] }, false, none⟩
      | _ => describe

/-- The record of a documentation block. -/
def read (content : List Text) : Record :=
  ((Comment.dedent content).foldl Reading.next {}).record

end Doc

end LuauReference
