/-
This file finds the pages that references lead to. A reference names a class, or a member of a class
with a dot or a colon between them. In descriptions, references stand in code spans and become
links; whatever names no known class is left as literal text, and so is everything inside fenced
code.
-/

import LuauReference.Page.Node
import LuauReference.Page.Plan

namespace LuauReference

/-- The known class pages, and the route under which pages are found. -/
structure Links where
  route : Text
  pages : List Page.ClassPage

namespace Links

/-- The links to the given pages. Slashes around the route do not count. -/
def ofPages (pages : List Page.ClassPage) (route : Text) : Links :=
  ⟨Text.trimWhere (· == '/') route, pages⟩

/-! ### Addresses -/

/-- The page of a class. -/
def page? (links : Links) (name : Text) : Option Page.ClassPage :=
  links.pages.find? fun page => page.name = name

/-- Whether a class is known. -/
def knows (links : Links) (name : Text) : Bool :=
  (links.page? name).isSome

/-- The address of a page. -/
def address (links : Links) (page : Page.ClassPage) : Text :=
  (if links.route.isEmpty then [] else '/' :: links.route) ++ '/' :: page.link

/-- The address of the page of a class. -/
def classHref? (links : Links) (name : Text) : Option Text :=
  (links.page? name).map links.address

/-- The address of a member. Its anchor is the one on the page, or else the one that its name would
have. -/
def memberHref? (links : Links) (name member : Text) : Option Text :=
  (links.page? name).map fun page =>
    let cleaned := Anchor.dropCall (Text.trim member)
    match page.anchorFor? cleaned <|> Anchor.ofText? cleaned with
    | some anchor => links.address page ++ '#' :: anchor
    | none => links.address page

/-! ### References -/

/-- Words in front of a reference that carry no meaning any more. -/
def legacyHeads : List Text :=
  ["Class.", "Datatype.", "Enum.", "Global.", "Library."]

/-- A reference without the word in front of it. -/
def dropLegacyHead (reference : Text) : Text :=
  (legacyHeads.findSome? fun head => Text.after? head reference).getD reference

/-- The class and the member of a reference to a member. -/
def memberReference? (reference : Text) : Option (Text × Text) :=
  match Text.identifier? reference with
  | some (name, mark :: c :: rest) =>
    if (mark = ':' || mark = '.') && !List.elem '\n' (c :: rest) then
      some (name, c :: rest)
    else
      none
  | _ => none

/-- The address that a reference leads to. -/
def resolve? (links : Links) (target : Text) : Option Text :=
  let reference := dropLegacyHead (Text.trim target)
  match memberReference? reference with
  | some (name, member) =>
    if links.knows name then links.memberHref? name member else links.classHref? reference
  | none => links.classHref? reference

/-- A link to a class, or its name when it is not known. -/
def linkClass (links : Links) (name : Text) : Inline :=
  match links.classHref? name with
  | some href => .link name href
  | none => .text name

/-! ### References in running text -/

/-- The label that asks for no link. -/
def noLink : Text := "no-link"

/-- A text in a code span. -/
def codeSpan (s : Text) : Text :=
  '\x60' :: s ++ ['\x60']

/-- What a code span becomes. A bar divides the reference from the text to show; where no page is
found, a span with a bar is a type and stays as it is. -/
def replaceSpan (links : Links) (content : Text) : Text :=
  let (target, label) := match Text.cut? "|" content with
    | some (target, label) => (Text.trim target, Text.trim label)
    | none => (Text.trim content, [])
  if label = noLink then
    codeSpan target
  else
    match links.resolve? target with
    | none => if label.isEmpty then codeSpan (dropLegacyHead target) else codeSpan content
    | some href =>
      let shown := if label.isEmpty then dropLegacyHead target else label
      '[' :: shown ++ ']' :: '(' :: href ++ [')']

/-- Whether a character can stand in a code span. -/
def isSpanChar (c : Char) : Bool :=
  c != '\x60' && c != '\n'

/-- The content of the code span that follows a backtick, and what comes after the span. -/
def span? (s : Text) : Option (Text × Text) :=
  match s.takeWhile isSpanChar, s.dropWhile isSpanChar with
  | c :: content, '\x60' :: rest => some (c :: content, rest)
  | _, _ => none

/-- What follows a code span is shorter than the text with it. -/
theorem length_lt_of_span? {s content rest : Text} (found : span? s = some (content, rest)) :
    rest.length < s.length := by
  unfold span? at found
  split at found
  · next c more tail shown left =>
    simp only [Option.some.injEq, Prod.mk.injEq] at found
    have shorter := (List.dropWhile_suffix (l := s) isSpanChar).length_le
    rw [left, List.length_cons] at shorter
    rw [← found.2]
    omega
  · simp at found

/-- A line with its code spans replaced. -/
def linkLine (links : Links) (line : Text) : Text :=
  match line with
  | [] => []
  | c :: rest =>
    if c = '\x60' then
      match _step : span? rest with
      | some (content, tail) => links.replaceSpan content ++ linkLine links tail
      | none => c :: linkLine links rest
    else
      c :: linkLine links rest
termination_by line.length
decreasing_by
  · have := length_lt_of_span? _step
    simp only [List.length_cons]
    omega
  · simp
  · simp

/-- The mark that begins and ends fenced code. -/
def fence : Text := ['\x60', '\x60', '\x60']

/-- Whether a line begins or ends fenced code. -/
def isFence (line : Text) : Bool :=
  Text.startsWith (Text.trim line) fence

/-- Lines with their code spans replaced outside of fenced code. -/
def linkLines (links : Links) (inFence : Bool) : List Text → List Text
  | [] => []
  | line :: rest =>
    if isFence line then line :: linkLines links (!inFence) rest
    else (if inFence then line else links.linkLine line) :: linkLines links inFence rest

/-- A description with its references made links. -/
def linkText (links : Links) (description : Text) : Text :=
  Text.join "\n" (links.linkLines false (Text.pieces '\n' description))

end Links

end LuauReference
