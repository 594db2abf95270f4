/-
This file holds texts and the few ways the rest of the library cuts them. A text is the list of
its characters, so every function here is plain recursion on a list and every fact about one is an
induction. Cutting functions return the two sides of the cut, never positions: what was cut off
and what is left are then both at hand, and nothing has to be counted.
-/

namespace LuauReference

/-- A text is the list of its Unicode characters. -/
abbrev Text := List Char

instance : Coe String Text := ⟨String.toList⟩

namespace Text

/-! ### Heads and tails -/

/-- The rest of a text that begins with the given mark. -/
def after? : Text → Text → Option Text
  | [], rest => some rest
  | _ :: _, [] => none
  | m :: mark, c :: rest => if m = c then after? mark rest else none

/-- Whether a text begins with the given mark. -/
def startsWith (s mark : Text) : Bool :=
  (after? mark s).isSome

/-- The front of a text that ends with the given mark. -/
def before? (mark s : Text) : Option Text :=
  (after? mark.reverse s.reverse).map List.reverse

/-- Whether a text ends with the given mark. -/
def endsWith (s mark : Text) : Bool :=
  (before? mark s).isSome

/-- Drops the longest tail whose characters all satisfy the test. -/
def dropEndWhile (test : Char → Bool) (s : Text) : Text :=
  (s.reverse.dropWhile test).reverse

/-- Drops the characters that satisfy the test from both ends. -/
def trimWhere (test : Char → Bool) (s : Text) : Text :=
  dropEndWhile test (s.dropWhile test)

/-! ### Cutting at a mark -/

/-- The two sides of the first occurrence of a mark. -/
def cut? (mark : Text) : Text → Option (Text × Text)
  | [] => if mark = [] then some ([], []) else none
  | c :: rest =>
    match after? mark (c :: rest) with
    | some tail => some ([], tail)
    | none => (cut? mark rest).map fun (left, right) => (c :: left, right)

/-- Whether a mark occurs in a text. -/
def hasPart (s mark : Text) : Bool :=
  (cut? mark s).isSome

/-- The two sides of the last occurrence of a character. -/
def cutLast? (mark : Char) (s : Text) : Option (Text × Text) :=
  match cut? [mark] s.reverse with
  | some (right, left) => some (left.reverse, right.reverse)
  | none => none

/-- What follows a mark is no longer than the whole. -/
theorem length_le_of_after? {mark s rest : Text} (found : after? mark s = some rest) :
    rest.length ≤ s.length := by
  induction mark generalizing s with
  | nil =>
    simp only [after?, Option.some.injEq] at found
    simp [found]
  | cons m mark inductionHypothesis =>
    cases s with
    | nil => simp [after?] at found
    | cons c tail =>
      rw [after?] at found
      split at found
      · have shorter := inductionHypothesis found
        simp only [List.length_cons]
        omega
      · simp at found

/-- What follows a mark that has a character is shorter than the whole. -/
theorem length_lt_of_after? {mark s rest : Text} (found : after? mark s = some rest)
    (present : mark ≠ []) : rest.length < s.length := by
  cases mark with
  | nil => exact absurd rfl present
  | cons m mark =>
    cases s with
    | nil => simp [after?] at found
    | cons c tail =>
      rw [after?] at found
      split at found
      · have shorter := length_le_of_after? found
        simp only [List.length_cons]
        omega
      · simp at found

/-- The right side of a cut is shorter than the whole when the mark has a character. -/
theorem length_lt_of_cut? {mark s left right : Text} (found : cut? mark s = some (left, right))
    (present : mark ≠ []) : right.length < s.length := by
  induction s generalizing left right with
  | nil => simp [cut?, present] at found
  | cons c rest inductionHypothesis =>
    rw [cut?] at found
    split at found
    · next tail after =>
      simp only [Option.some.injEq, Prod.mk.injEq] at found
      exact found.2 ▸ length_lt_of_after? after present
    · cases step : cut? mark rest with
      | none => simp [step] at found
      | some sides =>
        obtain ⟨a, b⟩ := sides
        simp only [step, Option.map_some, Option.some.injEq, Prod.mk.injEq] at found
        have shorter := inductionHypothesis step
        rw [← found.2, List.length_cons]
        omega

/-- All pieces between the occurrences of a character; there is always at least one. -/
def pieces (mark : Char) : Text → List Text
  | [] => [[]]
  | c :: rest =>
    if c = mark then
      [] :: pieces mark rest
    else
      match pieces mark rest with
      | [] => [[c]]
      | piece :: more => (c :: piece) :: more

/-- Puts a text between every two neighbours of a list. -/
def join (separator : Text) : List Text → Text
  | [] => []
  | [only] => only
  | first :: second :: more => first ++ separator ++ join separator (second :: more)

/-- Writes one text for every occurrence of a character. -/
def substitute (mark : Char) (replacement : Text) (s : Text) : Text :=
  s.flatMap fun c => if c = mark then replacement else [c]

/-- How often a character occurs, as an integer, since counts are subtracted from each other. -/
def tally (mark : Char) (s : Text) : Int :=
  (s.count mark : Int)

/-! ### Identifiers -/

/-- A letter or digit of the ASCII range, or the underscore. -/
def isWordChar (c : Char) : Bool :=
  c.isAlphanum || c == '_'

/-- A character that can begin an identifier. -/
def isWordStart (c : Char) : Bool :=
  c.isAlpha || c == '_'

/-- The longest run of characters of a class that begins with one of a narrower class. -/
def run? (start more : Char → Bool) : Text → Option (Text × Text)
  | [] => none
  | c :: rest =>
    if start c then
      some (c :: rest.takeWhile more, rest.dropWhile more)
    else
      none

/-- The identifier at the head of a text, with what follows it. -/
def identifier? (s : Text) : Option (Text × Text) :=
  run? isWordStart isWordChar s

/-! ### Order -/

/-- Texts are ordered by their code points, the shorter of two first when one begins the other. -/
def inOrder : Text → Text → Bool
  | [], _ => true
  | _ :: _, [] => false
  | a :: s, b :: t => a.toNat < b.toNat || (a.toNat == b.toNat && inOrder s t)

/-- Sorts by a text key and keeps the order of equal keys. -/
def sortOn {α : Type} (key : α → Text) (items : List α) : List α :=
  items.mergeSort fun a b => inOrder (key a) (key b)

/-- Sorts texts by code points. -/
def sort (items : List Text) : List Text :=
  sortOn id items

end Text

end LuauReference
