/-
This file matches texts against file name patterns. A star stands for any stretch of characters,
slashes included, a question mark for one character and a bracket for one character of a class.
Every other character stands for itself, and so does an opening bracket that is never closed.
-/

import LuauReference.Text.Basic

namespace LuauReference

namespace Glob

/-- One element of a pattern. -/
inductive Element
  | stretch
  | anyOne
  | oneOf (negated : Bool) (ranges : List (Char × Char))
  | exactly (c : Char)
  deriving DecidableEq

/-- The characters of a bracket up to its closing bracket, with what follows it. A closing bracket
that stands first, or right after the negation mark, is a member. -/
def bracket? : Text → Option (Text × Text)
  | '!' :: ']' :: rest => (Text.cut? [']'] rest).map fun (body, tail) => ('!' :: ']' :: body, tail)
  | ']' :: rest => (Text.cut? [']'] rest).map fun (body, tail) => (']' :: body, tail)
  | rest => Text.cut? [']'] rest

/-- The members of a class. A hyphen between two characters makes a range of them, and a range
whose ends are in the wrong order has no members. -/
def members : Text → List (Char × Char)
  | low :: '-' :: high :: rest => if low ≤ high then (low, high) :: members rest else members rest
  | c :: rest => (c, c) :: members rest
  | [] => []

/-- The class that the characters of a bracket denote. An exclamation mark in front negates. -/
def classOf : Text → Element
  | '!' :: body => .oneOf true (members body)
  | body =>
    match members body with
    | ('!', '!') :: ranges => .oneOf true ranges
    | ranges => .oneOf false ranges

/-- The rest after a bracket is shorter than what stood before it. -/
theorem length_lt_of_bracket? {s body rest : Text} (found : bracket? s = some (body, rest)) :
    rest.length < s.length + 1 := by
  unfold bracket? at found
  split at found
  · next tail =>
    cases step : Text.cut? [']'] tail with
    | none => simp [step] at found
    | some sides =>
      obtain ⟨a, b⟩ := sides
      have := Text.length_lt_of_cut? step (by simp)
      simp [step] at found
      simp [← found.2]
      omega
  · next tail =>
    cases step : Text.cut? [']'] tail with
    | none => simp [step] at found
    | some sides =>
      obtain ⟨a, b⟩ := sides
      have := Text.length_lt_of_cut? step (by simp)
      simp [step] at found
      simp [← found.2]
      omega
  · have := Text.length_lt_of_cut? found (by simp)
    omega

/-- The elements of a pattern. -/
def parse (pattern : Text) : List Element :=
  match pattern with
  | [] => []
  | '*' :: rest => .stretch :: parse rest
  | '?' :: rest => .anyOne :: parse rest
  | '[' :: rest =>
    match _step : bracket? rest with
    | some (body, tail) => classOf body :: parse tail
    | none => .exactly '[' :: parse rest
  | c :: rest => .exactly c :: parse rest
termination_by pattern.length
decreasing_by
  all_goals try simp
  have := length_lt_of_bracket? _step
  omega

/-- Whether one character fits an element that stands for one character. -/
def Element.admits (c : Char) : Element → Bool
  | .stretch => false
  | .anyOne => true
  | .oneOf negated ranges => (ranges.any fun (low, high) => low ≤ c && c ≤ high) != negated
  | .exactly expected => c == expected

/-- Whether the elements fit a text as a whole. -/
def fits : List Element → Text → Bool
  | [], s => s.isEmpty
  | .stretch :: elements, [] => fits elements []
  | .stretch :: elements, c :: rest => fits elements (c :: rest) || fits (.stretch :: elements) rest
  | _ :: _, [] => false
  | element :: elements, c :: rest => element.admits c && fits elements rest
termination_by elements s => (elements.length, s.length)

/-- Whether a pattern matches a text as a whole. -/
def admits (pattern s : Text) : Bool :=
  fits (parse pattern) s

end Glob

end LuauReference
