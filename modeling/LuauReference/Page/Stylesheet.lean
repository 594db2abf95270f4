/-
This file keeps the rule for the width of tabs inside a stylesheet. The rule stands between two
marks, so that it can be found and replaced; everything outside of the marks belongs to the user.
-/

import LuauReference.Text.Numeral

namespace LuauReference

namespace Stylesheet

/-- The mark before the rule. -/
def startMark : Text := "/* luaudoc-tab-size-start */"

/-- The mark after the rule. -/
def endMark : Text := "/* luaudoc-tab-size-end */"

/-- The rule for a width, between its marks. -/
def rule (size : Int) : Text :=
  let digits := Text.ofInt size
  Text.join "\n"
    [startMark, ".theme-code-block, pre code \x7b", "  tab-size: ".toList ++ digits ++ [';'],
      "  -moz-tab-size: ".toList ++ digits ++ [';'], "  -o-tab-size: ".toList ++ digits ++ [';'],
      "\x7d", endMark, []]

/-- A stylesheet without its marked rules: each goes from a start mark to the next end mark. -/
def dropRules (css : Text) : Text :=
  match css with
  | [] => []
  | c :: rest =>
    match _start : Text.after? startMark (c :: rest) with
    | some inside =>
      match _end : Text.cut? endMark inside with
      | some (_, tail) => dropRules tail
      | none => c :: dropRules rest
    | none => c :: dropRules rest
termination_by css.length
decreasing_by
  · have inner := Text.length_lt_of_cut? _end (by decide)
    have outer := Text.length_le_of_after? _start
    omega
  · simp
  · simp

/-- A stylesheet with the rule for a width at its end and no other. -/
def withRule (css : Text) (size : Int) : Text :=
  let remaining := Text.trimEnd (dropRules css)
  (if remaining.isEmpty then [] else remaining ++ ['\n']) ++ rule size

end Stylesheet

end LuauReference
