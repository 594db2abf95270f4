/-
This file gives the fenced code of descriptions its language. Only the lines that open a fence
without a language, or with the language of the sources, are changed.
-/

import LuauReference.Page.Link
import LuauReference.Page.Settings

namespace LuauReference

namespace Page

/-- The line that opens fenced code, with its language. -/
def labelFence (language line : Text) : Text :=
  let label := Text.trim ((Text.trim line).drop 3)
  let indent := line.takeWhile Text.isBlank
  if label.isEmpty then indent ++ Links.fence ++ language
  else if label = "luau" then indent ++ Links.fence ++ "lua".toList
  else line

/-- Lines with the language of their fenced code, given whether they begin inside of a fence. -/
def labelLines (language : Text) (inFence : Bool) : List Text → List Text
  | [] => []
  | line :: rest =>
    if Links.isFence line then
      (if inFence then line else labelFence language line) :: labelLines language (!inFence) rest
    else
      line :: labelLines language inFence rest

/-- A description with the language of its fenced code. -/
def labelFences (lang description : Text) : Text :=
  Text.join "\n" (labelLines (fenceLanguage lang) false (Text.pieces '\n' description))

end Page

end LuauReference
