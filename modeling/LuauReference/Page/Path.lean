/-
This file makes the paths of pages from class names and categories, which are free text. The slashes
of a text divide it into folders, and each part is trimmed and rid of the characters that file
systems do not take.
-/

import LuauReference.Symbol.Basic

namespace LuauReference

namespace Page

/-- Characters that may not stand in the name of a file. -/
def isForbidden (c : Char) : Bool :=
  List.elem c ['<', '>', ':', '"', '|', '?', '*']

/-- One part of a path. -/
def segment (s : Text) : Text :=
  match Text.trim s with
  | [] => "unnamed"
  | trimmed => trimmed.map fun c => if isForbidden c then '_' else c

/-- A path from a text whose parts are divided by slashes of either kind. -/
def pathOf (s : Text) : Text :=
  let slashed := s.map fun c => if c = '\\' then '/' else c
  Text.join "/" ((Text.pieces '/' slashed).map segment)

/-- The folder of all class pages. -/
def folder : Text := "classes"

/-- The ending of a page. -/
def ending : Text := ".md"

/-- The categories of a class, in the order of its tags. -/
def categoriesOf (symbol : Symbol) : List Text :=
  (symbol.docs.tagValues "category").map Json.text

/-- The path of the page of a class: its first category is a folder. -/
def classPath (symbol : Symbol) : Text :=
  let base := match categoriesOf symbol with
    | category :: _ => folder ++ '/' :: pathOf category
    | [] => folder
  base ++ '/' :: pathOf symbol.name ++ ending

/-- The path of a page without its ending. -/
def linkOf (path : Text) : Text :=
  (Text.before? ending path).getD path

end Page

end LuauReference
