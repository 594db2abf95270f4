/-
This file writes the signatures that pages show for functions and types, and the addresses of source
links. Parameters, results and fields are objects of a document, whose values may be of any kind and
are shown as text.
-/

import LuauReference.Page.Settings
import LuauReference.Symbol.Basic

namespace LuauReference

namespace Page

/-- What a line inside a signature begins with. -/
def signatureIndent : Text := "  "

/-- The text of a parameter or field with its type, if it has one. -/
def typedName (name : Json) (type : Json) : Text :=
  if type.isTruthy then name.text ++ ": ".toList ++ type.text else name.text

/-- The texts of the parameters that have a name. -/
def paramTexts (params : List Fields) : List Text :=
  params.filterMap fun fields =>
    (fields.getD "name").truthy?.map fun name => typedName name (fields.getD "type")

/-- The text of the results of a function. -/
def returnText (returns : List Fields) : Text :=
  match returns.filterMap fun fields => (fields.getD "type").truthy?.map Json.text with
  | [] => "nil"
  | [only] => only
  | types => '(' :: Text.join ", " types ++ [')']

/-- The signature of a function under the given name. -/
def functionSignature (name : Text) (params returns : List Fields) (style : SignatureStyle) :
    Text :=
  let texts := paramTexts params
  let result := ") -> ".toList ++ returnText returns
  if style = .block && 1 < texts.length then
    let lines := texts.map (signatureIndent ++ ·)
    name ++ "(\n".toList ++ Text.join ",\n" lines ++ '\n' :: result
  else
    name ++ '(' :: Text.join ", " texts ++ result

/-- The line of a field in the definition of a type. A field must have a name. -/
def fieldLine (fields : Fields) : Except Failure Text :=
  match fields.get? "name" with
  | some name => .ok (signatureIndent ++ typedName name (fields.getD "type"))
  | none => .error (.missingField "name")

/-- The definition of a type: its value, or else its fields. -/
def typeDefinition (keyword name : Text) (value : Json) (fields : List Fields) :
    Except Failure Text :=
  let head := keyword ++ ' ' :: name ++ " = ".toList
  if value.isTruthy then
    .ok (head ++ value.text)
  else if fields.isEmpty then
    .ok (head ++ "unknown".toList)
  else do
    let lines ← fields.mapM fieldLine
    pure (head ++ "\x7b\n".toList ++ Text.join "\n" lines ++ "\n\x7d".toList)

/-- The address of the source of a symbol, when source links are wanted and its file is known. -/
def sourceUrl? (location : Location) (source : Option SourceLinks) : Option Text :=
  match source with
  | none => none
  | some links =>
    if location.file.isEmpty || links.repository.isEmpty then
      none
    else
      let slashed := location.file.map fun c => if c = '\\' then '/' else c
      let relative :=
        if links.dropped.isEmpty then
          slashed
        else
          match Text.after? links.dropped slashed with
          | some rest => rest.dropWhile (· == '/')
          | none => slashed
      let branch : Text := if links.branch.isEmpty then "main" else links.branch
      let folder := Text.trimWhere (· == '/') links.folder
      let parts := [Text.dropEndWhile (· == '/') links.repository, "blob", branch]
        ++ (if folder.isEmpty then [] else [folder]) ++ [relative]
      let mark := if location.line = 0 then [] else "#L".toList ++ Text.ofInt location.line
      some (Text.join "/" parts ++ mark)

end Page

end LuauReference
