/-
This file reads the head of a function declaration: the two ways of writing one, with the function
keyword in front or as an assignment, the parameters and the type of the result. A function with an
owner whose first parameter is the receiver counts as a method, however its name is written.
-/

import LuauReference.Declaration.Basic
import LuauReference.Declaration.Brackets
import LuauReference.Doc.Tag

namespace LuauReference

namespace Declaration

/-! ### Parameters -/

/-- A parameter from its text. Three dots stand for all further arguments. -/
def paramOf (token : Text) : Param :=
  match Text.after? "..." token with
  | some rest => ⟨"...", Doc.nonEmpty? (Text.trim (rest.dropWhile (· == ':')))⟩
  | none =>
    let name := ((Text.identifier? token).map Prod.fst).getD token
    match Text.cut? ":" token with
    | some (_, type) => ⟨name, Doc.nonEmpty? (Text.trim (beforeDefault 0 none type))⟩
    | none => ⟨name, none⟩

/-- The parameters of a parameter list. -/
def paramsOf (text : Text) : List Param :=
  (splitTopLevel "," text).map paramOf

/-! ### Function heads -/

/-- Characters of a name with owners, where colons may stand. -/
def isPathChar (c : Char) : Bool :=
  Text.isWordChar c || c == '.' || c == ':'

/-- Characters of a name with owners. -/
def isDottedChar (c : Char) : Bool :=
  Text.isWordChar c || c == '.'

/-- What follows an opening parenthesis. -/
def afterParen? : Text → Option Text
  | '(' :: rest => some rest
  | _ => none

/-- The name of a function that is declared by keyword, and what follows its parenthesis. -/
def keywordHead? (s : Text) : Option (Text × Text) := do
  let afterFunction ← afterKeyword? "function" (skipKeyword "local" s)
  let (path, tail) ← Text.run? Text.isWordStart isPathChar afterFunction
  let body ← afterParen? (skipGenerics tail)
  pure (path, body)

/-- The name that a function is assigned to, and what follows its parenthesis. -/
def assignedHead? (s : Text) : Option (Text × Text) := do
  let (path, tail) ← Text.run? Text.isWordStart isDottedChar s
  let value ← Text.after? "=" (Text.trimStart tail)
  let afterFunction ← Text.after? "function" (Text.trimStart value)
  let body ← afterParen? (skipGenerics afterFunction)
  pure (path, body)

/-- The type after the colon that may follow a parameter list. -/
def resultType? (tail : Text) : Option Text :=
  match Text.trim tail with
  | ':' :: type => Doc.nonEmpty? (Text.trim type)
  | _ => none

/-- The signature with a given name, from what follows the opening parenthesis. -/
def signatureOf? (path body : Text) : Option Signature :=
  (closeParens? 1 body).map fun (inner, tail) =>
    let params := paramsOf inner
    let member := Doc.splitOwner path
    let owned := match member.within with
      | some owner => !owner.isEmpty
      | none => false
    let takesSelf := params.head?.map Param.name == some "self".toList
    ⟨member.name, member.within, member.isMethod || (owned && takesSelf), params, resultType? tail⟩

/-- The signature of a line that declares a function. -/
def signature (line : Text) : Option Signature :=
  let trimmed := Text.trim line
  match keywordHead? trimmed with
  | some (path, body) => signatureOf? path body
  | none =>
    match assignedHead? trimmed with
    | some (path, body) => signatureOf? path body
    | none => none

end Declaration

end LuauReference
