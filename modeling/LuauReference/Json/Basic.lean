/-
This file holds JSON values and the ways in which the library looks at them. Objects keep the order
in which their fields were first written, and a name occurs once. Whole numbers have any size and
are a kind of their own beside the numbers with a fraction.

Fields of a document may hold values of any kind, so looking at one can fail, and which failure it
is belongs to the result: a value that cannot be gone through, one that has no fields, one that
writes no number.
-/

import LuauReference.Failure
import LuauReference.Number.Binary64
import LuauReference.Text.Named

namespace LuauReference

/-- A JSON value. -/
inductive Json
  | null
  | bool (value : Bool)
  | int (value : Int)
  | float (value : Binary64)
  | str (value : Text)
  | arr (items : List Json)
  | obj (fields : List (Text × Json))
  deriving Inhabited

/-- The fields of an object, in order. -/
abbrev Fields := Named Json

/-- The value of a field, null when there is none. -/
def Fields.getD (fields : Fields) (name : Text) : Json :=
  (fields.get? name).getD .null

namespace Json

/-! ### Truth and kinds -/

/-- Whether a value counts as set: not null, not false, not zero and not empty. -/
def isTruthy : Json → Bool
  | null => false
  | bool value => value
  | int value => value != 0
  | float value => !value.isZero
  | str value => !value.isEmpty
  | arr items => !items.isEmpty
  | obj fields => !fields.isEmpty

/-- The fields of an object. -/
def fields? : Json → Option Fields
  | obj fields => some fields
  | _ => none

/-- The characters of a text value. -/
def text? : Json → Option Text
  | str value => some value
  | _ => none

/-- The value itself when it counts as set. -/
def truthy? (value : Json) : Option Json :=
  if value.isTruthy then some value else none

/-- An optional text as a value. -/
def ofText? : Option Text → Json
  | some value => str value
  | none => null

/-! ### Values in prose -/

mutual

/-- The text of a value inside another one: texts are quoted. -/
def quoted : Json → Text
  | null => "None"
  | bool true => "True"
  | bool false => "False"
  | int value => Text.ofInt value
  | float value => value.text
  | str value => Text.quoted value
  | arr items => '[' :: quotedItems items ++ [']']
  | obj fields => '\x7b' :: quotedFields fields ++ ['\x7d']

/-- The items of a list with commas between them. -/
def quotedItems : List Json → Text
  | [] => []
  | [only] => quoted only
  | first :: second :: more => quoted first ++ ',' :: ' ' :: quotedItems (second :: more)

/-- The fields of an object with commas between them. -/
def quotedFields : List (Text × Json) → Text
  | [] => []
  | [(name, value)] => Text.quoted name ++ ':' :: ' ' :: quoted value
  | (name, value) :: next :: more =>
    Text.quoted name ++ ':' :: ' ' :: quoted value ++ ',' :: ' ' :: quotedFields (next :: more)

end

/-- The text of a value on its own: a text is itself. -/
def text : Json → Text
  | str value => value
  | other => quoted other

/-! ### Looking at a value that may be of the wrong kind -/

/-- The objects among the items of a value that is gone through. Going through a text or an object
meets no objects; a number or a truth value cannot be gone through. -/
def objects : Json → Except Failure (List Fields)
  | arr items => .ok (items.filterMap fields?)
  | str _ => .ok []
  | obj _ => .ok []
  | _ => .error .wrongKind

/-- The objects of a value that may be missing. -/
def objectsOrNone (value : Json) : Except Failure (List Fields) :=
  if value.isTruthy then value.objects else .ok []

/-- The fields of a value that must be an object. -/
def asObject : Json → Except Failure Fields
  | obj fields => .ok fields
  | _ => .error .noOperation

/-- The fields of a value that is an object or missing. -/
def asObjectOrNone (value : Json) : Except Failure Fields :=
  if value.isTruthy then value.asObject else .ok []

/-- The whole number that a value stands for. -/
def asInt : Json → Except Failure Int
  | bool value => .ok (if value then 1 else 0)
  | int value => .ok value
  | float .undefined => .error .badValue
  | float value =>
    match value.truncate? with
    | some whole => .ok whole
    | none => .error .unbounded
  | str value =>
    match Text.integer? value with
    | some whole => .ok whole
    | none => .error .badValue
  | _ => .error .wrongKind

/-- The whole number that a value stands for, with a default for a missing one. -/
def asIntOr (default : Int) (value : Json) : Except Failure Int :=
  if value.isTruthy then value.asInt else .ok default

/-- The text of a value, with a default for a missing one. -/
def textOr (default : Text) (value : Json) : Text :=
  if value.isTruthy then value.text else default

end Json

end LuauReference
