/-
This file holds the warnings and errors that a run reports beside its result. They are collected and
never stop a run.
-/

import LuauReference.Text.Numeral

namespace LuauReference

/-- A warning or an error at a line of a file. -/
structure Diagnostic where
  level : Text
  file : Text
  line : Int
  message : Text
  deriving DecidableEq, Repr

namespace Diagnostic

/-- A warning. -/
def warning (file : Text) (line : Int) (message : Text) : Diagnostic :=
  ⟨"warning", file, line, message⟩

/-- An error. -/
def error (file : Text) (line : Int) (message : Text) : Diagnostic :=
  ⟨"error", file, line, message⟩

/-- Whether a diagnostic is an error. -/
def isError (diagnostic : Diagnostic) : Bool :=
  diagnostic.level == "error".toList

/-- Whether a diagnostic is a warning. -/
def isWarning (diagnostic : Diagnostic) : Bool :=
  diagnostic.level == "warning".toList

/-- A diagnostic on one line: file, line, level and message. -/
def format (diagnostic : Diagnostic) : Text :=
  diagnostic.file ++ ':' :: Text.ofInt diagnostic.line ++ ": ".toList ++ diagnostic.level
    ++ ": ".toList ++ diagnostic.message

/-! ### Wordings -/

/-- A member is documented in a file without a class. -/
def missingClass : Text := "@class missing for this file."

/-- A member is documented in a file with several classes. -/
def ambiguousOwner : Text := "@within missing for ambiguous class ownership."

/-- Something other than a property is marked as read only. -/
def readonlyMisuse : Text := "@readonly used on non-property symbol."

/-- The documented parameters are not the declared ones. -/
def paramMismatch : Text := "@param does not match function parameters."

end Diagnostic

end LuauReference
