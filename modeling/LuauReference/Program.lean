/-
This file holds the names under which the program appears in what it writes.
-/

import LuauReference.Text.Basic

namespace LuauReference

namespace Program

/-- The name of the program. -/
def name : Text := "luaudoc"

/-- The version of the program. -/
def version : Text := "0.1.0"

/-- The name and the version, as pages show them. -/
def generator : Text :=
  name ++ ' ' :: version

end Program

end LuauReference
