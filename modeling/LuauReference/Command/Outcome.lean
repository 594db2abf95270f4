/-
This file carries out what a command line asks for and says what the program prints and with which
code it ends. Settings and references that cannot be used, and files that the disk refuses, end it
with a message; reported diagnostics do so only when this is asked for.
-/

import LuauReference.Command.Arguments
import LuauReference.Project.Build

namespace LuauReference

namespace Command

/-- What the program leaves behind: the code it ends with and what it has printed. -/
structure Outcome where
  code : Nat
  output : Text := []
  errors : Text := []
  deriving DecidableEq, Repr

/-- The code for reported diagnostics. -/
def exitCode (diagnostics : List Diagnostic) (failOnWarning : Bool) : Nat :=
  if failOnWarning && !diagnostics.isEmpty then 1 else 0

/-! ### Texts -/

/-- A path as it is shown: from the current folder on if it lies below. -/
def shownPath (current path : Path) : Text :=
  ((path.relativeTo? current).getD path).text

/-- The line about a reference that was written. -/
def referenceLine (current : Path) (extracted : Project.Extracted) : Text :=
  "Reference written to ".toList
    ++ (extracted.output.map (shownPath current)).getD "(not written)" ++ ['\n']

/-- The line about rendered pages. -/
def pagesLine (current : Path) (rendered : Project.Rendered) : Text :=
  "Reference pages updated in ".toList ++ shownPath current rendered.folder ++ " (".toList
    ++ Text.ofNat rendered.changes.written.length ++ " written, ".toList
    ++ Text.ofNat rendered.changes.deleted.length ++ " removed)\n".toList

/-- The message about a verb that was refused by the disk. -/
def refusedMessage (verb : Verb) (fault : DiskFault) : Text :=
  Program.name ++ ' ' :: verb.word ++ " failed: ".toList ++ fault.message
    ++ "\nRun with --verbose for more details.\n".toList

/-- The message about reported diagnostics. -/
def reportedMessage (verb : Verb) (count : Nat) : Text :=
  Program.name ++ ' ' :: verb.word ++ " reported ".toList ++ Text.ofNat count
    ++ " diagnostic(s)\n".toList

/-! ### Runs -/

/-- Does what a verb says: the lines that are printed and what is reported. -/
def carryOut (verb : Verb) (settings : Project.Settings) : Run (Text × List Diagnostic) := do
  let current : Path := ⟨1, (← get).disk.start⟩
  match verb with
  | .extract =>
    let extracted ← Project.extract settings true
    pure (referenceLine current extracted, extracted.diagnostics)
  | .render =>
    let rendered ← Project.render settings
    pure (pagesLine current rendered, rendered.changes.diagnostics)
  | .build =>
    let built ← Project.build settings
    pure (referenceLine current built.extracted ++ pagesLine current built.rendered,
      built.diagnostics)

/-- How a run ends: the code, the lines that are printed and the message at the end. Failures that
are not the user's stay failures. -/
def ending (verb : Verb) (path : Text) (failOnWarning : Bool) : Run (Nat × Text × Text) := do
  let settings ← tryCatch (Except.ok <$> Project.settingsAt (Path.read path)) fun failure =>
    match failure with
    | .settings problem => pure (Except.error problem)
    | other => throw other
  match settings with
  | .error problem => pure (1, [], problem.message ++ ['\n'])
  | .ok settings =>
    let outcome ← tryCatch (Except.ok <$> carryOut verb settings) fun failure =>
      match failure with
      | .document problem => pure (Except.error (problem.message ++ ['\n']))
      | .disk fault => pure (Except.error (refusedMessage verb fault))
      | other => throw other
    match outcome with
    | .error message => pure (1, [], message)
    | .ok (printed, diagnostics) =>
      modify fun world =>
        { world with messages := world.messages
            ++ diagnostics.map (Log.ofDiagnostic (Log.originOf "cli")) }
      let code := exitCode diagnostics failOnWarning
      let message := if code = 0 then [] else reportedMessage verb diagnostics.length
      pure (code, printed, message)

/-- Runs the program with the words of a command line. -/
def run (words : List Text) : Run Outcome := do
  match read words with
  | none => pure { code := 2, errors := globalUsage ++ ['\n'] }
  | some (.help none) => pure { code := 0, output := globalHelp }
  | some (.help (some verb)) => pure { code := 0, output := verbHelp verb }
  | some (.run verb path verbose failOnWarning) =>
    modify fun world => { world with messages := [] }
    let (code, printed, message) ← ending verb path failOnWarning
    let console := Log.console verbose (← get).messages
    pure ⟨code, printed, console ++ message⟩

end Command

end LuauReference
