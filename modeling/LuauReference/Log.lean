/-
This file holds the messages that a run logs and the two forms in which they are written: a short
one for the console and one with time and origin for a log file. Messages below the chosen level are
not written.
-/

import LuauReference.Program
import LuauReference.Symbol.Diagnostic

namespace LuauReference

namespace Log

/-- How important a message is. -/
inductive Level
  | debug
  | info
  | warning
  | error
  deriving DecidableEq, Repr

/-- The number of a level; more important levels have greater numbers. -/
def Level.number : Level → Nat
  | .debug => 10
  | .info => 20
  | .warning => 30
  | .error => 40

/-- The word for a level. -/
def Level.word : Level → Text
  | .debug => "DEBUG"
  | .info => "INFO"
  | .warning => "WARNING"
  | .error => "ERROR"

/-- A message with its level and the part of the program it comes from. -/
structure Message where
  level : Level
  origin : Text
  text : Text
  deriving DecidableEq, Repr

/-- The least level that is written. -/
def threshold (verbose : Bool) : Level :=
  if verbose then .debug else .info

/-- The full name of a part of the program; the program itself for no part. -/
def originOf (part : Text) : Text :=
  if part.isEmpty then Program.name else Program.name ++ '.' :: part

/-- The messages that are written. -/
def shown (verbose : Bool) (messages : List Message) : List Message :=
  messages.filter fun message => (threshold verbose).number ≤ message.level.number

/-- A message on the console. -/
def consoleLine (message : Message) : Text :=
  '[' :: Program.name ++ "] ".toList ++ message.level.word ++ ' ' :: message.text ++ ['\n']

/-- What is written to the console. -/
def console (verbose : Bool) (messages : List Message) : Text :=
  (shown verbose messages).flatMap consoleLine

/-- A message in a log file, after the time at which it was written. -/
def fileLine (time : Text) (message : Message) : Text :=
  time ++ ' ' :: message.level.word ++ ' ' :: message.origin ++ ": ".toList ++
    message.text ++ ['\n']

/-- What is written to a log file. -/
def file (time : Text) (verbose : Bool) (messages : List Message) : Text :=
  (shown verbose messages).flatMap (fileLine time)

/-- The message for a diagnostic: an error is logged as one and all else as a warning. -/
def ofDiagnostic (origin : Text) (diagnostic : Diagnostic) : Message :=
  ⟨if diagnostic.isError then .error else .warning, origin, diagnostic.format⟩

end Log

end LuauReference
