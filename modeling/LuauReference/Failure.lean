/-
This file lists all the ways in which the library can fail, by cause, and words the three that are
shown to the user: a settings file that cannot be used, a reference document that cannot be used
and a file operation that the disk refused. The other causes come from values of the wrong shape
inside an otherwise well-formed document.
-/

import LuauReference.Text.Quoted

namespace LuauReference

/-- Why the disk refused an operation. What is refused for want of a right, of room or of a device
that works is none of these: whoever runs the program may look at and change all that is on the
disk, and there is always room. -/
inductive DiskCause
  | notFound
  | alreadyExists
  | notDirectory
  | isDirectory
  | notEmpty
  | nameTooLong
  | tooManyLinks
  deriving DecidableEq, Repr

/-- The number under which a cause is reported. -/
def DiskCause.code : DiskCause → Nat
  | .notFound => 2
  | .alreadyExists => 17
  | .notDirectory => 20
  | .isDirectory => 21
  | .nameTooLong => 36
  | .notEmpty => 39
  | .tooManyLinks => 40

/-- The words for a cause. -/
def DiskCause.words : DiskCause → Text
  | .notFound => "No such file or directory"
  | .alreadyExists => "File exists"
  | .notDirectory => "Not a directory"
  | .isDirectory => "Is a directory"
  | .nameTooLong => "File name too long"
  | .notEmpty => "Directory not empty"
  | .tooManyLinks => "Too many levels of symbolic links"

/-- A refused disk operation: the cause and the path as it was given. -/
structure DiskFault where
  cause : DiskCause
  path : Text
  deriving DecidableEq, Repr

/-- The wording of a refused disk operation. -/
def DiskFault.message (fault : DiskFault) : Text :=
  "[Errno ".toList ++ Text.ofNat fault.cause.code ++ "] ".toList ++ fault.cause.words
    ++ ": ".toList ++ Text.quoted fault.path

/-- What is wrong with a settings file. -/
inductive SettingsProblem
  | malformed (file detail : Text)
  | rootNotMapping (file : Text)
  deriving DecidableEq, Repr

/-- The wording of a problem with a settings file. -/
def SettingsProblem.message : SettingsProblem → Text
  | .malformed file detail => "Failed to parse ".toList ++ file ++ ": ".toList ++ detail
  | .rootNotMapping file => file ++ " must contain a mapping at the root".toList

/-- What is wrong with a reference document. -/
inductive DocumentProblem
  | malformed (detail : Text)
  | rootNotObject
  | absent (path : Text)
  | unreadable (path : Text) (fault : DiskFault)
  | notConfigured
  deriving DecidableEq, Repr

/-- The wording of a problem with a reference document. -/
def DocumentProblem.message : DocumentProblem → Text
  | .malformed detail => "Reference document is not valid JSON: ".toList ++ detail
  | .rootNotObject => "Reference document must contain an object at the root"
  | .absent path => "Reference document not found: ".toList ++ path
  | .unreadable path fault =>
    "Failed to read reference document ".toList ++ path ++ ": ".toList ++ fault.message
  | .notConfigured => "No reference document configured for rendering"

/-- All causes of failure. -/
inductive Failure
  /-- A value is of a kind that the operation does not take. -/
  | wrongKind
  /-- A value is of a kind that does not have the operation at all. -/
  | noOperation
  /-- An object lacks a field that it must have. -/
  | missingField (name : Text)
  /-- A value of the right kind does not write what it should: a number, a date, a path. -/
  | badValue
  /-- A position lies outside of what it points into. -/
  | outOfRange
  /-- An infinite number stands where a whole number is needed. -/
  | unbounded
  /-- The bytes of a file are no text. -/
  | invalidUtf8
  /-- A symbolic link leads back to itself. -/
  | linkLoop
  /-- A path begins at the home folder of a user who has none. -/
  | noHome
  | settings (problem : SettingsProblem)
  | document (problem : DocumentProblem)
  | disk (fault : DiskFault)
  deriving DecidableEq, Repr

/-- The wording of a failure. -/
def Failure.message : Failure → Text
  | .wrongKind => "a value is of the wrong kind"
  | .noOperation => "a value is of a kind that cannot be used here"
  | .missingField name => "missing field: ".toList ++ name
  | .badValue => "a value is not valid"
  | .outOfRange => "a position is out of range"
  | .unbounded => "a number is infinite"
  | .invalidUtf8 => "a file is not valid UTF-8"
  | .linkLoop => "a symbolic link leads back to itself"
  | .noHome => "could not determine the home folder"
  | .settings problem => problem.message
  | .document problem => problem.message
  | .disk fault => fault.message

end LuauReference
