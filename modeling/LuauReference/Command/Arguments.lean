/-
This file reads the arguments of the command line: what to do, for which project, and two switches.
Switches may be shortened as long as they stay clear, and one-letter switches may be joined. After
two hyphens everything is taken for itself. Asking for help wins over faults that come later.
-/

import LuauReference.Text.Named
import LuauReference.Text.Numeral

namespace LuauReference

namespace Command

/-- What can be done with a project. -/
inductive Verb
  | extract
  | render
  | build
  deriving DecidableEq, Repr

/-- The word for what can be done. -/
def Verb.word : Verb → Text
  | .extract => "extract"
  | .render => "render"
  | .build => "build"

/-- All that can be done. -/
def Verb.all : List Verb :=
  [.extract, .render, .build]

/-- What a word says to do. -/
def Verb.ofWord? (word : Text) : Option Verb :=
  Verb.all.find? fun verb => verb.word == word

/-- A switch. -/
inductive Switch
  | help
  | verbose
  | failOnWarning
  deriving DecidableEq, Repr

/-- The switches that can stand before the verb. -/
def globalSwitches : Named Switch :=
  [("-h".toList, .help), ("--help".toList, .help), ("-v".toList, .verbose),
    ("--verbose".toList, .verbose)]

/-- The switches that can stand after the verb. -/
def verbSwitches : Named Switch :=
  globalSwitches ++ [("--fail-on-warning".toList, .failOnWarning)]

/-! ### Words -/

/-- What a word on the command line is. -/
inductive Reading
  | plain
  /-- One switch or several that are joined, and whether letters follow that are none. -/
  | switches (switches : List Switch) (hasExtra : Bool)
  /-- A switch with a value, which none of them takes. -/
  | misused
  /-- A switch that does not exist. -/
  | unknown
  /-- The beginning of several switches. -/
  | ambiguous
  deriving DecidableEq, Repr

/-- The two hyphens after which all words are plain. -/
def endMark : Text := "--"

/-- Whether a word is a negative number, which is plain. -/
def isNegativeNumber (word : Text) : Bool :=
  let isRun (s : Text) : Bool := s.all fun c => (Text.digit? c).isSome
  match (Text.before? ['\n'] word).getD word with
  | '-' :: body =>
    match Text.cut? "." body with
    | some (whole, fraction) => isRun whole && isRun fraction && !fraction.isEmpty
    | none => isRun body && !body.isEmpty
  | _ => false

/-- One-letter switches that are joined: the first one and the letters after it. -/
def joined (known : Named Switch) (first : Switch) : Text → Reading
  | [] => .switches [first] false
  | letter :: rest =>
    if letter == '-' || rest.head? == some '=' && (known.get? ['-', letter]).isSome then
      .misused
    else
      match known.get? ['-', letter] with
      | none => .switches [first] true
      | some next =>
        match joined known next rest with
        | .switches more hasExtra => .switches (first :: more) hasExtra
        | other => other

/-- What a word is that begins with a hyphen, has more than that and is no switch as it stands. -/
def readHyphened (known : Named Switch) (word : Text) : Reading :=
  let (head, value) := match Text.cut? "=" word with
    | some (head, value) => (head, some value)
    | none => (word, none)
  let isLong := Text.startsWith word endMark
  match known.get? head, value with
  | some _, some _ => .misused
  | _, _ =>
    let long := if isLong then known.filter fun (name, _) => Text.startsWith name head else []
    let short := if isLong then none else known.get? (word.take 2)
    match long, short with
    | [(_, switch)], _ => if value.isSome then .misused else .switches [switch] false
    | _ :: _ :: _, _ => .ambiguous
    | [], some switch => joined known switch (word.drop 2)
    | [], none => if isNegativeNumber word || word.contains ' ' then .plain else .unknown

/-- What a word is. -/
def readWord (known : Named Switch) (word : Text) : Reading :=
  match word with
  | '-' :: _ :: _ =>
    match known.get? word with
    | some switch => .switches [switch] false
    | none => readHyphened known word
  | _ => .plain

/-! ### Command lines -/

/-- What a command line asks for: help, about a verb or in general, or a run. -/
inductive Request
  | help (verb : Option Verb)
  | run (verb : Verb) (path : Text) (verbose failOnWarning : Bool)
  deriving DecidableEq, Repr

/-- What the words after the verb have said so far: the path, whether it came directly before, the
switches, and whether there was a word that has no place. -/
structure Said where
  path : Option Text := none
  isFresh : Bool := false
  verbose : Bool := false
  failOnWarning : Bool := false
  hasExtra : Bool := false

/-- Takes a plain word: the first one is the path. -/
def Said.plain (said : Said) (word : Text) : Said :=
  match said.path with
  | none => { said with path := some word, isFresh := true }
  | some _ => { said with isFresh := false, hasExtra := true }

/-- Takes the two hyphens and the words after them. They say nothing before the path or directly
after it. -/
def Said.last (said : Said) (words : List Text) : Said :=
  match said.path with
  | none => words.foldl Said.plain said
  | some _ => { said with hasExtra := said.hasExtra || !said.isFresh || !words.isEmpty }

/-- Takes a switch other than help. -/
def Said.switch (said : Said) : Switch → Said
  | .help => said
  | .verbose => { said with isFresh := false, verbose := true }
  | .failOnWarning => { said with isFresh := false, failOnWarning := true }

/-- What the words after a verb ask for. Nothing is the answer to a command line that is refused. -/
def readVerb (verb : Verb) (verbose hasExtra : Bool) (said : Said) : List Text → Option Request
  | [] => finish said
  | word :: rest =>
    if word = endMark then
      finish (said.last rest)
    else
      match readWord verbSwitches word with
      | .plain => readVerb verb verbose hasExtra (said.plain word) rest
      | .switches switches extra =>
        if switches.contains .help then some (.help (some verb))
        else readVerb verb verbose (hasExtra || extra) (switches.foldl Said.switch said) rest
      | .unknown =>
        readVerb verb verbose hasExtra { said with isFresh := false, hasExtra := true } rest
      | .misused => none
      | .ambiguous => none
where
  /-- What is asked for at the end of the words. -/
  finish (said : Said) : Option Request :=
    if hasExtra || said.hasExtra then none
    else some (.run verb (said.path.getD ".") (verbose || said.verbose) said.failOnWarning)

/-- What the words from the beginning on ask for, up to the verb. -/
def readGlobal (verbose hasExtra : Bool) : List Text → Option Request
  | [] => none
  | word :: rest =>
    if word = endMark then
      none
    else
      match readWord globalSwitches word with
      | .plain => do
        let verb ← Verb.ofWord? word
        readVerb verb verbose hasExtra {} rest
      | .switches switches extra =>
        if switches.contains .help then some (.help none)
        else readGlobal true (hasExtra || extra) rest
      | .unknown => readGlobal verbose true rest
      | .misused => none
      | .ambiguous => none

/-- What a command line asks for. Nothing is the answer to one that is refused, as one is with a
word anywhere that can stand for several switches. -/
def read (words : List Text) : Option Request :=
  let isAmbiguous (word : Text) : Bool := readWord globalSwitches word == .ambiguous
  if (words.takeWhile (· != endMark)).any isAmbiguous then none
  else readGlobal false false words

/-! ### Help -/

/-- Lines as a text. -/
def lines (all : List String) : Text :=
  all.flatMap fun line => line.toList ++ ['\n']

/-- How the program is called. -/
def globalUsage : Text :=
  "usage: luaudoc [-h] [-v] \x7bextract,render,build\x7d ..."

/-- How the program is called with a verb. -/
def verbUsage (verb : Verb) : Text :=
  "usage: luaudoc ".toList ++ verb.word ++ " [-h] [-v] [--fail-on-warning] [path]".toList

/-- The help on the program. -/
def globalHelp : Text :=
  globalUsage ++ ['\n'] ++ lines [
    "",
    "Extract Luau doc comments and render reference pages.",
    "",
    "positional arguments:",
    "  \x7bextract,render,build\x7d",
    "    extract             Extract the reference document from Lua/Luau sources.",
    "    render              Render reference pages from an extracted document.",
    "    build               Extract and render in one pass.",
    "",
    "options:",
    "  -h, --help            show this help message and exit",
    "  -v, --verbose         Increase log verbosity for troubleshooting."]

/-- The help on a verb. -/
def verbHelp (verb : Verb) : Text :=
  verbUsage verb ++ ['\n'] ++ lines [
    "",
    "positional arguments:",
    "  path               Project root or path to .luaudoc.yml (defaults to current",
    "                     directory).",
    "",
    "options:",
    "  -h, --help         show this help message and exit",
    "  -v, --verbose      Increase log verbosity for troubleshooting.",
    "  --fail-on-warning  Exit with a non-zero status when any warning is reported."]

end Command

end LuauReference
