/-
This file extracts a reference from the source files of a project. Every file becomes a module with
the symbols that its doc comments describe. The files are taken in the order of their paths seen
from the root of the project, and a file that is found twice, under a link or below both folders,
counts once. What goes wrong with one file is reported and does not stop the others.
-/

import LuauReference.Digest.Sha256
import LuauReference.Program
import LuauReference.Run
import LuauReference.Source.Discovery
import LuauReference.Symbol.Assembly
import LuauReference.Symbol.Inherit

namespace LuauReference

namespace Source

/-- What a reference is extracted from: the folder of sources, the root of the project, which is the
folder above unless it is given, a folder of type declarations, the names of modules that are not to
be taken from their paths, and patterns for what is excluded. -/
structure Request where
  folder : Path
  root : Option Path := none
  types : Option Path := none
  moduleNames : Named Text := []
  excluded : List Text := []
  generatorVersion : Text := []
  luauVersion : Option Text := none

/-- A reference and what was reported while it was extracted. -/
structure Extraction where
  reference : Reference
  diagnostics : List Diagnostic

/-- A source file and the folder below which it was found. -/
structure SourceFile where
  path : Path
  base : Path

/-- Keeps the first of several files with one path. -/
def firstOfEach : List SourceFile → List SourceFile
  | [] => []
  | file :: rest => file :: (firstOfEach rest).filter fun other => other.path != file.path

/-- The source files below several folders, without links on their paths, by their paths seen from
the root. -/
def collect (disk : Disk) (root : Path) (bases : List Path) (patterns : List Text) :
    Except Failure (List SourceFile) := do
  let found ← bases.mapM fun base => do
    let paths ← find disk base patterns
    paths.mapM fun path => do
      return (⟨← disk.resolve (base.join path), base⟩ : SourceFile)
  pure (Text.sortOn (fun file => (file.path.seenFrom root).text) (firstOfEach found.flatten))

/-- The module of a source file with the given text. -/
def moduleOf (moduleNames : Named Text) (root : Path) (file : SourceFile) (content : Text) :
    Module × List Diagnostic :=
  let path := (file.path.seenFrom root).text
  let (symbols, diagnostics) := assemble (Text.sourceLines content) path
  let chosen := (moduleNames.get? path).getD []
  let name := if chosen.isEmpty then withoutSuffix (file.path.seenFrom file.base).text else chosen
  (⟨name, path, Sha256.digest (Text.utf8 content), inheritDocs symbols⟩, diagnostics)

/-- The module of a source file, unless it cannot be read, and what is reported about it. -/
def readModule (disk : Disk) (moduleNames : Named Text) (root : Path) (file : SourceFile) :
    Except Failure (Option Module × List Diagnostic) :=
  match disk.readLossyText file.path with
  | .ok content =>
    let (module_, diagnostics) := moduleOf moduleNames root file content
    .ok (some module_, diagnostics)
  | .error (.disk fault) =>
    .ok (none, [.error (file.path.seenFrom root).text 0
      ("Failed to read source file: ".toList ++ fault.message)])
  | .error failure => .error failure

/-- Extracts a reference. -/
def extract (request : Request) : Run Extraction := do
  let folder ← Run.look (·.resolve request.folder)
  let root ← match request.root with
    | some root => Run.look (·.resolve root)
    | none => pure folder.parent
  let types ← request.types.mapM fun types => Run.look (·.resolve types)
  let files ← Run.look (collect · root (folder :: types.toList) request.excluded)
  Run.log .info "extract" ("Extracting ".toList ++ Text.ofNat files.length
    ++ " source files from ".toList ++ folder.text)
  let found ← files.mapM fun file => Run.look (readModule · request.moduleNames root file)
  let modules := found.filterMap (·.1)
  let diagnostics := found.flatMap (·.2)
  let version :=
    if request.generatorVersion.isEmpty then Program.version else request.generatorVersion
  let reference : Reference := ⟨version, modules, request.luauVersion, schemaVersion⟩
  Run.log .debug "extract" ("Extracted ".toList ++ Text.ofNat reference.symbols.length
    ++ " symbols across ".toList ++ Text.ofNat modules.length ++ " modules (".toList
    ++ Text.ofNat diagnostics.length ++ " diagnostics)".toList)
  pure ⟨reference, diagnostics⟩

end Source

end LuauReference
