import Asm6502.Dictionary
import Asm6502.Include
import Asm6502.Macro.Expansion

/-!
# Building

From source text to an artifact, and from a source file to an object file with its relocation
dictionary. A build is a function of a file tree, and of what goes wrong while it prints and writes:
it gives the tree afterwards, what was printed, and whether it succeeded.

A build reads the source file and the included files, prints the listing, counts the errors, and
writes the object file and then the dictionary. It stops at the first step that fails, and takes
nothing back. A file is emptied when it is opened and then written from its start, so that a write
which fails on the way leaves a beginning of the new contents. A listing that cannot be printed
fails a build before its errors are counted.

## What is assumed

* Files change only through the build. One that can be read is read in full; permissions are known
  by the files that the system refuses to read (`FileTree.unreadable`) and by the faults of writing
  (`Faults`).
* A file is what stands at a location, so only links can lead from two paths to one file. The
  standard output is none of the files.
* What has been printed of a listing that cannot be printed in full ends with a whole character.
* Diagnostics are reported apart from the standard output, and reporting them does not fail.
-/

namespace Asm6502

/-- The files and the directory in which a source text is assembled. -/
structure Setting where
  /-- The files that can be included. -/
  tree : FileTree := {}
  /-- The directory that names of files are looked up from. -/
  base : String := "."
  /-- The files that are being included. -/
  branch : List Location := []

/-- Assemble a source text: expand macros, read statements, replace include statements, run both
passes. -/
def assemble (options : Options) (setting : Setting) (source : String) : Artifact :=
  let (lines, macroDiagnostics) := Macro.expand source
  let (statements, includeDiagnostics) :=
    Include.expand setting.tree setting.base setting.branch (Statement.ofLines lines)
  let artifact := Assembly.run options statements
  { artifact with
    diagnostics := macroDiagnostics ++ includeDiagnostics ++ artifact.diagnostics }

namespace Build

/-- What to build. -/
structure Request where
  /-- The source file. -/
  input : String
  /-- The object file. -/
  output : String
  /-- The options of assembly; a listing is printed. -/
  options : Options := {}
  /-- Where included files are looked for, if not in the directory of the source file. -/
  includeDirectory : Option String := none
  deriving DecidableEq, Repr

/-- What a build writes to. -/
inductive Destination where
  /-- The standard output. -/
  | console
  /-- The file at a path. -/
  | file (path : String)
  deriving DecidableEq, Repr

/-- What goes wrong with each thing that is written, if something does. -/
abbrev Faults := Destination → Option Fault

/-- Why a build failed. -/
inductive Failure where
  /-- The source file cannot be read. -/
  | input (path : String) (error : FileError)
  /-- The program has errors. -/
  | errors (path : String) (count : Nat)
  /-- The listing or an output file cannot be written. -/
  | output (destination : Destination) (error : FileError)
  deriving DecidableEq, Repr

/-- The failure as it is shown. -/
def Failure.message : Failure → String
  | .input path error => "I/O error reading input file " ++ path ++ ": " ++ error.message
  | .errors path count =>
    path ++ ": " ++ Text.decimal count ++ (if count = 1 then " error" else " errors") ++
      " found, no output written"
  | .output .console error => "error writing on stdout: " ++ error.message
  | .output (.file path) error => "I/O error writing output file " ++ path ++ ": " ++ error.message

/-- What a build sets out to do, once it has read its files. -/
structure Plan where
  /-- The listing, which is printed first. -/
  listing : Option String := none
  /-- What was found wrong with the program. -/
  diagnostics : List Diagnostic := []
  /-- The files to write, in this order, with their contents; or why none is written. -/
  writes : Except Failure (List (String × List UInt8))

/-- What a build leaves behind. -/
structure Outcome where
  /-- The files afterwards. -/
  tree : FileTree
  /-- What was printed. -/
  printed : String := ""
  /-- Success or failure. -/
  result : Except Failure Unit

/-- The path of the relocation dictionary of an object file. -/
def dictionaryPath (output : String) : String := output ++ ".rld"

/-- Where included files are looked for. -/
def baseOf (request : Request) : String :=
  match request.includeDirectory with
  | some directory => directory
  | none =>
    let directory := Path.directory request.input
    if directory.isEmpty then "." else directory

/-- The location and the text of the source file. -/
def readInput (tree : FileTree) (request : Request) : Except FileError (Location × String) := do
  let location ← tree.locate request.input
  let source ← tree.textAt location
  return (location, source)

theorem readInput_eq_ok_iff {tree : FileTree} {request : Request} {location : Location}
    {source : String} :
    readInput tree request = .ok (location, source) ↔
      tree.locate request.input = .ok location ∧ tree.textAt location = .ok source := by
  rw [readInput]
  constructor
  · intro read
    cases located : tree.locate request.input with
    | error error =>
      rw [located] at read
      cases read
    | ok place =>
      rw [located] at read
      cases found : tree.textAt place with
      | error error =>
        simp only [bind, Except.bind, found] at read
        cases read
      | ok text =>
        simp only [bind, Except.bind, found] at read
        cases read
        exact ⟨rfl, found⟩
  · rintro ⟨located, found⟩
    rw [located]
    simp only [bind, Except.bind, found]
    rfl

/-- The artifact of the source file with the given location and text. The source file counts as
being included. -/
def artifactOf (tree : FileTree) (request : Request) (location : Location) (source : String) :
    Artifact :=
  assemble request.options { tree, base := baseOf request, branch := [location] } source

/-- The files of an artifact: the object file, and for a relocatable program the dictionary. -/
def filesOf (output : String) (artifact : Artifact) : List (String × List UInt8) :=
  (output, artifact.bytes) ::
    if artifact.relocatable then
      [(dictionaryPath output, textBytes (Dictionary.ofArtifact artifact).render)]
    else []

/-- What a build sets out to do. The listing is printed also if the program has errors; files are
written only if it has none. -/
def plan (tree : FileTree) (request : Request) : Plan :=
  match readInput tree request with
  | .error error => { writes := .error (.input request.input error) }
  | .ok (location, source) =>
    let artifact := artifactOf tree request location source
    { listing := artifact.listing
      diagnostics := artifact.diagnostics
      writes :=
        if artifact.errors.isEmpty then .ok (filesOf request.output artifact)
        else .error (.errors request.input artifact.errors.length) }

/-- Print a listing, if there is one: what is printed, and if this fails. -/
def print (faults : Faults) : Option String → String × Except Failure Unit
  | none => ("", .ok ())
  | some listing =>
    match faults .console with
    | none => (listing, .ok ())
    | some fault =>
      (String.ofList (listing.toList.take fault.count), .error (.output .console fault.error))

/-- Write files one after another, up to the first that cannot be written. -/
def writeAll (faults : Faults) (tree : FileTree) :
    List (String × List UInt8) → FileTree × Except Failure Unit
  | [] => (tree, .ok ())
  | (path, bytes) :: rest =>
    match tree.write path bytes (faults (.file path)) with
    | (written, .ok ()) => writeAll faults written rest
    | (written, .error error) => (written, .error (.output (.file path) error))

/-- Build an object file in a file tree. -/
def run (tree : FileTree) (request : Request) (faults : Faults := fun _ => none) : Outcome :=
  let plan := plan tree request
  match print faults plan.listing with
  | (printed, .error failure) => { tree, printed, result := .error failure }
  | (printed, .ok ()) =>
    match plan.writes with
    | .error failure => { tree, printed, result := .error failure }
    | .ok files =>
      let (written, result) := writeAll faults tree files
      { tree := written, printed, result }

/-- The paths that a build would read and does not find. -/
def wanted (tree : FileTree) (request : Request) : List String :=
  let plan := plan tree request
  let input :=
    match plan.writes with
    | .error (.input path .notFound) => [path]
    | _ => []
  input ++ plan.diagnostics.filterMap fun diagnostic =>
    match diagnostic.cause with
    | .includeFailed path .notFound => some path
    | _ => none

end Build

end Asm6502
