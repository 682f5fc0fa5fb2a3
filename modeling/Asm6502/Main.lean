import Asm6502.CommandLine

/-!
# The program

Reads the files that a build asks for, reports the diagnostics, prints the listing, and writes the
output files.
-/

namespace Asm6502

/-- An error of the system. -/
def FileError.ofSystem : IO.Error → FileError
  | .noFileOrDirectory .. => .notFound
  | error => .system (toString error)

/-- The tree with the file at a location, or with what the system says against reading it. -/
def loadFile (tree : FileTree) (place : Location) : IO FileTree := do
  try
    return tree.set place (← IO.FS.readBinFile place.path).toList
  catch error =>
    let refused := (place, FileError.ofSystem error)
    return { tree.set place [] with unreadable := refused :: tree.unreadable }

/-- The tree with what stands on the way of a path, as far as it can be followed. The disk tells of
each name where it leads, and so which of them are links. -/
def loadPath (tree : FileTree) (path : String) : IO FileTree := do
  let mut tree := tree
  let mut place := tree.workingDirectory.start path
  for name in Path.names path do
    let next := place.follow name
    try
      let real ← IO.FS.realPath next.path
      place := Location.root.along real.toString
      if place != next then
        tree := tree.put next (.link place.path)
      if ← real.isDir then
        tree := tree.put place .directory
      else
        tree ← loadFile tree place
    catch _ =>
      return tree
  return tree

/-- The file tree with the files that a build asks for. Each path is tried once. -/
partial def loadFiles (request : Build.Request) (tree : FileTree) (tried : List String) :
    IO FileTree := do
  let paths := (Build.wanted tree request).filter (!tried.contains ·)
  if paths.isEmpty then
    return tree
  loadFiles request (← paths.foldlM loadPath tree) (paths ++ tried)

/-- Write the files of a build, up to the first that cannot be written. -/
def writeFiles : List (String × List UInt8) → IO (Except Build.Failure Unit)
  | [] => return .ok ()
  | (path, bytes) :: rest => do
    try
      IO.FS.writeBinFile path bytes.toByteArray
    catch error =>
      return .error (.output (.file path) (.ofSystem error))
    writeFiles rest

/-- Print a listing, if there is one. -/
def printListing : Option String → IO (Except Build.Failure Unit)
  | none => return .ok ()
  | some listing => do
    try
      let console ← IO.getStdout
      console.putStr listing
      console.flush
      return .ok ()
    catch error =>
      return .error (.output .console (.ofSystem error))

/-- Print and write what a build sets out to. -/
def carryOut (plan : Build.Plan) : IO (Except Build.Failure Unit) := do
  match ← printListing plan.listing with
  | .error failure => return .error failure
  | .ok () =>
    match plan.writes with
    | .error failure => return .error failure
    | .ok files => writeFiles files

/-- Carry out a build. -/
def build (request : Build.Request) : IO UInt32 := do
  let workingDirectory := Location.root.along (← IO.currentDir).toString
  let plan := Build.plan (← loadFiles request { workingDirectory } []) request
  for diagnostic in plan.diagnostics do
    IO.eprintln diagnostic.display
  match ← carryOut plan with
  | .ok () => return 0
  | .error failure =>
    IO.eprintln failure.message
    return 1

end Asm6502

/-- The program. -/
def main (arguments : List String) : IO UInt32 := do
  match Asm6502.CommandLine.parse arguments with
  | .ok request => Asm6502.build request
  | .error misuse =>
    IO.eprintln misuse.message
    return 2
