import Asm6502.File.Path

/-!
# File trees

A file tree is what a build finds on a disk: files with their contents, directories, symbolic links,
and the directory that relative paths start from. A path is resolved name by name. A link on the way
is replaced by its target, and no more links are followed than the system allows. What is found has
one location, the names that lead to it from the root with no link among them. So all paths to a
file have the same location: relative ones and absolute ones, and those that go up or over links.

The directories are the root, the working directory, those that are listed as such, and those above
anything that is listed. Each location has contents of its own, so a file with two names that are
not links is two files here. Names of any length are allowed.
-/

namespace Asm6502

/-- Why a file cannot be read or written. -/
inductive FileError where
  /-- A name on the path does not exist. -/
  | notFound
  /-- The path goes on after a file. -/
  | notDirectory
  /-- The path names a directory. -/
  | isDirectory
  /-- The path goes over too many links. -/
  | tooManyLinks
  /-- The file is not UTF-8 text. -/
  | notText
  /-- Any other error of the system, as it is shown. -/
  | system (text : String)
  deriving DecidableEq, Repr

/-- The error as messages show it. -/
def FileError.message : FileError → String
  | .notFound => "No such file or directory (os error 2)"
  | .notDirectory => "Not a directory (os error 20)"
  | .isDirectory => "Is a directory (os error 21)"
  | .tooManyLinks => "Too many levels of symbolic links (os error 40)"
  | .notText => "stream did not contain valid UTF-8"
  | .system text => text

/-- What goes wrong when something is written. -/
inductive Fault where
  /-- It cannot be opened, and stays as it is. -/
  | refused (error : FileError)
  /-- It is opened, a file is emptied, and then no more than so much of what is written gets
  there. -/
  | cut (count : Nat) (error : FileError)
  deriving DecidableEq, Repr

namespace Fault

/-- The error that the system gives. -/
def error : Fault → FileError
  | .refused error | .cut _ error => error

/-- How much of what is written gets there. -/
def count : Fault → Nat
  | .refused _ => 0
  | .cut count _ => count

end Fault

/-- A place in a file tree. -/
structure Location where
  /-- The names that lead to it from the root, the last one first. -/
  names : List String := []
  /-- None of them goes up or stays. -/
  proper : names.all Path.isProper = true := by rfl
  deriving DecidableEq, Repr

namespace Location

/-- The root. -/
def root : Location := {}

/-- The directory that a location lies in; the root lies in itself. -/
def parent (location : Location) : Location where
  names := location.names.tail
  proper := List.all_eq_true.mpr fun name listed =>
    List.all_eq_true.mp location.proper name (List.mem_of_mem_tail listed)

/-- The location of a name in a directory. -/
def child (location : Location) (name : String) (proper : Path.isProper name = true) :
    Location where
  names := name :: location.names
  proper := by rw [List.all_cons, proper, location.proper]; rfl

/-- The location that one name of a path leads to, if there is no link. -/
def follow (location : Location) (name : String) : Location :=
  if proper : Path.isProper name = true then location.child name proper
  else if name = ".." then location.parent
  else location

/-- Where a path starts that is looked up from a location. -/
def start (location : Location) (path : String) : Location :=
  if Path.isAbsolute path then root else location

/-- The location that a path leads to, if there is no link. -/
def along (location : Location) (path : String) : Location :=
  (Path.names path).foldl follow (location.start path)

/-- `inner` is the location itself or lies in it. -/
def contains (location inner : Location) : Bool := location.names.isSuffixOf inner.names

/-- The path of a location from the root. -/
def path (location : Location) : String := "/" ++ Path.ofNames location.names.reverse

/-- The directory that a build is in if no other is given. -/
def work : Location := { names := ["work", "home"] }

end Location

/-- What stands at a location. -/
inductive FileTree.Entry where
  /-- A file with its contents. -/
  | file (bytes : List UInt8)
  /-- A directory. -/
  | directory
  /-- A symbolic link to a path. -/
  | link (target : String)
  deriving DecidableEq, Repr

/-- The directory that an entry shows to be there. -/
def FileTree.Entry.directoryAt (location : Location) : FileTree.Entry → Location
  | .directory => location
  | _ => location.parent

/-- Files, directories and links. -/
structure FileTree where
  /-- The directory that relative paths start from. -/
  workingDirectory : Location := .work
  /-- What is there, by location. -/
  entries : List (Location × FileTree.Entry) := []
  /-- The files that the system refuses to read, and why. -/
  unreadable : List (Location × FileError) := []
  deriving DecidableEq, Repr

namespace FileTree

/-- The location is a directory. -/
def isDirectory (tree : FileTree) (location : Location) : Bool :=
  location.contains tree.workingDirectory ||
    tree.entries.any fun (place, entry) => location.contains (entry.directoryAt place)

/-- What stands at a location. -/
def lookup? (tree : FileTree) (location : Location) : Option Entry :=
  if tree.isDirectory location then some .directory else tree.entries.lookup location

/-- The contents of the file at a location. -/
def file? (tree : FileTree) (location : Location) : Option (List UInt8) :=
  match tree.lookup? location with
  | some (.file bytes) => some bytes
  | _ => none

/-- The tree with an entry at a location. -/
def put (tree : FileTree) (location : Location) (entry : Entry) : FileTree :=
  { tree with entries := (location, entry) :: tree.entries.filter (·.1 != location) }

/-- The tree with the given contents at a location. -/
def set (tree : FileTree) (location : Location) (bytes : List UInt8) : FileTree :=
  tree.put location (.file bytes)

/-- The tree of entries at paths, with the directories above them. -/
def ofEntries (entries : List (String × Entry)) : FileTree :=
  entries.foldl (fun tree (path, entry) => tree.put (tree.workingDirectory.along path) entry) {}

/-- The tree of files at paths, with the directories above them. -/
def ofFiles (files : List (String × List UInt8)) : FileTree :=
  ofEntries (files.map fun (path, bytes) => (path, .file bytes))

/-! ### Resolving paths -/

/-- Follow names from a location up to the first link, and go on with `onLink` from where the link
leads, with the names that are left. If a file is to be made (`making`), the last name may be
missing, and a slash must not follow it. -/
def walkNames (tree : FileTree) (making : Bool)
    (onLink : Location → List String → Except FileError Location) :
    Location → List String → Except FileError Location
  | location, [] => .ok location
  | location, name :: names =>
    if !tree.isDirectory location then .error .notDirectory
    else if making && !names.isEmpty && names.all String.isEmpty then .error .isDirectory
    else
      match tree.lookup? (location.follow name) with
      | none =>
        if making && names.isEmpty then .ok (location.follow name) else .error .notFound
      | some (.link target) => onLink (location.start target) (Path.names target ++ names)
      | some _ => walkNames tree making onLink (location.follow name) names

/-- Follow names from a location, over at most so many links. -/
def walk (tree : FileTree) (making : Bool) : (links : Nat) → Location → List String →
    Except FileError Location
  | 0 => tree.walkNames making fun _ _ => .error .tooManyLinks
  | links + 1 => tree.walkNames making (tree.walk making links)

/-- The most links that are followed for one path. -/
def linkLimit : Nat := 40

/-- The location that a path leads to. If a file is to be made there, its name may be missing. -/
def resolve (tree : FileTree) (making : Bool) (path : String) : Except FileError Location :=
  if path.isEmpty then .error .notFound
  else tree.walk making linkLimit (tree.workingDirectory.start path) (Path.names path)

/-- The location of the file or directory that a path names. -/
def locate (tree : FileTree) (path : String) : Except FileError Location := tree.resolve false path

/-- The location of the file that is written if a path is written to, whether it is there or
not. -/
def destination (tree : FileTree) (path : String) : Except FileError Location := do
  let location ← tree.resolve true path
  if tree.isDirectory location then .error .isDirectory else .ok location

/-! ### Reading and writing -/

/-- The contents at an existing location. -/
def bytesAt (tree : FileTree) (location : Location) : Except FileError (List UInt8) :=
  match tree.file? location with
  | some bytes => .ok bytes
  | none => .error .isDirectory

/-- What is read at an existing location, as text. -/
def textAt (tree : FileTree) (location : Location) : Except FileError String :=
  match tree.unreadable.lookup location with
  | some error => .error error
  | none => do
    let bytes ← tree.bytesAt location
    match String.fromUTF8? bytes.toByteArray with
    | some text => .ok text
    | none => .error .notText

/-- The contents of the file that a path names. -/
def readBytes (tree : FileTree) (path : String) : Except FileError (List UInt8) := do
  tree.bytesAt (← tree.locate path)

/-- The text of the file that a path names. -/
def readText (tree : FileTree) (path : String) : Except FileError String := do
  tree.textAt (← tree.locate path)

/-- Write a file, in place of one that is there, and say if this failed. -/
def write (tree : FileTree) (path : String) (bytes : List UInt8) (fault : Option Fault) :
    FileTree × Except FileError Unit :=
  match tree.destination path with
  | .error error => (tree, .error error)
  | .ok location =>
    match fault with
    | none => (tree.set location bytes, .ok ())
    | some (.refused error) => (tree, .error error)
    | some (.cut count error) => (tree.set location (bytes.take count), .error error)

/-- A file is an entry of the tree. -/
theorem mem_entries_of_file? {tree : FileTree} {location : Location} {bytes : List UInt8}
    (found : tree.file? location = some bytes) : (location, .file bytes) ∈ tree.entries := by
  unfold file? lookup? at found
  by_cases directory : tree.isDirectory location = true
  · simp [directory] at found
  · rw [if_neg directory] at found
    cases listed : tree.entries.lookup location with
    | none => simp [listed] at found
    | some entry =>
      obtain ⟨before, after, split, -⟩ := List.lookup_eq_some_iff.mp listed
      cases entry with
      | file content =>
        obtain rfl : content = bytes := by simpa [listed] using found
        simp [split]
      | directory => simp [listed] at found
      | link target => simp [listed] at found

/-- A text that can be read is that of a file. -/
theorem exists_file?_of_textAt {tree : FileTree} {location : Location} {text : String}
    (readable : tree.textAt location = .ok text) : ∃ bytes, tree.file? location = some bytes := by
  unfold textAt bytesAt at readable
  split at readable
  · cases readable
  · cases found : tree.file? location with
    | none => simp [found, bind, Except.bind] at readable
    | some bytes => exact ⟨bytes, rfl⟩

end FileTree

end Asm6502
