/-!
# Paths

A path is a sequence of names between slashes. Paths are shown as they are put together and are not
brought into a normal form.
-/

namespace Asm6502.Path

/-- The names of a path; empty ones stand beside a slash at an end or after another slash. -/
def names (path : String) : List String := (path.toList.splitOn '/').map String.ofList

/-- The path made of names. -/
def ofNames (names : List String) : String := "/".intercalate names

/-- The path starts at the root. -/
def isAbsolute (path : String) : Bool := path.toList.head? == some '/'

/-- `name` as seen from the directory `base`; an absolute name stands for itself. -/
def join (base name : String) : String :=
  if isAbsolute name then name
  else if base.isEmpty || base.toList.getLast? == some '/' then base ++ name
  else base ++ "/" ++ name

/-- The name leaves a directory where it is. -/
def isIdle (name : String) : Bool := name.isEmpty || name == "."

/-- The name is that of a file or directory, and does not stand for another place. -/
def isProper (name : String) : Bool := !isIdle name && name != ".." && !name.toList.contains '/'

/-- The directory part of a path that names a file: the path without its last name and without the
idle names before that. The first name always stays, as it tells where the path starts. -/
def directory (path : String) : String :=
  match (names path).dropLast with
  | [] => ""
  | first :: inner =>
    match (inner.reverse.dropWhile isIdle).reverse with
    | [] => if first.isEmpty then "/" else first
    | kept => ofNames (first :: kept)

end Asm6502.Path
