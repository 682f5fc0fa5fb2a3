import Asm6502.Diagnostic
import Asm6502.Statement.Parse

/-!
# Included files

An include statement is replaced by the statements of the file it names, with the include statements
among them replaced in turn. Names are looked up from the directory of the file they stand in. A
file that is being included already, and a file that cannot be read, is reported and contributes
no statement. Files are told apart by their locations, and those that are being included exist: a
path that leads nowhere names none of them.

Inclusion ends because a file is never included within itself, so every level leaves fewer files to
include.
-/

namespace Asm6502.Include

/-- The file name that an include statement gives. -/
def target? (statement : Statement) : Option String :=
  let name :=
    match statement.string? with
    | some text => Text.trimmed text
    | none => Text.trimmed (Text.unquote statement.operandText)
  if name.isEmpty then none else some name

/-- The number of entries that are not on a branch of inclusions. -/
def remaining (tree : FileTree) (branch : List Location) : Nat :=
  (tree.entries.filter fun entry => !branch.contains entry.1).length

/-- Reading a file that is not on the branch leaves fewer entries. -/
theorem remaining_cons_lt {tree : FileTree} {branch : List Location} {location : Location}
    {text : String} (fresh : ¬ location ∈ branch) (readable : tree.textAt location = .ok text) :
    remaining tree (location :: branch) < remaining tree branch := by
  obtain ⟨bytes, found⟩ := FileTree.exists_file?_of_textAt readable
  have mem := FileTree.mem_entries_of_file? found
  have narrowed :
      (tree.entries.filter fun entry => !(location :: branch).contains entry.1) =
        (tree.entries.filter fun entry => !branch.contains entry.1).filter (·.1 ≠ location) := by
    rw [List.filter_filter]
    congr 1
    funext entry
    simp
  unfold remaining
  rw [narrowed, List.length_filter_lt_length_iff_exists]
  exact ⟨(location, .file bytes), by simp [mem, fresh], by simp⟩

/-- The statements that stand in the place of one statement, and what was found wrong. `base` is
the directory that names are looked up from; `branch` holds the files that are being included. -/
def expandStatement (tree : FileTree) (base : String) (branch : List Location)
    (statement : Statement) : List Statement × List Diagnostic :=
  let fail (cause : Cause) : List Statement × List Diagnostic :=
    ([], [⟨cause, some statement.position⟩])
  if statement.directive? ≠ some .includeFile then ([statement], [])
  else
    match target? statement with
    | none => fail .fileNameMissing
    | some name =>
      let path := Path.join base name
      match tree.locate path with
      | .error error => fail (.includeFailed path error)
      | .ok location =>
        if location ∈ branch then fail (.circularInclude path)
        else
          match _ : tree.textAt location with
          | .error error => fail (.includeFailed path error)
          | .ok text =>
            let parts :=
              (Statement.ofSource text).map
                (expandStatement tree (Path.directory path) (location :: branch))
            (parts.flatMap (·.1), parts.flatMap (·.2))
termination_by remaining tree branch
decreasing_by exact remaining_cons_lt ‹_› ‹_›

/-- The statements with all include statements replaced, and what was found wrong. -/
def expand (tree : FileTree) (base : String) (branch : List Location)
    (statements : List Statement) : List Statement × List Diagnostic :=
  let parts := statements.map (expandStatement tree base branch)
  (parts.flatMap (·.1), parts.flatMap (·.2))

/-- A statement that includes nothing stays. -/
theorem expandStatement_of_ne {statement : Statement}
    (other : statement.directive? ≠ some .includeFile) (tree : FileTree) (base : String)
    (branch : List Location) :
    expandStatement tree base branch statement = ([statement], []) := by
  rw [expandStatement]
  simp [other]

@[simp] theorem expand_nil (tree : FileTree) (base : String) (branch : List Location) :
    expand tree base branch [] = ([], []) := rfl

/-- Statements are replaced one by one. -/
theorem expand_cons (tree : FileTree) (base : String) (branch : List Location)
    (statement : Statement) (statements : List Statement) :
    expand tree base branch (statement :: statements) =
      ((expandStatement tree base branch statement).1 ++
          (expand tree base branch statements).1,
        (expandStatement tree base branch statement).2 ++
          (expand tree base branch statements).2) := by
  simp [expand]

/-- Statements that include nothing stay. -/
theorem expand_of_ne (tree : FileTree) (base : String) (branch : List Location)
    {statements : List Statement}
    (others : ∀ statement ∈ statements, statement.directive? ≠ some .includeFile) :
    expand tree base branch statements = (statements, []) := by
  induction statements with
  | nil => rfl
  | cons statement statements ih =>
    have first := expandStatement_of_ne (others statement (by simp)) tree base branch
    have rest := ih fun statement mem => others statement (by simp [mem])
    rw [expand_cons, first, rest]
    simp

end Asm6502.Include
