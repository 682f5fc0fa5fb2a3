import Asm6502.Build
import Mathlib.Data.List.Dedup

/-!
# Files within files

What becomes of an include statement is decided by looking up the file it names (`lookUp`): either
the statement is reported, or the statements of the file stand in its place, with the file on the
branch (`expandStatement_eq`). A file that is opened is readable and not on the branch, so every
level leaves one readable file less to open (`unopened_cons`), and all that is proved here follows
by the induction that this gives (`induct_on_files`).

Files are not included within each other more often than there are readable files off the branch: an
expansion that may nest so many files and no more (`expandWithin`) comes to the same end. No include
statement is left in what it comes to (`not_includes_of_mem_expandStatement`).
-/

namespace Asm6502.Include

/-! ### Looking up a file -/

/-- A file that an include statement opens. -/
structure Opened where
  /-- The path that leads to it. -/
  path : String
  /-- Where it is. -/
  location : Location
  /-- What it holds. -/
  text : String

/-- The file that an include statement opens, or why it opens none. -/
def lookUp (tree : FileTree) (base : String) (branch : List Location) (statement : Statement) :
    Except Cause Opened :=
  match target? statement with
  | none => .error .fileNameMissing
  | some name =>
    let path := Path.join base name
    match tree.locate path with
    | .error error => .error (.includeFailed path error)
    | .ok location =>
      if location ∈ branch then .error (.circularInclude path)
      else
        match tree.textAt location with
        | .error error => .error (.includeFailed path error)
        | .ok text => .ok ⟨path, location, text⟩

section LookUp

variable {tree : FileTree} {base : String} {branch : List Location} {statement : Statement}

/-- The file that is opened is the one that the name leads to, if it is not on the branch and can be
read. -/
theorem lookUp_eq_ok_iff {file : Opened} :
    lookUp tree base branch statement = .ok file ↔
      ∃ name, target? statement = some name ∧ file.path = Path.join base name ∧
        tree.locate file.path = .ok file.location ∧ file.location ∉ branch ∧
        tree.textAt file.location = .ok file.text := by
  obtain ⟨path, place, text⟩ := file
  unfold lookUp
  cases target? statement with
  | none => simp
  | some name =>
    simp only
    cases located : tree.locate (Path.join base name) with
    | error error => grind
    | ok location =>
      simp only
      split
      · grind
      · cases found : tree.textAt location <;> grind

theorem lookUp_eq_ok {file : Opened} (opened : lookUp tree base branch statement = .ok file) :
    file.location ∉ branch ∧ tree.textAt file.location = .ok file.text := by
  obtain ⟨name, -, -, -, fresh, found⟩ := lookUp_eq_ok_iff.mp opened
  exact ⟨fresh, found⟩

/-- A statement is refused as circular if the file it names is on the branch. -/
theorem lookUp_eq_circular_iff {path : String} :
    lookUp tree base branch statement = .error (.circularInclude path) ↔
      ∃ name location, target? statement = some name ∧ path = Path.join base name ∧
        tree.locate path = .ok location ∧ location ∈ branch := by
  unfold lookUp
  cases target? statement with
  | none => simp
  | some name =>
    simp only
    cases located : tree.locate (Path.join base name) with
    | error error => grind
    | ok location =>
      simp only
      split
      · grind
      · cases tree.textAt location <;> grind

/-- **What becomes of a statement**: the statements of the file that it opens stand in its place, or
it is reported; a statement that includes nothing stays. -/
theorem expandStatement_eq :
    expandStatement tree base branch statement =
      if statement.directive? = some .includeFile then
        match lookUp tree base branch statement with
        | .error cause => ([], [⟨cause, some statement.position⟩])
        | .ok file =>
          expand tree (Path.directory file.path) (file.location :: branch)
            (Statement.ofSource file.text)
      else ([statement], []) := by
  by_cases included : statement.directive? = some .includeFile
  · rw [expandStatement, if_neg (not_not_intro included), if_pos included]
    unfold lookUp
    cases target? statement with
    | none => rfl
    | some name =>
      simp only
      cases tree.locate (Path.join base name) with
      | error error => rfl
      | ok location =>
        simp only
        split
        · rfl
        · split
          · rename_i failed
            simp only [failed]
          · rename_i readable
            simp only [readable]
            rfl
  · rw [expandStatement_of_ne included, if_neg included]

end LookUp

/-! ### The files that are left -/

/-- The files that can be read as text. -/
def readable (tree : FileTree) : List Location :=
  (tree.entries.map (·.1)).dedup.filter fun location => (tree.textAt location).isOk

/-- The number of readable files that are not on a branch. -/
def unopened (tree : FileTree) (branch : List Location) : Nat :=
  ((readable tree).filter (· ∉ branch)).length

theorem mem_readable {tree : FileTree} {location : Location} {text : String}
    (found : tree.textAt location = .ok text) : location ∈ readable tree := by
  obtain ⟨bytes, contents⟩ := FileTree.exists_file?_of_textAt found
  have listed := FileTree.mem_entries_of_file? contents
  refine List.mem_filter.mpr ⟨List.mem_dedup.mpr (List.mem_map.mpr ⟨_, listed, rfl⟩), ?_⟩
  rw [found]
  rfl

/-- Opening a file leaves one readable file less. -/
theorem unopened_cons {tree : FileTree} {branch : List Location} {location : Location}
    {text : String} (fresh : location ∉ branch) (found : tree.textAt location = .ok text) :
    unopened tree (location :: branch) + 1 = unopened tree branch := by
  have once : ((readable tree).filter (· ∉ branch)).Nodup :=
    ((List.nodup_dedup _).filter _).filter _
  have narrowed : (readable tree).filter (· ∉ location :: branch) =
      ((readable tree).filter (· ∉ branch)).erase location := by
    rw [once.erase_eq_filter, List.filter_filter]
    congr 1
    funext other
    simp [bne, beq_eq_decide]
  have left : location ∈ (readable tree).filter (· ∉ branch) := by
    simp [mem_readable found, fresh]
  rw [unopened, narrowed, unopened, List.length_erase_of_mem left]
  exact Nat.sub_add_cancel (List.length_pos_of_mem left)

/-- What holds of statements that include nothing and of statements that open no file, and holds of
a statement that opens a file if it holds of the statements of that file, holds of all statements:
there are finitely many files to open. -/
@[elab_as_elim]
theorem induct_on_files (tree : FileTree) {motive : String → List Location → Statement → Prop}
    (other : ∀ base branch statement, statement.directive? ≠ some .includeFile →
      motive base branch statement)
    (failed : ∀ base branch statement cause, statement.directive? = some .includeFile →
      lookUp tree base branch statement = .error cause → motive base branch statement)
    (opened : ∀ base branch statement file, statement.directive? = some .includeFile →
      lookUp tree base branch statement = .ok file →
      (∀ inner, motive (Path.directory file.path) (file.location :: branch) inner) →
      motive base branch statement)
    (base : String) (branch : List Location) (statement : Statement) :
    motive base branch statement := by
  by_cases included : statement.directive? = some .includeFile
  · cases looked : lookUp tree base branch statement with
    | error cause => exact failed base branch statement cause included looked
    | ok file =>
      refine opened base branch statement file included looked fun inner => ?_
      obtain ⟨fresh, found⟩ := lookUp_eq_ok looked
      have fewer := unopened_cons fresh found
      exact induct_on_files tree other failed opened _ _ inner
  · exact other base branch statement included
termination_by unopened tree branch
decreasing_by omega

/-! ### Inclusion to a depth -/

/-- What stands in the place of a statement, if files may be included within each other `depth`
times and no more; there is no result if this does not suffice. -/
def expandStatementWithin (tree : FileTree) (depth : Nat) (base : String) (branch : List Location)
    (statement : Statement) : Option (List Statement × List Diagnostic) :=
  if statement.directive? = some .includeFile then
    match lookUp tree base branch statement with
    | .error cause => some ([], [⟨cause, some statement.position⟩])
    | .ok file =>
      match depth with
      | 0 => none
      | depth + 1 => do
        let parts ← (Statement.ofSource file.text).mapM
          (expandStatementWithin tree depth (Path.directory file.path) (file.location :: branch))
        some (parts.flatMap (·.1), parts.flatMap (·.2))
  else some ([statement], [])

/-- The statements with all include statements replaced, if files may be included within each other
`depth` times and no more. -/
def expandWithin (tree : FileTree) (depth : Nat) (base : String) (branch : List Location)
    (statements : List Statement) : Option (List Statement × List Diagnostic) := do
  let parts ← statements.mapM (expandStatementWithin tree depth base branch)
  some (parts.flatMap (·.1), parts.flatMap (·.2))

theorem mapM_eq_some {α β : Type} {f : α → Option β} {g : α → β} {items : List α}
    (each : ∀ item ∈ items, f item = some (g item)) : items.mapM f = some (items.map g) := by
  induction items with
  | nil => rfl
  | cons item items ih =>
    have first := each item List.mem_cons_self
    have rest := ih fun other mem => each other (List.mem_cons_of_mem _ mem)
    simp [List.mapM_cons, first, rest]

/-- As many levels suffice as there are readable files off the branch. -/
theorem expandStatementWithin_eq {tree : FileTree} {depth : Nat} (base : String)
    (branch : List Location) (statement : Statement) (enough : unopened tree branch ≤ depth) :
    expandStatementWithin tree depth base branch statement =
      some (expandStatement tree base branch statement) := by
  induction base, branch, statement using induct_on_files tree generalizing depth with
  | other base branch statement other =>
    unfold expandStatementWithin
    rw [if_neg other, expandStatement_of_ne other]
  | failed base branch statement cause included failed =>
    unfold expandStatementWithin
    rw [if_pos included, expandStatement_eq, if_pos included, failed]
  | opened base branch statement file included opened ih =>
    obtain ⟨fresh, found⟩ := lookUp_eq_ok opened
    have fewer := unopened_cons fresh found
    cases depth with
    | zero => omega
    | succ depth =>
      have inner := mapM_eq_some fun statement (_ : statement ∈ Statement.ofSource file.text) =>
        ih statement (Nat.le_of_succ_le_succ (fewer ▸ enough))
      unfold expandStatementWithin
      rw [if_pos included, expandStatement_eq, if_pos included, opened]
      simp only [inner]
      rfl

theorem expandWithin_eq {tree : FileTree} {depth : Nat} (base : String) (branch : List Location)
    (statements : List Statement) (enough : unopened tree branch ≤ depth) :
    expandWithin tree depth base branch statements = some (expand tree base branch statements) := by
  have parts := mapM_eq_some fun statement (_ : statement ∈ statements) =>
    expandStatementWithin_eq base branch statement enough
  simp only [expandWithin, parts]
  rfl

/-! ### No include statement is left -/

theorem mem_expand_iff {tree : FileTree} {base : String} {branch : List Location}
    {statements : List Statement} {left : Statement} :
    left ∈ (expand tree base branch statements).1 ↔
      ∃ statement ∈ statements, left ∈ (expandStatement tree base branch statement).1 := by
  simp [expand]

theorem not_includes_of_mem_expandStatement {tree : FileTree} (base : String)
    (branch : List Location) (statement : Statement) {left : Statement}
    (mem : left ∈ (expandStatement tree base branch statement).1) :
    left.directive? ≠ some .includeFile := by
  induction base, branch, statement using induct_on_files tree with
  | other base branch statement other =>
    rw [expandStatement_of_ne other] at mem
    exact List.mem_singleton.mp mem ▸ other
  | failed base branch statement cause included failed =>
    rw [expandStatement_eq, if_pos included, failed] at mem
    cases mem
  | opened base branch statement file included opened ih =>
    rw [expandStatement_eq, if_pos included, opened] at mem
    obtain ⟨inner, -, inside⟩ := mem_expand_iff.mp mem
    exact ih inner inside

end Asm6502.Include
