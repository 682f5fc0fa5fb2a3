import Asm6502.Proofs.Inclusion

/-!
# Sibling inclusions

An include statement stands for the same statements whatever stands beside it: what it is replaced
by depends on the directory it is looked up from and on the set of files that are being included
around it, and nothing is handed on from one statement to the next. `Independent` puts this into
laws for a function that replaces include statements. The expansion obeys them, and it is the only
function that does (`expand_independent`): the laws say what becomes of a list by what becomes of
its statements, and of an include statement by what becomes of the file it opens, so that two
functions which obey them agree by induction on the files that are left (`induct_on_files`).
-/

namespace Asm6502.Include

/-! ### The laws -/

/-- The statement includes the file that a path names, looked up from a directory. -/
def Names (base : String) (statement : Statement) (path : String) : Prop :=
  statement.directive? = some .includeFile ∧
    ∃ name, target? statement = some name ∧ path = Path.join base name

/-- Nothing stands in the place of the statement, and one error is reported, at its position. -/
def Refused (statement : Statement) (cause : Cause)
    (outcome : List Statement × List Diagnostic) : Prop :=
  outcome = ([], [⟨cause, some statement.position⟩]) ∧ cause.severity = .error

/-- A function that replaces the include statements of a list, looked up from a directory and with a
branch of files around them, treats each of them by itself. -/
structure Independent (tree : FileTree)
    (replace : String → List Location → List Statement → List Statement × List Diagnostic) :
    Prop where
  /-- Lists that stand side by side are replaced side by side. -/
  append : ∀ base branch first second,
    replace base branch (first ++ second) =
      ((replace base branch first).1 ++ (replace base branch second).1,
        (replace base branch first).2 ++ (replace base branch second).2)
  /-- A statement that includes nothing stays. -/
  other : ∀ base branch statement, statement.directive? ≠ some .includeFile →
    replace base branch [statement] = ([statement], [])
  /-- An include statement without a name is refused. -/
  unnamed : ∀ base branch statement, statement.directive? = some .includeFile →
    target? statement = none → Refused statement .fileNameMissing (replace base branch [statement])
  /-- An include statement of a file on the branch is refused. -/
  circular : ∀ base branch statement path location, Names base statement path →
    tree.locate path = .ok location → location ∈ branch →
    Refused statement (.circularInclude path) (replace base branch [statement])
  /-- An include statement of any other file that cannot be read is refused. -/
  unreadable : ∀ base branch statement path error, Names base statement path →
    (∀ location ∈ branch, tree.locate path ≠ .ok location) → tree.readText path = .error error →
    Refused statement (.includeFailed path error) (replace base branch [statement])
  /-- A file that can be read and is not on the branch stands in the place of the include statement,
  with its own directory to look up from and itself on the branch. -/
  opened : ∀ base branch statement path location text, Names base statement path →
    tree.locate path = .ok location → location ∉ branch → tree.textAt location = .ok text →
    replace base branch [statement] =
      replace (Path.directory path) (location :: branch) (Statement.ofSource text)
  /-- The branch counts as a set. -/
  visited : ∀ base branch branch' statements, (∀ location, location ∈ branch ↔ location ∈ branch') →
    replace base branch statements = replace base branch' statements

/-! ### The expansion obeys the laws -/

section Laws

variable {tree : FileTree} {base : String} {branch branch' : List Location} {statement : Statement}

theorem expand_singleton :
    expand tree base branch [statement] = expandStatement tree base branch statement := by
  rw [expand_cons, expand_nil, List.append_nil, List.append_nil]

theorem expand_append (first second : List Statement) :
    expand tree base branch (first ++ second) =
      ((expand tree base branch first).1 ++ (expand tree base branch second).1,
        (expand tree base branch first).2 ++ (expand tree base branch second).2) := by
  simp only [expand, List.map_append, List.flatMap_append]

/-- A statement whose file is not opened is refused for the reason that is found. -/
theorem refused_expand {cause : Cause} (included : statement.directive? = some .includeFile)
    (failed : lookUp tree base branch statement = .error cause) (error : cause.severity = .error) :
    Refused statement cause (expand tree base branch [statement]) := by
  refine ⟨?_, error⟩
  rw [expand_singleton, expandStatement_eq, if_pos included, failed]

theorem readText_of_locate {path : String} {location : Location}
    (located : tree.locate path = .ok location) : tree.readText path = tree.textAt location := by
  rw [FileTree.readText, located]
  rfl

theorem lookUp_of_unreadable {path : String} {error : FileError} (named : Names base statement path)
    (straight : ∀ location ∈ branch, tree.locate path ≠ .ok location)
    (failed : tree.readText path = .error error) :
    lookUp tree base branch statement = .error (.includeFailed path error) := by
  obtain ⟨-, name, target, rfl⟩ := named
  cases located : tree.locate (Path.join base name) with
  | error reason =>
    rw [FileTree.readText, located] at failed
    cases failed
    simp only [lookUp, target, located]
  | ok location =>
    have fresh : location ∉ branch := fun on => straight location on located
    rw [readText_of_locate located] at failed
    simp only [lookUp, target, located, if_neg fresh, failed]

theorem lookUp_of_readable {path : String} {location : Location} {text : String}
    (named : Names base statement path) (located : tree.locate path = .ok location)
    (fresh : location ∉ branch) (readable : tree.textAt location = .ok text) :
    lookUp tree base branch statement = .ok ⟨path, location, text⟩ := by
  obtain ⟨-, name, target, rfl⟩ := named
  simp only [lookUp, target, located, if_neg fresh, readable]

/-- A file that is opened is the one that is named. -/
theorem names_of_lookUp {file : Opened}
    (included : statement.directive? = some .includeFile)
    (opened : lookUp tree base branch statement = .ok file) :
    Names base statement file.path ∧ tree.locate file.path = .ok file.location := by
  cases target : target? statement with
  | none =>
    simp only [lookUp, target] at opened
    cases opened
  | some name =>
    cases located : tree.locate (Path.join base name) with
    | error error =>
      simp only [lookUp, target, located] at opened
      cases opened
    | ok location =>
      simp only [lookUp, target, located] at opened
      split at opened
      · cases opened
      · split at opened
        · cases opened
        · cases opened
          exact ⟨⟨included, name, target, rfl⟩, located⟩

/-- What is looked up depends on the branch as a set. -/
theorem lookUp_congr (same : ∀ location, location ∈ branch ↔ location ∈ branch') :
    lookUp tree base branch statement = lookUp tree base branch' statement := by
  simp only [lookUp, same]

theorem expand_congr
    (same : ∀ statement,
      expandStatement tree base branch statement = expandStatement tree base branch' statement)
    (statements : List Statement) :
    expand tree base branch statements = expand tree base branch' statements := by
  rw [expand, expand, funext same]

theorem expandStatement_congr (same : ∀ location, location ∈ branch ↔ location ∈ branch') :
    expandStatement tree base branch statement = expandStatement tree base branch' statement := by
  induction base, branch, statement using induct_on_files tree generalizing branch' with
  | other base branch statement other =>
    rw [expandStatement_of_ne other, expandStatement_of_ne other]
  | failed base branch statement cause included failed =>
    rw [expandStatement_eq, expandStatement_eq, ← lookUp_congr same, failed]
  | opened base branch statement file included opened ih =>
    have longer : ∀ location,
        location ∈ file.location :: branch ↔ location ∈ file.location :: branch' := by
      simp [same]
    rw [expandStatement_eq, expandStatement_eq, ← lookUp_congr same, opened]
    simp only [expand_congr fun inner => ih inner longer]

theorem independent_expand (tree : FileTree) : Independent tree (expand tree) where
  append := fun _ _ => expand_append
  other := fun base branch statement other => by
    rw [expand_singleton, expandStatement_of_ne other]
  unnamed := fun base branch statement included unnamed => by
    refine refused_expand included ?_ rfl
    simp only [lookUp, unnamed]
  circular := fun base branch statement path location named located on => by
    obtain ⟨included, name, target, rfl⟩ := named
    exact refused_expand included
      (lookUp_eq_circular_iff.mpr ⟨name, location, target, rfl, located, on⟩) rfl
  unreadable := fun base branch statement path error named straight failed =>
    refused_expand named.1 (lookUp_of_unreadable named straight failed) rfl
  opened := fun base branch statement path location text named located fresh readable => by
    rw [expand_singleton, expandStatement_eq, if_pos named.1,
      lookUp_of_readable named located fresh readable]
  visited := fun base branch branch' statements same =>
    expand_congr (fun _ => expandStatement_congr same) statements

end Laws

/-! ### Nothing else obeys them -/

namespace Independent

variable {tree : FileTree}
  {replace : String → List Location → List Statement → List Statement × List Diagnostic}
  {base : String} {branch : List Location}

theorem nil (laws : Independent tree replace) : replace base branch [] = ([], []) := by
  have twice := laws.append base branch [] []
  rw [List.append_nil] at twice
  have statements : (replace base branch []).1 = [] :=
    List.self_eq_append_left.mp (congrArg Prod.fst twice)
  have diagnostics : (replace base branch []).2 = [] :=
    List.self_eq_append_left.mp (congrArg Prod.snd twice)
  exact Prod.ext statements diagnostics

/-- A list is replaced as the expansion does it if each of its statements is. -/
theorem eq_expand_of_single (laws : Independent tree replace)
    (single : ∀ statement,
      replace base branch [statement] = expandStatement tree base branch statement)
    (statements : List Statement) :
    replace base branch statements = expand tree base branch statements := by
  induction statements with
  | nil => exact laws.nil
  | cons statement statements ih =>
    rw [expand_cons, ← List.singleton_append, laws.append, single, ih]

/-- What is refused by the expansion is refused by the laws. -/
theorem refused_of_lookUp (laws : Independent tree replace) {statement : Statement} {cause : Cause}
    (included : statement.directive? = some .includeFile)
    (failed : lookUp tree base branch statement = .error cause) :
    replace base branch [statement] = ([], [⟨cause, some statement.position⟩]) := by
  cases target : target? statement with
  | none =>
    simp only [lookUp, target] at failed
    cases failed
    exact (laws.unnamed base branch statement included target).1
  | some name =>
    have named : Names base statement (Path.join base name) := ⟨included, name, target, rfl⟩
    by_cases on : ∃ location ∈ branch, tree.locate (Path.join base name) = .ok location
    · obtain ⟨location, on, located⟩ := on
      simp only [lookUp, target, located, if_pos on] at failed
      cases failed
      exact (laws.circular base branch statement _ location named located on).1
    · have straight : ∀ location ∈ branch, tree.locate (Path.join base name) ≠ .ok location :=
        fun location listed located => on ⟨location, listed, located⟩
      cases read : tree.readText (Path.join base name) with
      | error error =>
        have reason := lookUp_of_unreadable named straight read
        cases failed.symm.trans reason
        exact (laws.unreadable base branch statement _ error named straight read).1
      | ok text =>
        cases located : tree.locate (Path.join base name) with
        | error error =>
          rw [FileTree.readText, located] at read
          cases read
        | ok location =>
          have fresh : location ∉ branch := fun listed => straight location listed located
          rw [readText_of_locate located] at read
          cases failed.symm.trans (lookUp_of_readable named located fresh read)

/-- **The laws determine what becomes of a statement.** -/
theorem eq_expandStatement (laws : Independent tree replace) (base : String)
    (branch : List Location) (statement : Statement) :
    replace base branch [statement] = expandStatement tree base branch statement := by
  induction base, branch, statement using induct_on_files tree with
  | other base branch statement other =>
    rw [laws.other base branch statement other, expandStatement_of_ne other]
  | failed base branch statement cause included failed =>
    rw [laws.refused_of_lookUp included failed, expandStatement_eq, if_pos included, failed]
  | opened base branch statement file included opened ih =>
    obtain ⟨fresh, readable⟩ := lookUp_eq_ok opened
    obtain ⟨named, located⟩ := names_of_lookUp included opened
    rw [laws.opened base branch statement file.path file.location file.text named located fresh
        readable,
      laws.eq_expand_of_single ih, expandStatement_eq, if_pos included, opened]

end Independent

/-- **Sibling inclusions are independent**: the expansion of any files, from any directory and
within any branch, obeys the laws of `Independent`, and no other function does. -/
theorem expand_independent (tree : FileTree) :
    Independent tree (expand tree) ∧
      ∀ replace, Independent tree replace → replace = expand tree := by
  refine ⟨independent_expand tree, fun replace laws => ?_⟩
  funext base branch statements
  exact laws.eq_expand_of_single (laws.eq_expandStatement base branch) statements

/-- Two files that include a third one; the second also includes itself. -/
def diamond : FileTree :=
  .ofFiles [("a.s", textBytes " INCLUDE c.s\n"), ("b.s", textBytes " INCLUDE c.s\n PUT b.s\n"),
    ("c.s", textBytes "C NOP\n")]

/-- A statement that includes the file with a name. -/
def including (name : String) : Statement :=
  { position := ⟨7, 2⟩
    operation := some (.directive .includeFile none)
    operandTokens := [⟨.string, "\"" ++ name ++ "\"", ⟨7, 10⟩⟩] }

/-- Both sides of the diamond bring the third file; what fails beside them fails by itself. -/
theorem expand_independent_diamond :
    let replaced (names : List String) := expand diamond "." [] (names.map including)
    (replaced ["a.s", "b.s"]).1 = (replaced ["a.s"]).1 ++ (replaced ["b.s"]).1 ∧
      ((replaced ["a.s"]).1 = Statement.ofSource "C NOP\n" ∧
        (replaced ["b.s"]).1 = Statement.ofSource "C NOP\n") ∧
      (replaced ["b.s"]).2 = [⟨.circularInclude "./b.s", some ⟨2, 2⟩⟩] ∧
      Refused (including "") .fileNameMissing (replaced [""]) ∧
      Refused (including "d.s") (.includeFailed "./d.s" .notFound) (replaced ["d.s"]) := by
  intro replaced
  obtain ⟨laws, -⟩ := expand_independent diamond
  have both := laws.append "." [] [including "a.s"] [including "b.s"]
  refine ⟨congrArg Prod.fst both, ?_, ?_, ?_, ?_⟩
  · decide +kernel
  · decide +kernel
  · exact laws.unnamed "." [] (including "") rfl (by decide +kernel)
  · have named : Names "." (including "d.s") "./d.s" :=
      ⟨rfl, "d.s", by decide +kernel, by decide +kernel⟩
    exact laws.unreadable "." [] (including "d.s") "./d.s" .notFound named
      (fun location listed => by cases listed) (by decide +kernel)

end Asm6502.Include
