import Asm6502.Proofs.Contract
import Asm6502.Proofs.Rejection

/-!
# Names with two values

A run warns of a name that gets another value than it had (`ReportsRedefinition`). Two statements of
the second pass that give a name different values (`Conflicts`) should not go without the warning,
but they can: the second pass binds every name again and says nothing, so the warnings are those of
the first pass, and the first pass does not bind an equate whose operand it does not know yet
(`equatedLabel_not_reported`).

`conflicts_reported` says which names are reported: exactly those that two statements of the *first*
pass give different values. From a warning there is a way back to the two statements because a
definition of the first pass comes from a statement before it, and from the two statements to the
warning because a name keeps its value as long as nothing is reported of it
(`meaning_one_of_not_reported`). If the passes make the same choices and the equates of the name
have the same value in both of them, the conflicts of the two passes are the same, and none goes
unreported.
-/

namespace Asm6502

/-! ### What a statement is not wrong about -/

/-- The name that a cause reports as redefined. -/
def Cause.redefinedName? : Cause → Option Name
  | .redefined name _ _ => some name
  | _ => none

theorem Cause.redefinedName?_of_isRejection {cause : Cause} (rejection : cause.isRejection = true) :
    cause.redefinedName? = none := by
  cases cause with
  | redefined name value previous => cases rejection
  | _ => rfl

namespace Effect

variable {env : Env} {decided : Option Layout} {statement : Statement} {expr : Expr} {cause : Cause}

theorem redefinedName?_of_mem_problems (wrong : cause ∈ env.problems expr) :
    cause.redefinedName? = none := by
  rcases Evaluation.mem_problems_iff.mp wrong with ⟨name, -, rfl⟩ | ⟨-, rfl⟩
  · rfl
  · rfl

theorem redefinedName?_of_mem_flatMap {exprs : List Expr}
    (wrong : cause ∈ exprs.flatMap env.problems) : cause.redefinedName? = none := by
  obtain ⟨expr, -, wrong⟩ := List.mem_flatMap.mp wrong
  exact redefinedName?_of_mem_problems wrong

theorem redefinedName?_of_mem_encoded {opcode : Opcode} {mode : Mode} {operand : Option Operand}
    {value : UInt16} (wrong : cause ∈ (encoded env opcode mode operand value).problems) :
    cause.redefinedName? = none := by
  unfold encoded at wrong
  cases encoding : opcode.encoding? mode with
  | none =>
    rw [encoding] at wrong
    exact List.mem_singleton.mp wrong ▸ rfl
  | some byte =>
    simp only [encoding, List.mem_append, List.mem_ite_nil_right, List.mem_singleton] at wrong
    rcases wrong with ⟨-, rfl⟩ | value
    · rfl
    · rcases Encode.mem_operandProblems value with rfl | rfl | rfl
      · rfl
      · rfl
      · rfl

theorem redefinedName?_of_mem_instruction {mnemonic : String} {operand : Option Operand}
    {unread : List Token}
    (wrong : cause ∈ (instruction env decided statement mnemonic operand unread).problems) :
    cause.redefinedName? = none := by
  cases known : Opcode.find? mnemonic with
  | none =>
    rw [instruction_of_unknown known] at wrong
    exact List.mem_singleton.mp wrong ▸ rfl
  | some opcode =>
    cases unread with
    | cons token unread =>
      rw [instruction_of_unread known] at wrong
      exact List.mem_singleton.mp wrong ▸ rfl
    | nil =>
      cases chosen : instructionMode opcode decided operand
          ((memoryExpr? opcode operand).map env.evaluate) with
      | error failure =>
        rw [instruction_of_error known chosen] at wrong
        rcases List.mem_append.mp wrong with wrong | wrong
        · exact redefinedName?_of_mem_flatMap wrong
        · obtain rfl := List.mem_singleton.mp wrong
          apply Cause.redefinedName?_of_isRejection
          unfold instructionMode at chosen
          split at chosen
          · cases chosen
          · exact isRejection_of_selectMode chosen
      | ok mode =>
        rw [instruction_of_ok known chosen] at wrong
        rcases List.mem_append.mp wrong with wrong | wrong
        · exact redefinedName?_of_mem_flatMap wrong
        · exact redefinedName?_of_mem_encoded wrong

theorem redefinedName?_of_mem_values {shape : ValueShape}
    (wrong : cause ∈ (values env statement shape).problems) : cause.redefinedName? = none := by
  simp only [values] at wrong
  split at wrong
  · exact List.mem_singleton.mp wrong ▸ rfl
  · obtain ⟨item, -, wrong⟩ := List.mem_flatMap.mp wrong
    cases item with
    | some expr => exact redefinedName?_of_mem_problems wrong
    | none => exact List.mem_singleton.mp wrong ▸ rfl

theorem redefinedName?_of_mem_string {style : StringStyle}
    (wrong : cause ∈ (string env statement style).problems) : cause.redefinedName? = none := by
  unfold string at wrong
  split at wrong
  · exact List.mem_singleton.mp wrong ▸ rfl
  · simp only [StringStyle.problems, List.mem_ite_nil_right, List.mem_singleton] at wrong
    exact wrong.2 ▸ rfl

theorem redefinedName?_of_mem_hex (wrong : cause ∈ (hex statement).problems) :
    cause.redefinedName? = none := by
  simp only [hex] at wrong
  split at wrong
  · exact List.mem_singleton.mp wrong ▸ rfl
  · unfold Hex.problem? at wrong
    split at wrong
    · exact List.mem_singleton.mp wrong ▸ rfl
    · split at wrong
      · exact List.mem_singleton.mp wrong ▸ rfl
      · cases wrong

theorem redefinedName?_of_mem_laidOut {directive : Directive} {effect : UInt16 → Effect}
    (wrong : cause ∈ (laidOut env decided directive expr effect).problems) :
    cause.redefinedName? = none := by
  simp only [laidOut, List.mem_append, List.mem_ite_nil_left, List.mem_singleton] at wrong
  rcases wrong with wrong | ⟨-, rfl⟩
  · exact redefinedName?_of_mem_problems wrong
  · rfl

theorem redefinedName?_of_mem_equate {label : Option Name}
    (wrong : cause ∈ (equate env label expr).problems) : cause.redefinedName? = none := by
  cases label with
  | none =>
    rcases List.mem_append.mp wrong with wrong | wrong
    · exact redefinedName?_of_mem_problems wrong
    · exact List.mem_singleton.mp wrong ▸ rfl
  | some label => exact redefinedName?_of_mem_problems wrong

theorem redefinedName?_of_mem_directive {directive : Directive} {operand : Option Expr}
    (wrong : cause ∈ (Effect.directive env decided statement directive operand).problems) :
    cause.redefinedName? = none := by
  cases directive with
  | org | reserve =>
    cases operand with
    | none => exact List.mem_singleton.mp wrong ▸ rfl
    | some expr => exact redefinedName?_of_mem_laidOut wrong
  | equ =>
    cases operand with
    | none => exact List.mem_singleton.mp wrong ▸ rfl
    | some expr => exact redefinedName?_of_mem_equate wrong
  | values shape => exact redefinedName?_of_mem_values wrong
  | string style => exact redefinedName?_of_mem_string wrong
  | hex => exact redefinedName?_of_mem_hex wrong
  | msb =>
    simp only [Effect.directive, setMsb] at wrong
    split at wrong
    · cases wrong
    · exact redefinedName?_of_mem_problems wrong
    · cases wrong
  | externals | entries =>
    simp only [Effect.directive, nameProblems, List.mem_ite_nil_right, List.mem_singleton] at wrong
    exact wrong.2 ▸ rfl
  | fail => exact List.mem_singleton.mp wrong ▸ rfl
  | listing control =>
    simp only [Effect.directive, listing] at wrong
    split at wrong
    · cases wrong
    · exact redefinedName?_of_mem_flatMap wrong
  | dsect | dend | rel | opener | otherwise | fin | includeFile | ignored => cases wrong

/-- **The effect of a statement reports no name as redefined**; that is left to the binding. -/
theorem redefinedName?_of_mem_ofStatement
    (wrong : cause ∈ (ofStatement env decided statement).problems) :
    cause.redefinedName? = none := by
  unfold ofStatement at wrong
  split at wrong
  · cases wrong
  · exact redefinedName?_of_mem_instruction wrong
  · exact redefinedName?_of_mem_directive wrong

end Effect

namespace Assembly

/-! ### Who warns -/

section Step

variable {options : Options} {pass : Pass} {state : State} {statement : Statement}
  {decided : Option Layout} {name : Name} {diagnostic : Diagnostic}

theorem redefinedName?_of_mem_found {causes : List Cause}
    (other : ∀ cause ∈ causes, cause.redefinedName? = none)
    (reported : diagnostic ∈ found pass statement causes) :
    diagnostic.cause.redefinedName? = none := by
  cases pass with
  | one => cases reported
  | two =>
    obtain ⟨cause, wrong, rfl⟩ := List.mem_map.mp reported
    exact other cause wrong

/-- Only the first pass warns when it gives a name a value, and the name had another one. -/
theorem redefined_of_mem_warnings {position : Position} {given : Option (Name × UInt16)}
    (reported : diagnostic ∈ (state.bind? pass position given).2)
    (named : diagnostic.cause.redefinedName? = some name) :
    pass = .one ∧ ∃ value previous, given = some (name, value) ∧
      state.symbols.definition? name = some previous ∧ previous.value ≠ value := by
  cases pass with
  | two =>
    rw [warnings_two] at reported
    cases reported
  | one =>
    cases given with
    | none => cases reported
    | some binding =>
      obtain ⟨other, value⟩ := binding
      simp only [State.bind?, State.bind, SymbolTable.redefinition] at reported
      cases defined : state.symbols.definition? other with
      | none => simp [defined] at reported
      | some previous =>
        by_cases same : previous.value = value
        · simp [defined, same] at reported
        · simp only [defined, same, if_false, List.mem_singleton] at reported
          rw [reported] at named
          obtain rfl : other = name := Option.some.inj named
          exact ⟨rfl, value, previous, rfl, defined, same⟩

/-- Opening, turning or closing a block redefines nothing. -/
theorem redefinedName?_of_not_assembles (idle : ¬ state.Assembles statement)
    (reported : diagnostic ∈ (step options pass state (statement, decided)).2.diagnostics) :
    diagnostic.cause.redefinedName? = none := by
  rw [step_eq] at reported
  cases role : statement.role with
  | opens test operand =>
    rw [role] at reported
    refine redefinedName?_of_mem_found (fun cause wrong => ?_) reported
    rw [List.mem_ite_nil_right] at wrong
    cases operand with
    | none => exact List.mem_singleton.mp wrong.2 ▸ rfl
    | some expr => exact Effect.redefinedName?_of_mem_problems wrong.2
  | turns =>
    rw [role] at reported
    refine redefinedName?_of_mem_found (fun cause wrong => ?_) reported
    rw [List.mem_ite_nil_right, List.mem_singleton] at wrong
    exact wrong.2 ▸ rfl
  | closes =>
    rw [role] at reported
    exact redefinedName?_of_mem_found (fun cause wrong => by cases wrong) reported
  | plain =>
    have disabled : ¬ state.conditions.enabled = true := fun enabled => idle ⟨role, enabled⟩
    simp only [role, if_neg disabled] at reported
    cases reported

/-- **A step that warns of a name is one of the first pass**, which gives the name another value
than it had. -/
theorem redefined_of_mem_step
    (reported : diagnostic ∈ (step options pass state (statement, decided)).2.diagnostics)
    (named : diagnostic.cause.redefinedName? = some name) :
    pass = .one ∧ state.Assembles statement ∧ ∃ value previous,
      state.given pass statement = some (name, value) ∧
      state.symbols.definition? name = some previous ∧ previous.value ≠ value := by
  by_cases assembles : state.Assembles statement
  · rw [step_of_assembles assembles, assembled_eq] at reported
    rcases List.mem_append.mp reported with warned | wrong
    · obtain ⟨first, changed⟩ := redefined_of_mem_warnings warned named
      exact ⟨first, assembles, changed⟩
    · rw [redefinedName?_of_mem_found
        (fun cause => Effect.redefinedName?_of_mem_ofStatement) wrong] at named
      cases named
  · rw [redefinedName?_of_not_assembles assembles reported] at named
    cases named

theorem redefinedName?_of_mem_closing (reported : diagnostic ∈ closing state) :
    diagnostic.cause.redefinedName? = none := by
  rcases List.mem_append.mp reported with blocks | entries
  · split at blocks
    · cases blocks
    · exact List.mem_singleton.mp blocks ▸ rfl
  · obtain ⟨entry, -, rfl⟩ := List.mem_map.mp entries
    rfl

end Step

/-! ### Conflicts -/

section Passes

variable (options : Options) (statements : List Statement)

/-- In a pass, two statements give the name different values. -/
def Conflicts (pass : Pass) (name : Name) : Prop :=
  ∃ i j value value', Gives options statements pass i name value ∧
    Gives options statements pass j name value' ∧ value ≠ value'

/-- The equates of the name that are assembled give it the same value in both passes. -/
def SettledEquates (name : Name) : Prop :=
  ∀ i statement, statements[i]? = some statement →
    statement.equate?.map (·.1) = some name →
    (before options statements .two i).Assembles statement →
    (before options statements .one i).given .one statement =
      (before options statements .two i).given .two statement

instance (name : Name) : Decidable (SettledEquates options statements name) :=
  decidable_of_iff _ forall_getElem?_iff.symm

end Passes

variable {options : Options} {statements : List Statement} {pass : Pass} {i j : Nat} {name : Name}
  {value value' : UInt16}

/-- A statement gives a name one value. -/
theorem Gives.unique (gives : Gives options statements pass i name value)
    (again : Gives options statements pass i name value') : value = value' := by
  have same : Meaning.defined value = .defined value' :=
    gives.meaning_succ.symm.trans again.meaning_succ
  cases same
  rfl

/-- A name that is reported has two values in the first pass. -/
theorem conflicts_of_reportsRedefinition (reports : ReportsRedefinition options statements name) :
    Conflicts options statements .one name := by
  obtain ⟨value, previous, position, reported⟩ := reports
  rcases exists_visit_of_mem_diagnostics reported with ⟨pass, i, statement, found, visited⟩ | whole
  · obtain ⟨rfl, assembles, value, previous, given, defined, changed⟩ :=
      redefined_of_mem_step visited rfl
    obtain ⟨k, -, earlier⟩ := exists_gives_one defined
    exact ⟨k, i, previous.value, value, earlier, ⟨statement, found, assembles, given⟩, changed⟩
  · cases redefinedName?_of_mem_closing whole

/-- A later statement of the first pass that gives a name another value has the name reported. -/
theorem reportsRedefinition_of_lt (gives : Gives options statements .one i name value)
    (again : Gives options statements .one j name value') (lt : i < j) (changed : value ≠ value') :
    ReportsRedefinition options statements name := by
  by_contra silent
  have kept : (before options statements .one j).symbols.meaning name = .defined value :=
    meaning_one_of_not_reported silent lt gives.meaning_succ
  obtain ⟨previous, defined, rfl⟩ := SymbolTable.meaning_eq_defined_iff.mp kept
  obtain ⟨position, reported⟩ := redefined_reported again defined changed
  exact silent ⟨value', previous, position, reported⟩

/-- A name with two values in the first pass is reported. -/
theorem Conflicts.reportsRedefinition (conflicts : Conflicts options statements .one name) :
    ReportsRedefinition options statements name := by
  obtain ⟨i, j, value, value', gives, again, changed⟩ := conflicts
  rcases Nat.lt_trichotomy i j with lt | rfl | gt
  · exact reportsRedefinition_of_lt gives again lt changed
  · exact absurd (gives.unique again) changed
  · exact reportsRedefinition_of_lt again gives gt changed.symm

/-- With the same choices and settled equates, a statement gives a name the same value in both
passes. -/
theorem gives_one_iff_two (choices : SameChoices options statements)
    (settled : SettledEquates options statements name) :
    Gives options statements .one i name value ↔ Gives options statements .two i name value := by
  have layout := choices.sameLayout i
  have same (statement : Statement) (found : statements[i]? = some statement)
      (assembles : (before options statements .two i).Assembles statement)
      (bound : statement.boundName? = some name) :
      (before options statements .one i).given .one statement =
        (before options statements .two i).given .two statement := by
    unfold Statement.boundName? at bound
    cases equate : statement.equate? with
    | some binding =>
      apply settled i statement found _ assembles
      rw [equate] at bound ⊢
      exact bound
    | none =>
      -- the label has the location, which is the same in both passes
      rw [equate] at bound
      rw [given_of_locationLabel? bound, given_of_locationLabel? bound, layout.here]
  constructor
  · rintro ⟨statement, found, assembles, given⟩
    have assembles' := layout.assembles.mp assembles
    refine ⟨statement, found, assembles', ?_⟩
    rw [← same statement found assembles' (boundName?_of_given given)]
    exact given
  · rintro ⟨statement, found, assembles, given⟩
    refine ⟨statement, found, layout.assembles.mpr assembles, ?_⟩
    rw [same statement found assembles (boundName?_of_given given)]
    exact given

/-- **Which conflicts are reported**: a run warns of a name exactly if two statements of the first
pass give it different values. If the passes make the same choices and the equates of the name have
the same value in both, the run warns of it exactly if two statements of the second pass give it
different values. -/
theorem conflicts_reported (options : Options) (statements : List Statement) (name : Name) :
    (ReportsRedefinition options statements name ↔ Conflicts options statements .one name) ∧
      (SameChoices options statements → SettledEquates options statements name →
        (ReportsRedefinition options statements name ↔
          Conflicts options statements .two name)) := by
  have first : ReportsRedefinition options statements name ↔
      Conflicts options statements .one name :=
    ⟨conflicts_of_reportsRedefinition, Conflicts.reportsRedefinition⟩
  refine ⟨first, fun choices settled => ?_⟩
  simp only [first, Conflicts, gives_one_iff_two choices settled]

/-- A program with a label that is equated to a symbol which is defined before:

        ORG $1000
  Y     EQU 5
  X     NOP
  X     EQU Y
-/
def equatedBefore : List Statement := [
  { position := ⟨1, 8⟩, operation := some (.directive .org (some (.literal 0x1000))) },
  { position := ⟨2, 1⟩, label := some ⟨"Y"⟩
    operation := some (.directive .equ (some (.literal 5))) },
  { position := ⟨3, 1⟩, label := some ⟨"X"⟩, operation := some (.instruction "NOP" none []) },
  { position := ⟨4, 1⟩, label := some ⟨"X"⟩
    operation := some (.directive .equ (some (.symbol ⟨"Y"⟩))) }]

/-- The two values of `X` are reported for `equatedBefore`. -/
theorem conflicts_reported_equatedBefore :
    SameChoices {} equatedBefore ∧ SettledEquates {} equatedBefore ⟨"X"⟩ ∧
      Conflicts {} equatedBefore .two ⟨"X"⟩ ∧ ReportsRedefinition {} equatedBefore ⟨"X"⟩ := by
  have choices : SameChoices {} equatedBefore := by decide +kernel
  have settled : SettledEquates {} equatedBefore ⟨"X"⟩ := by decide +kernel
  have conflicts : Conflicts {} equatedBefore .two ⟨"X"⟩ :=
    ⟨2, 3, 0x1000, 5, ⟨_, rfl, by decide +kernel, by decide +kernel⟩,
      ⟨_, rfl, by decide +kernel, by decide +kernel⟩, by decide⟩
  have reported := (conflicts_reported {} equatedBefore ⟨"X"⟩).2 choices settled
  exact ⟨choices, settled, conflicts, reported.mpr conflicts⟩

/-- In the second pass `equatedLabel` gives `X` a location and then the value of `Y`, which the
first pass did not know when it came to the equate. The passes make the same choices, and the run
warns of nothing. -/
theorem equatedLabel_not_reported :
    SameChoices {} equatedLabel ∧ Conflicts {} equatedLabel .two ⟨"X"⟩ ∧
      ¬ ReportsRedefinition {} equatedLabel ⟨"X"⟩ := by
  have clean : (run {} equatedLabel).diagnostics = [] := by decide +kernel
  refine ⟨by decide +kernel, ?_, not_reportsRedefinition_of_clean clean⟩
  exact ⟨1, 2, 0x1000, 5, ⟨_, rfl, by decide +kernel, by decide +kernel⟩,
    ⟨_, rfl, by decide +kernel, by decide +kernel⟩, by decide⟩

end Assembly

end Asm6502
