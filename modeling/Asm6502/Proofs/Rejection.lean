import Asm6502.Proofs.Evaluation
import Asm6502.Proofs.Instruction

/-!
# Rejected instructions

An instruction is **rejected** if its mnemonic does not exist, if its operand is not understood, or
if the mnemonic has none of the modes that an operand of this form can stand for
(`Operation.Rejected`). All of this can be told from the line alone, so an instruction is rejected
in the first pass exactly if it is in the second, whatever its operand is worth in each of them
(`rejects_effectOf_iff`).

A rejected instruction does what its label on a line of its own does, and is reported
(`interchangeable_of_rejected`). Lines of which this is true can stand for each other in any program
(`Interchangeable`): the layouts that the first pass hands on, the output and all later states are
the same (`Interchangeable.trace_eq`).
-/

namespace Asm6502

/-! ### Modes that a form can stand for -/

namespace Encode

/-- The modes that an instruction can have whose operand is written in the given form. Any operand
of a branch is the target. -/
def candidates (form : Option Form) : List Mode :=
  .relative ::
    match form with
    | none => [.implied, .accumulator]
    | some .accumulator => [.accumulator, .absolute, .zeroPage]
    | some .immediate | some .immediateLow | some .immediateHigh => [.immediate]
    | some .absolute => [.absolute, .zeroPage]
    | some .absoluteX => [.absoluteX, .zeroPageX]
    | some .absoluteY => [.absoluteY, .zeroPageY]
    | some .indirect => [.indirect]
    | some .indirectX => [.indirectX]
    | some .indirectY => [.indirectY]

theorem isSome_firstMode? (opcode : Opcode) (modes : List Mode) :
    (firstMode? opcode modes).isSome = modes.any opcode.supports := by
  rw [firstMode?, Bool.eq_iff_iff, List.find?_isSome, List.any_eq_true]

/-- A form has a mode exactly if the mnemonic has one of those that it can stand for, apart from
that of a branch. -/
theorem isSome_formMode?_eq_any (opcode : Opcode) (narrow : Bool) (form : Form) :
    (formMode? opcode narrow form).isSome = (candidates (some form)).tail.any opcode.supports := by
  cases form with
  | accumulator =>
    simp only [formMode?]
    split
    · rename_i supported
      simp [candidates, supported]
    · rename_i unsupported
      rw [isSome_absoluteMode?]
      simp [candidates, unsupported, Mode.zeroPageForm?]
  | absolute | absoluteX | absoluteY =>
    simp only [formMode?]
    rw [isSome_absoluteMode?]
    simp [candidates, Mode.zeroPageForm?]
  | immediate | immediateLow | immediateHigh | indirect | indirectX | indirectY =>
    exact isSome_firstMode? opcode _

/-- **An instruction has a mode exactly if the mnemonic has one of those that its operand can stand
for.** -/
theorem exists_selectMode_iff {opcode : Opcode} {form : Option Form} {narrow : Bool} :
    (∃ mode, selectMode opcode form narrow = .ok mode) ↔
      ∃ mode ∈ candidates form, opcode.supports mode = true := by
  rw [← List.any_eq_true]
  unfold selectMode
  by_cases branch : opcode.isBranch = true
  · have relative : opcode.supports .relative = true := branch
    simp [branch, candidates, relative]
  · have straight : opcode.supports .relative = false := by simpa [Opcode.isBranch] using branch
    have others : (candidates form).any opcode.supports =
        (candidates form).tail.any opcode.supports := by
      simp [candidates, straight]
    rw [if_neg branch, others]
    cases form with
    | none =>
      rw [show (candidates none).tail = [.implied, .accumulator] from rfl, ← isSome_firstMode?]
      cases firstMode? opcode [.implied, .accumulator] <;> simp
    | some form =>
      rw [← isSome_formMode?_eq_any opcode narrow form]
      cases chosen : formMode? opcode narrow form <;> simp [chosen]

/-- What can be wrong with the value of an operand: a branch does not reach it, or it does not fit
a byte. -/
theorem mem_operandProblems {mode : Mode} {form : Option Form} {here value : UInt16} {cause : Cause}
    (wrong : cause ∈ operandProblems mode form here value) :
    cause = .branchTooFar here value ∨ cause = .immediateTruncated value ∨
      cause = .notZeroPage value := by
  unfold operandProblems at wrong
  cases mode with
  | relative =>
    simp only [List.mem_ite_nil_left, List.mem_singleton] at wrong
    exact .inl wrong.2
  | immediate =>
    simp only at wrong
    split at wrong
    · cases wrong
    · cases wrong
    · simp only [List.mem_ite_nil_right, List.mem_singleton] at wrong
      exact .inr (.inl wrong.2)
  | zeroPage | zeroPageX | zeroPageY | indirectX | indirectY =>
    simp only [List.mem_ite_nil_right, List.mem_singleton] at wrong
    exact .inr (.inr wrong.2)
  | implied | accumulator | absolute | absoluteX | absoluteY | indirect => cases wrong

end Encode

/-! ### Rejection -/

/-- The cause is that an instruction cannot be encoded. -/
def Cause.isRejection (cause : Cause) : Bool :=
  cause.kind == .unknownOpcode || cause.kind == .invalidAddressingMode

/-- An instruction that cannot be encoded. -/
inductive Operation.Rejected : Operation → Prop
  /-- The mnemonic does not exist. -/
  | unknown {mnemonic : String} {operand : Option Operand} {unread : List Token}
      (unknown : Opcode.find? mnemonic = none) : Rejected (.instruction mnemonic operand unread)
  /-- The operand is not understood: tokens are left after it. -/
  | unread {mnemonic : String} {operand : Option Operand} {token : Token} {unread : List Token} :
      Rejected (.instruction mnemonic operand (token :: unread))
  /-- The mnemonic has no mode that the operand can stand for. -/
  | unsupported {mnemonic : String} {operand : Option Operand} {opcode : Opcode}
      (known : Opcode.find? mnemonic = some opcode)
      (missing : ∀ mode ∈ Encode.candidates (operand.map (·.form)), opcode.supports mode = false) :
      Rejected (.instruction mnemonic operand [])

namespace Effect

/-- The effect reports an instruction as one that cannot be encoded. -/
def Rejects (effect : Effect) : Prop := ∃ cause ∈ effect.problems, cause.isRejection = true

section Instruction

variable {env : Env} {decided : Option Layout} {mnemonic : String} {operand : Option Operand}
  {unread : List Token} {opcode : Opcode}

theorem followable_none : Followable mnemonic operand none := by
  intro opcode mode _ given
  cases given

/-- What is wrong with an operand is no reason to reject the instruction. -/
theorem not_isRejection_of_mem_problems {cause : Cause}
    (wrong : cause ∈ (memoryExpr? opcode operand).toList.flatMap env.problems) :
    cause.isRejection = false := by
  obtain ⟨expr, -, wrong⟩ := List.mem_flatMap.mp wrong
  rcases Evaluation.mem_problems_iff.mp wrong with ⟨name, -, rfl⟩ | ⟨-, rfl⟩
  · rfl
  · rfl

/-- What is wrong with the value of an operand is no reason either. -/
theorem not_isRejection_of_mem_operandProblems {mode : Mode} {form : Option Form}
    {here value : UInt16} {cause : Cause}
    (wrong : cause ∈ Encode.operandProblems mode form here value) : cause.isRejection = false := by
  rcases Encode.mem_operandProblems wrong with rfl | rfl | rfl
  · rfl
  · rfl
  · rfl

theorem isRejection_of_selectMode {form : Option Form} {narrow : Bool} {cause : Cause}
    (failed : Encode.selectMode opcode form narrow = .error cause) : cause.isRejection = true := by
  unfold Encode.selectMode at failed
  split at failed
  · cases failed
  · cases form with
    | none =>
      cases first : Encode.firstMode? opcode [.implied, .accumulator] with
      | some mode => simp [first] at failed
      | none =>
        simp only [first, Except.error.injEq] at failed
        exact failed ▸ rfl
    | some form =>
      cases chosen : Encode.formMode? opcode narrow form with
      | some mode => simp [chosen] at failed
      | none =>
        simp only [chosen, Except.error.injEq] at failed
        exact failed ▸ rfl

/-- An instruction that is not rejected has a mode whatever its operand is worth, and nothing that
is wrong with it is a rejection. -/
theorem not_rejects_instruction (followable : Followable mnemonic operand decided)
    (known : Opcode.find? mnemonic = some opcode) {mode : Mode}
    (candidate : mode ∈ Encode.candidates (operand.map (·.form)))
    (supported : opcode.supports mode = true) (statement : Statement) :
    ¬ (instruction env decided statement mnemonic operand []).Rejects := by
  obtain ⟨chosen, choice⟩ : ∃ mode, instructionMode opcode decided operand
      ((memoryExpr? opcode operand).map env.evaluate) = .ok mode := by
    unfold instructionMode
    split
    · exact ⟨_, rfl⟩
    · exact Encode.exists_selectMode_iff.mpr ⟨mode, candidate, supported⟩
  obtain ⟨byte, encoding⟩ := (followable.selectable known choice).encoding
  rintro ⟨cause, wrong, rejection⟩
  rw [instruction_of_ok known choice] at wrong
  simp only [encoded, encoding, List.mem_append] at wrong
  rcases wrong with operand | missing | value
  · rw [not_isRejection_of_mem_problems operand] at rejection
    cases rejection
  · rw [List.mem_ite_nil_right, List.mem_singleton] at missing
    rw [missing.2] at rejection
    cases rejection
  · rw [not_isRejection_of_mem_operandProblems value] at rejection
    cases rejection

/-- A rejected instruction is only reported. -/
theorem instruction_of_rejected (followable : Followable mnemonic operand decided)
    (rejected : (Operation.instruction mnemonic operand unread).Rejected) (env : Env)
    (statement : Statement) :
    ∃ earlier cause, cause.isRejection = true ∧
      instruction env decided statement mnemonic operand unread =
        { problems := earlier ++ [cause] } := by
  cases rejected with
  | unknown unknown => exact ⟨[], _, rfl, instruction_of_unknown unknown⟩
  | unread =>
    cases known : Opcode.find? mnemonic with
    | none => exact ⟨[], _, rfl, instruction_of_unknown known⟩
    | some opcode => exact ⟨[], _, rfl, instruction_of_unread known⟩
  | @unsupported _ _ opcode known missing =>
    cases choice : instructionMode opcode decided operand
        ((memoryExpr? opcode operand).map env.evaluate) with
    | ok mode =>
      obtain ⟨narrow, selected⟩ := followable.selectable known choice
      obtain ⟨other, candidate, supported⟩ := Encode.exists_selectMode_iff.mp ⟨mode, selected⟩
      rw [missing other candidate] at supported
      cases supported
    | error cause =>
      refine ⟨_, cause, ?_, instruction_of_error known choice⟩
      unfold instructionMode at choice
      split at choice
      · cases choice
      · exact isRejection_of_selectMode choice

/-- **Whether an instruction is rejected does not depend on what its operand is worth.** -/
theorem rejects_instruction_iff (followable : Followable mnemonic operand decided) (env : Env)
    (statement : Statement) :
    (instruction env decided statement mnemonic operand unread).Rejects ↔
      (Operation.instruction mnemonic operand unread).Rejected := by
  constructor
  · intro rejects
    cases known : Opcode.find? mnemonic with
    | none => exact .unknown known
    | some opcode =>
      cases unread with
      | cons token unread => exact .unread
      | nil =>
        refine .unsupported known fun mode candidate => ?_
        by_contra supported
        rw [Bool.not_eq_false] at supported
        exact not_rejects_instruction followable known candidate supported statement rejects
  · intro rejected
    obtain ⟨earlier, cause, rejection, effect⟩ :=
      instruction_of_rejected followable rejected env statement
    rw [effect]
    exact ⟨cause, List.mem_append_right _ (List.mem_singleton_self _), rejection⟩

end Instruction

end Effect

namespace Assembly

/-! ### Lines that can stand for each other -/

/-- The report decides on no layout and puts nothing into the output. -/
structure Report.Mute (report : Report) : Prop where
  layout : report.layout = none
  bytes : report.bytes = []
  relocations : report.relocations = []

/-- The statements lead to the same state from every state of both passes, and neither of them puts
anything into the output. -/
structure Interchangeable (options : Options) (first second : Statement) : Prop where
  state : ∀ pass state, (step options pass state (first, none)).1 =
    (step options pass state (second, none)).1
  mute : ∀ pass state, (step options pass state (first, none)).2.Mute ∧
    (step options pass state (second, none)).2.Mute

namespace Interchangeable

variable {options : Options} {first second statement : Statement}

theorem state_eq (same : Interchangeable options first second)
    (listed : statement ∈ [first, second]) (pass : Pass) (state : State) :
    (step options pass state (statement, none)).1 = (step options pass state (first, none)).1 := by
  rcases List.mem_pair.mp listed with rfl | rfl
  · rfl
  · exact (same.state pass state).symm

theorem mute_of_mem (same : Interchangeable options first second)
    (listed : statement ∈ [first, second]) (pass : Pass) (state : State) :
    (step options pass state (statement, none)).2.Mute := by
  rcases List.mem_pair.mp listed with rfl | rfl
  · exact (same.mute pass state).1
  · exact (same.mute pass state).2

/-- In a pass either of two such lines leads to the same states, and what is reported on the other
lines is the same. -/
theorem trace_eq (same : Interchangeable options first second) (pass : Pass) (start : State)
    (above below : List (Statement × Option Layout)) :
    ∃ reached final reports further, reports.length = above.length ∧
      ∀ statement ∈ [first, second],
        trace (step options pass) start (above ++ [(statement, none)] ++ below) =
          (final, reports ++ [(step options pass reached (statement, none)).2] ++ further) := by
  let afterAbove := trace (step options pass) start above
  let afterLine := (step options pass afterAbove.1 (first, none)).1
  let afterBelow := trace (step options pass) afterLine below
  refine ⟨afterAbove.1, afterBelow.1, afterAbove.2, afterBelow.2, length_trace .., ?_⟩
  intro statement listed
  rw [trace_append, trace_append, trace_cons, trace_nil, same.state_eq listed]

/-- In both passes: the first hands on the same layouts, so the second one is run on the same
items. -/
theorem outcomes_eq (same : Interchangeable options first second) (above below : List Statement) :
    ∃ reached reached' middle final reports further reports' further',
      reports'.length = above.length ∧
      ∀ statement ∈ [first, second],
        outcome options (above ++ [statement] ++ below) .one =
          (middle, reports ++ [(step options .one reached (statement, none)).2] ++ further) ∧
        outcome options (above ++ [statement] ++ below) .two =
          (final, reports' ++ [(step options .two reached' (statement, none)).2] ++ further') := by
  obtain ⟨reached, middle, reports, further, length, one⟩ :=
    same.trace_eq .one (initial options {}) (above.map (·, none)) (below.map (·, none))
  obtain ⟨reached', final, reports', further', length', two⟩ :=
    same.trace_eq .two (initial options middle.symbols) (above.zip (reports.map (·.layout)))
      (below.zip (further.map (·.layout)))
  rw [List.length_map] at length
  have count : reports'.length = above.length := by
    rw [length', List.length_zip, List.length_map, length, Nat.min_self]
  refine ⟨reached, reached', middle, final, reports, further, reports', further', count, ?_⟩
  intro statement listed
  have first : passOne options (above ++ [statement] ++ below) =
      (middle, reports ++ [(step options .one reached (statement, none)).2] ++ further) := by
    rw [← one statement listed, passOne, List.map_append, List.map_append]
    rfl
  refine ⟨first, ?_⟩
  show passAfter options (passOne options _) _ = _
  rw [← two statement listed, passAfter, first]
  simp only [List.map_append, List.map_cons, List.map_nil,
    (same.mute_of_mem listed .one reached).layout]
  rw [List.zip_append (by simp [length]), List.zip_append (by simp [length])]
  rfl

end Interchangeable

/-! ### Rejected instructions in a program -/

section Step

variable {options : Options} {pass : Pass} {state : State} {statement blank : Statement}
  {decided : Option Layout} {mnemonic : String} {operand : Option Operand} {unread : List Token}

/-- `blank` is a line with nothing but the label of `statement`, at the same place. -/
structure LabelOnly (statement blank : Statement) : Prop where
  operation : blank.operation = none
  label : blank.label = statement.label
  position : blank.position = statement.position

/-- **An instruction is rejected for its own sake**: whatever its operand is worth in a state, and
in either pass. -/
theorem rejects_effectOf_iff (followable : Effect.Followable mnemonic operand decided)
    (operation : statement.operation = some (.instruction mnemonic operand unread)) :
    (effectOf options pass state statement decided).Rejects ↔
      (Operation.instruction mnemonic operand unread).Rejected := by
  rw [effectOf_instruction operation]
  exact Effect.rejects_instruction_iff followable _ statement

theorem effectOf_of_rejected (options : Options) (pass : Pass) (state : State)
    (followable : Effect.Followable mnemonic operand decided)
    (operation : statement.operation = some (.instruction mnemonic operand unread))
    (rejected : (Operation.instruction mnemonic operand unread).Rejected) :
    ∃ earlier cause, cause.isRejection = true ∧
      effectOf options pass state statement decided = { problems := earlier ++ [cause] } := by
  rw [effectOf_instruction operation]
  exact Effect.instruction_of_rejected followable rejected _ statement

/-- A statement that is only reported gives its label a value and puts nothing into the output. -/
theorem assembled_of_reported {causes : List Cause}
    (reported : effectOf options pass state statement decided = { problems := causes }) :
    (assembled options pass state statement decided).1 =
        { state with
          symbols := state.symbols.give statement.position (state.given pass statement) } ∧
      (assembled options pass state statement decided).2.Mute ∧
      (assembled options pass state statement decided).2.diagnostics =
        (state.bind? pass statement.position (state.given pass statement)).2 ++
          found pass statement causes := by
  rw [assembled_eq, reported]
  refine ⟨?_, ⟨rfl, ?_, ?_⟩, rfl⟩
  · simp [State.apply, addNames]
  · simp
  · simp [relocations]

/-- A line with a label alone asks for nothing, and gives the label the same value. -/
theorem LabelOnly.effectOf_eq (line : LabelOnly statement blank) (options : Options) (pass : Pass)
    (state : State) (decided : Option Layout) :
    effectOf options pass state blank decided = { problems := [] } := by
  simp [effectOf, Effect.ofStatement, line.operation]

theorem LabelOnly.given_eq (line : LabelOnly statement blank)
    (operation : statement.operation = some (.instruction mnemonic operand unread)) :
    state.given pass blank = state.given pass statement := by
  simp [State.given, Statement.equate?, labelBinding, Statement.directive?, line.operation,
    line.label, operation]

theorem LabelOnly.role_eq (line : LabelOnly statement blank) : blank.role = .plain := by
  simp [Statement.role, line.operation]

/-- **A rejected instruction can be replaced by its label.** -/
theorem interchangeable_of_rejected
    (operation : statement.operation = some (.instruction mnemonic operand unread))
    (rejected : (Operation.instruction mnemonic operand unread).Rejected)
    (line : LabelOnly statement blank) : Interchangeable options statement blank := by
  have plain : statement.role = .plain := by simp [Statement.role, operation]
  have both (pass : Pass) (state : State) :
      (step options pass state (statement, none)).1 = (step options pass state (blank, none)).1 ∧
        (step options pass state (statement, none)).2.Mute ∧
        (step options pass state (blank, none)).2.Mute := by
    by_cases enabled : state.conditions.enabled = true
    · obtain ⟨earlier, cause, -, effect⟩ :=
        effectOf_of_rejected options pass state Effect.followable_none operation rejected
      obtain ⟨state₁, mute₁, -⟩ := assembled_of_reported effect
      obtain ⟨state₂, mute₂, -⟩ := assembled_of_reported (line.effectOf_eq options pass state none)
      rw [step_of_assembles ⟨plain, enabled⟩, step_of_assembles ⟨line.role_eq, enabled⟩, state₁,
        state₂, line.given_eq operation, line.position]
      exact ⟨rfl, mute₁, mute₂⟩
    · simp only [step_eq, plain, line.role_eq, if_neg enabled]
      exact ⟨rfl, ⟨rfl, rfl, rfl⟩, ⟨rfl, rfl, rfl⟩⟩
  exact ⟨fun pass state => (both pass state).1, fun pass state => (both pass state).2⟩

/-- A line with a label alone reports what a rejected instruction reports in the first pass, and
nothing in the second. -/
theorem diagnostics_of_labelOnly (options : Options)
    (operation : statement.operation = some (.instruction mnemonic operand unread))
    (rejected : (Operation.instruction mnemonic operand unread).Rejected)
    (line : LabelOnly statement blank) (state : State) :
    (step options .one state (blank, none)).2.diagnostics =
        (step options .one state (statement, none)).2.diagnostics ∧
      (step options .two state (blank, none)).2.diagnostics = [] := by
  have plain : statement.role = .plain := by simp [Statement.role, operation]
  by_cases enabled : state.conditions.enabled = true
  · obtain ⟨earlier, cause, -, effect⟩ :=
      effectOf_of_rejected options .one state Effect.followable_none operation rejected
    obtain ⟨-, -, own⟩ := assembled_of_reported effect
    have blanks (pass : Pass) :=
      (assembled_of_reported (line.effectOf_eq options pass state none)).2.2
    rw [step_of_assembles ⟨plain, enabled⟩, step_of_assembles ⟨line.role_eq, enabled⟩,
      step_of_assembles ⟨line.role_eq, enabled⟩, own, blanks, blanks, line.given_eq operation,
      line.position, warnings_two]
    exact ⟨rfl, rfl⟩
  · simp only [step_eq, plain, line.role_eq, if_neg enabled]
    exact ⟨rfl, rfl⟩

/-- A rejected instruction is reported, at its place, exactly where it is enabled. -/
theorem diagnostics_of_rejected (followable : Effect.Followable mnemonic operand decided)
    (operation : statement.operation = some (.instruction mnemonic operand unread))
    (rejected : (Operation.instruction mnemonic operand unread).Rejected) (state : State) :
    (∀ diagnostic ∈ (step options .two state (statement, decided)).2.diagnostics,
        diagnostic.position = some statement.position) ∧
      (state.conditions.enabled = true ↔
        ∃ diagnostic ∈ (step options .two state (statement, decided)).2.diagnostics,
          diagnostic.cause.isRejection = true) := by
  have plain : statement.role = .plain := by simp [Statement.role, operation]
  by_cases enabled : state.conditions.enabled = true
  · obtain ⟨earlier, cause, rejection, effect⟩ :=
      effectOf_of_rejected options .two state followable operation rejected
    obtain ⟨-, -, own⟩ := assembled_of_reported effect
    rw [step_of_assembles ⟨plain, enabled⟩, own, warnings_two, List.nil_append, found]
    refine ⟨fun diagnostic mem => ?_, fun _ => ?_, fun _ => enabled⟩
    · obtain ⟨other, -, rfl⟩ := List.mem_map.mp mem
      rfl
    · exact ⟨⟨cause, some statement.position⟩, by simp, rejection⟩
  · simp only [step_eq, plain, if_neg enabled]
    refine ⟨fun diagnostic mem => ?_, fun on => absurd on enabled, fun reported => ?_⟩
    · cases mem
    · obtain ⟨diagnostic, mem, -⟩ := reported
      cases mem

end Step

/-- In a pass over a program, the instruction at index `i` is one that is rejected where it is
enabled. -/
def RejectsAt (options : Options) (statements : List Statement) (pass : Pass) (i : Nat)
    (statement : Statement) : Prop :=
  (effectOf options pass (before options statements pass i) statement
    (decided options statements pass i)).Rejects

/-- **A rejected instruction affects nothing but its label.** An instruction is rejected wherever it
stands, in both passes of every program, or nowhere. A program with a rejected instruction assembles
to what it assembles to with the label alone in its place, and its diagnostics are the same but for
those reported at the instruction itself; these are there, in the second pass, exactly if the
instruction is enabled. -/
theorem rejected_affects_label_only (options : Options) (above below : List Statement)
    (statement blank : Statement) (mnemonic : String) (operand : Option Operand)
    (unread : List Token)
    (operation : statement.operation = some (.instruction mnemonic operand unread))
    (line : LabelOnly statement blank) :
    (∀ options statements pass i, statements[i]? = some statement →
        (RejectsAt options statements pass i statement ↔
          (Operation.instruction mnemonic operand unread).Rejected)) ∧
      ((Operation.instruction mnemonic operand unread).Rejected →
        let program := above ++ [statement] ++ below
        let artifact := run options program
        let other := run options (above ++ [blank] ++ below)
        let own := (visit options program .two above.length statement).2.diagnostics
        artifact.SameProgram other ∧
          (∃ front back, artifact.diagnostics = front ++ own ++ back ∧
            other.diagnostics = front ++ back) ∧
          (∀ diagnostic ∈ own, diagnostic.position = some statement.position) ∧
          ((before options program .two above.length).conditions.enabled = true ↔
            ∃ diagnostic ∈ own, diagnostic.cause.isRejection = true)) := by
  refine ⟨fun options statements pass i found => ?_, fun rejected => ?_⟩
  · exact rejects_effectOf_iff (followable_decided found operation) operation
  intro program artifact other own
  have found : program[above.length]? = some statement := by simp [program]
  have same : Interchangeable options statement blank :=
    interchangeable_of_rejected operation rejected line
  obtain ⟨reached, reached', middle, final, reports, further, reports', further', length, passes⟩ :=
    same.outcomes_eq above below
  obtain ⟨one, two⟩ := passes statement (by simp)
  obtain ⟨one', two'⟩ := passes blank (by simp)
  have visited : (step options .two reached' (statement, none)).2 =
      (visit options program .two above.length statement).2 := by
    have report : (outcome options program .two).2[above.length]? =
        some (visit options program .two above.length statement).2 := getElem?_reports found
    rw [two, List.append_assoc, ← length, List.getElem?_append_right (Nat.le_refl _)] at report
    simpa [← length] using report
  refine ⟨?_, ?_, ?_⟩
  · have mute := same.mute .two reached'
    refine sameProgram_of_outcomes (by rw [two, two']) ?_ ?_
    · rw [two, two']
      simp [mute.1.bytes, mute.2.bytes]
    · rw [two, two']
      simp [mute.1.relocations, mute.2.relocations]
  · refine ⟨(outcome options program .one).2.flatMap (·.diagnostics) ++
      reports'.flatMap (·.diagnostics), further'.flatMap (·.diagnostics) ++ closing final, ?_, ?_⟩
    · rw [diagnostics_run, two, visited]
      simp [own]
    · rw [diagnostics_run, one', two', one]
      simp [diagnostics_of_labelOnly options operation rejected line]
  · exact diagnostics_of_rejected (followable_decided found operation) operation rejected _

/-- An instruction with a label and a mode that the mnemonic does not have:

  SPOT  LDX LATER,X
-/
def unsupportedLoad : Statement :=
  { position := ⟨2, 1⟩, label := some ⟨"SPOT"⟩
    operation := some (.instruction "LDX" (some ⟨.absoluteX, .symbol ⟨"LATER"⟩⟩) []) }

/-- Between two jumps to its label, the second of which bears the label that it reads,
`unsupportedLoad` is rejected and leaves the jumps as its label alone does. The first pass does not
know the value of the operand; in the second one it is a zero-page address. -/
theorem rejected_affects_label_only_unsupportedLoad :
    let jump : Operation := .instruction "JMP" (some ⟨.absolute, .symbol ⟨"SPOT"⟩⟩) []
    let above : List Statement := [{ position := ⟨1, 8⟩, operation := some jump }]
    let below : List Statement :=
      [{ position := ⟨3, 1⟩, label := some ⟨"LATER"⟩, operation := some jump }]
    let blank : Statement := { position := ⟨2, 1⟩, label := some ⟨"SPOT"⟩ }
    let program := above ++ [unsupportedLoad] ++ below
    let other := above ++ [blank] ++ below
    let later (pass : Pass) := (before {} program pass 1).symbols.meaning ⟨"LATER"⟩
    LabelOnly unsupportedLoad blank ∧ later .one = .undefined ∧ later .two = .defined 3 ∧
      RejectsAt {} program .one 1 unsupportedLoad ∧ RejectsAt {} program .two 1 unsupportedLoad ∧
      (run {} program).SameProgram (run {} other) ∧
      (run {} other).bytes = [0x4C, 3, 0, 0x4C, 3, 0] ∧ (run {} other).diagnostics = [] ∧
      (run {} program).diagnostics =
        [⟨.unsupportedForm "LDX" .absoluteX, some ⟨2, 1⟩⟩] := by
  intro jump above below blank program other later
  have line : LabelOnly unsupportedLoad blank := ⟨rfl, rfl, rfl⟩
  have rejected : (Operation.instruction "LDX"
      (some ⟨.absoluteX, .symbol ⟨"LATER"⟩⟩) []).Rejected := by
    obtain ⟨opcode, known⟩ : ∃ opcode, Opcode.find? "LDX" = some opcode :=
      Option.isSome_iff_exists.mp (by decide +kernel)
    have missing : (Opcode.find? "LDX").all (fun opcode =>
        (Encode.candidates (some .absoluteX)).all (!opcode.supports ·)) = true := by decide +kernel
    rw [known, Option.all_some, List.all_eq_true] at missing
    exact .unsupported known fun mode candidate => by simpa using missing mode candidate
  obtain ⟨everywhere, replaced⟩ := rejected_affects_label_only {} above below unsupportedLoad blank
    "LDX" (some ⟨.absoluteX, .symbol ⟨"LATER"⟩⟩) [] rfl line
  obtain ⟨same, -⟩ := replaced rejected
  refine ⟨line, ?_, ?_, ?_, ?_, same, ?_⟩
  · decide +kernel
  · decide +kernel
  · exact (everywhere {} program .one 1 rfl).mpr rejected
  · exact (everywhere {} program .two 1 rfl).mpr rejected
  · decide +kernel

end Assembly

end Asm6502
