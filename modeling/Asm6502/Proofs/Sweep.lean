import Asm6502.Proofs.Instruction
import Asm6502.Proofs.Layout
import Mathlib.Data.List.Forall2

/-!
# Reading machine code back

Machine code can be read back without knowing the program: an opcode byte tells how many operand
bytes follow it, and the next opcode byte comes after these (`sweep`). For a program that is made of
instructions only, with errors or without, the sweep reads the code to its end and finds the
mnemonics of the statements that produced bytes, in their order, each in the mode that the first
pass laid it out in (`sweep_run`).

In such a program every statement is assembled in both passes, and none is in a dummy section
(`straight_before`). So each visit of the second pass produces nothing, or one instruction that the
sweep reads as a whole (`visit_encodes`), and the sweep of the output is put together from these
(`sweep_of_encodes`).
-/

namespace Asm6502

/-! ### Sweeps -/

/-- The instructions that machine code is made of, after the first `pending` bytes, which belong to
an operand. There are none if a byte that should be an opcode is not one, or if the code ends within
an instruction. -/
def sweep : (pending : Nat) → List UInt8 → Option (List (Opcode × Mode))
  | 0, [] => some []
  | _ + 1, [] => none
  | pending + 1, _ :: bytes => sweep pending bytes
  | 0, byte :: bytes =>
    match Opcode.decode? byte with
    | none => none
    | some (opcode, mode) => (sweep mode.operandLength bytes).map ((opcode, mode) :: ·)

theorem sweep_operand (operand rest : List UInt8) :
    sweep operand.length (operand ++ rest) = sweep 0 rest := by
  induction operand with
  | nil => rfl
  | cons byte operand ih => exact ih

/-- A whole instruction at the start is read first. -/
theorem sweep_instruction {byte : UInt8} {operand : List UInt8} {code : Opcode × Mode}
    (decodes : Opcode.decode? byte = some code) (length : operand.length = code.2.operandLength)
    (rest : List UInt8) :
    sweep 0 (byte :: operand ++ rest) = (sweep 0 rest).map (code :: ·) := by
  rw [List.cons_append, sweep, decodes]
  simp only [← length, sweep_operand]

namespace Assembly

/-! ### Statements and their code -/

/-- A statement with its layout reads as a mnemonic in a mode. -/
def ReadsAs (item : Statement × Option Layout) (code : Opcode × Mode) : Prop :=
  item.1.mnemonic?.map Text.upper = some code.1.mnemonic ∧ item.2 = some (.mode code.2)

/-- A statement with its layout has produced one instruction, if it has produced any bytes. -/
def Encodes (item : Statement × Option Layout) (bytes : List UInt8) : Prop :=
  bytes = [] ∨ ∃ byte operand code, bytes = byte :: operand ∧ Opcode.decode? byte = some code ∧
    operand.length = code.2.operandLength ∧ ReadsAs item code

/-- The statements that put bytes into the output, each with the layout that the first pass decided
on. -/
def emitting (options : Options) (statements : List Statement) : List (Statement × Option Layout) :=
  (((items options statements .two).zip (outcome options statements .two).2).filter
    (!·.2.bytes.isEmpty)).map (·.1)

/-- The instructions of statements one after another are read one after another. -/
theorem sweep_of_encodes {visits : List ((Statement × Option Layout) × Report)}
    (each : ∀ visit ∈ visits, Encodes visit.1 visit.2.bytes) :
    ∃ code, sweep 0 (visits.flatMap (·.2.bytes)) = some code ∧
      List.Forall₂ ReadsAs ((visits.filter (!·.2.bytes.isEmpty)).map (·.1)) code := by
  induction visits with
  | nil => exact ⟨[], rfl, .nil⟩
  | cons visit visits ih =>
    obtain ⟨code, swept, reads⟩ := ih fun other mem => each other (List.mem_cons_of_mem _ mem)
    rcases each visit List.mem_cons_self with
      none | ⟨byte, operand, first, bytes, decodes, length, read⟩
    · refine ⟨code, ?_, ?_⟩
      · rw [List.flatMap_cons, none, List.nil_append, swept]
      · simpa [none] using reads
    · refine ⟨first :: code, ?_, ?_⟩
      · rw [List.flatMap_cons, bytes, sweep_instruction decodes length, swept]
        rfl
      · simpa [bytes] using List.Forall₂.cons read reads

/-! ### Programs of instructions -/

variable {options : Options} {statements : List Statement} {pass : Pass} {i : Nat}
  {statement : Statement}

theorem exists_operation (instruction : statement.mnemonic?.isSome = true) :
    ∃ mnemonic operand unread,
      statement.operation = some (.instruction mnemonic operand unread) := by
  unfold Statement.mnemonic? at instruction
  split at instruction
  · exact ⟨_, _, _, by assumption⟩
  · cases instruction

theorem State.Straight.assembles {state : State} (straight : state.Straight)
    (instruction : statement.mnemonic?.isSome = true) : state.Assembles statement := by
  obtain ⟨mnemonic, operand, unread, operation⟩ := exists_operation instruction
  exact ⟨by simp only [Statement.role, operation], straight.1⟩

/-- An instruction opens no block and starts no dummy section. -/
theorem State.Straight.step {state : State} (straight : state.Straight)
    (instruction : statement.mnemonic?.isSome = true) (decided : Option Layout) :
    (step options pass state (statement, decided)).1.Straight := by
  obtain ⟨mnemonic, operand, unread, operation⟩ := exists_operation instruction
  rw [step_of_assembles (straight.assembles instruction), assembled_eq,
    effectOf_instruction operation]
  refine ⟨straight.1, ?_⟩
  simp only [State.apply, (Effect.onlyCode_instruction ..).dsect, Option.getD_none]
  exact straight.2

/-- In a program of instructions every state of both passes is straight. -/
theorem straight_before (options : Options)
    (instructions : ∀ statement ∈ statements, statement.mnemonic?.isSome = true) (pass : Pass)
    (i : Nat) : (before options statements pass i).Straight := by
  refine before_induction ?_ (fun i statement found straight => ?_) i
  · cases pass <;> exact ⟨rfl, rfl⟩
  · exact straight.step (instructions statement (List.mem_of_getElem? found)) _

/-- A visit of the second pass produces nothing, or one instruction in the mode that the first pass
laid it out in. -/
theorem visit_encodes (instructions : ∀ statement ∈ statements, statement.mnemonic?.isSome = true)
    (found : statements[i]? = some statement) :
    Encodes (statement, decided options statements .two i)
      (visit options statements .two i statement).2.bytes := by
  have instruction := instructions statement (List.mem_of_getElem? found)
  have first := straight_before options instructions .one i
  have second := straight_before options instructions .two i
  have laidOut : decided options statements .two i =
      (effectOf options .one (before options statements .one i) statement none).layout := by
    rw [decided_two found, visit, decided_one, step_of_assembles (first.assembles instruction),
      assembled_eq]
  -- the second pass follows the layout that it is given
  have followed := (alike_effectOf options (before options statements .one i)
    (before options statements .two i) statement).layout
  rw [← laidOut] at followed
  obtain ⟨mnemonic, operand, unread, operation⟩ := exists_operation instruction
  rw [visit, step_of_assembles (second.assembles instruction), bytes_assembled, second.2,
    effectOf_instruction operation]
  rw [effectOf_instruction operation] at followed
  rcases Effect.instruction_cases (followable_decided found operation) _ statement unread with
    ⟨-, none⟩ | ⟨opcode, mode, byte, -, coded⟩
  · exact .inl none
  · obtain ⟨decodes, named⟩ := coded.decodes
    refine .inr ⟨byte, _, (opcode, mode), coded.bytes, decodes, Encode.length_operandBytes .., ?_,
      followed.trans coded.layout⟩
    simp [Statement.mnemonic?, operation, named]

/-- **Machine code reads back as the program**: for a program that is made of instructions, with
errors or without, the sweep over the output reaches its end, and reads the mnemonics of the
statements that put bytes there, in order, each in the mode that the first pass laid it out in. -/
theorem sweep_run (options : Options) (statements : List Statement)
    (instructions : ∀ statement ∈ statements, statement.mnemonic?.isSome = true) :
    ∃ code, sweep 0 (run options statements).bytes = some code ∧
      List.Forall₂ ReadsAs (emitting options statements) code := by
  let visits := (items options statements .two).zip (outcome options statements .two).2
  have reports : visits.map (·.2) = (outcome options statements .two).2 :=
    List.map_snd_zip (by simp [outcome])
  have bytes : (run options statements).bytes = visits.flatMap (·.2.bytes) :=
    calc (run options statements).bytes
        = (outcome options statements .two).2.flatMap (·.bytes) := rfl
      _ = (visits.map (·.2)).flatMap (·.bytes) := by rw [reports]
      _ = visits.flatMap (·.2.bytes) := List.flatMap_map ..
  rw [bytes]
  refine sweep_of_encodes fun pair mem => ?_
  obtain ⟨i, here⟩ := List.mem_iff_getElem?.mp mem
  obtain ⟨item, report⟩ := List.getElem?_zip_eq_some.mp here
  have inside : i < statements.length := by
    simpa using (List.getElem?_eq_some_iff.mp item).1
  have found := List.getElem?_eq_getElem inside
  rw [getElem?_items found] at item
  rw [getElem?_reports found] at report
  rw [← Option.some.inj item, ← Option.some.inj report]
  exact visit_encodes instructions found

/-- Instructions with errors among them: a mnemonic that does not exist, an operand that the
mnemonic does not take, and a branch without a target, which is laid out all the same.

  LOOP  LDA $10,X
        FOO
        STA #1
        BNE
        JMP LOOP
-/
def faultyLoop : List Statement := [
  { position := ⟨1, 1⟩, label := some ⟨"LOOP"⟩
    operation := some (.instruction "LDA" (some ⟨.absoluteX, .literal 0x10⟩) []) },
  { position := ⟨2, 8⟩, operation := some (.instruction "FOO" none []) },
  { position := ⟨3, 8⟩
    operation := some (.instruction "STA" (some ⟨.immediate, .literal 1⟩) []) },
  { position := ⟨4, 8⟩, operation := some (.instruction "BNE" none []) },
  { position := ⟨5, 8⟩
    operation := some (.instruction "JMP" (some ⟨.absolute, .symbol ⟨"LOOP"⟩⟩) []) }]

/-- The code of `faultyLoop` reads back as its first, fourth and fifth statement. -/
theorem sweep_run_faultyLoop :
    (∀ statement ∈ faultyLoop, statement.mnemonic?.isSome = true) ∧
      (run {} faultyLoop).diagnostics.length = 3 ∧
      (run {} faultyLoop).bytes = [0xB5, 0x10, 0xD0, 0xFC, 0x4C, 0, 0] ∧
      (emitting {} faultyLoop).map (·.2) =
        [some (.mode .zeroPageX), some (.mode .relative), some (.mode .absolute)] ∧
      ∃ code, sweep 0 (run {} faultyLoop).bytes = some code ∧
        List.Forall₂ ReadsAs (emitting {} faultyLoop) code := by
  have instructions : ∀ statement ∈ faultyLoop, statement.mnemonic?.isSome = true := by decide
  refine ⟨instructions, ?_, ?_, ?_, sweep_run {} faultyLoop instructions⟩
  · decide +kernel
  · decide +kernel
  · decide +kernel

end Assembly

end Asm6502
