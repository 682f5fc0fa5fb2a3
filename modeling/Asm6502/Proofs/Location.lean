import Asm6502.Proofs.Contract
import Asm6502.Proofs.Instruction
import Asm6502.Proofs.Masking
import Asm6502.Proofs.Output

/-!
# Labels and the places of their code

The location counter has 16 bits and is moved by each statement, the output is a list of any length.
A statement moves the counter by the number of its bytes (`Effect.advance_ofStatement`), except that
a text moves it by 65535 at most. So where the bytes of a program follow one another from one origin
on (`Contiguous`), the counter of the second pass is the origin plus the number of bytes in the
output, modulo 65536 (`here_eq_of_contiguous`), and a label that is bound once points at the code of
its statement (`label_points_at_code`).
-/

namespace Asm6502

namespace Statement

/-- The statement spells out a text: a string, or hexadecimal digits. -/
def isText (statement : Statement) : Bool :=
  match statement.directive? with
  | some (.string _) | some .hex => true
  | _ => false

end Statement

namespace Effect

theorem advance_chunk {bytes : List UInt8} (short : bytes.length ≤ 65535) :
    (chunk bytes).advance = UInt16.ofNat bytes.length := by
  simp only [chunk, Nat.min_eq_left short]

theorem advance_encoded (env : Env) (opcode : Opcode) (mode : Mode) (operand : Option Operand)
    (value : UInt16) :
    (encoded env opcode mode operand value).advance =
      UInt16.ofNat (encoded env opcode mode operand value).bytes.length := by
  unfold encoded
  cases opcode.encoding? mode with
  | none => rfl
  | some byte => simp [Mode.instructionLength, Nat.add_comm]

/-- An instruction moves the location counter by its length. -/
theorem advance_instruction (env : Env) (decided : Option Layout) (statement : Statement)
    (mnemonic : String) (operand : Option Operand) (unread : List Token) :
    (instruction env decided statement mnemonic operand unread).advance =
      UInt16.ofNat (instruction env decided statement mnemonic operand unread).bytes.length := by
  cases known : Opcode.find? mnemonic with
  | none =>
    rw [instruction_of_unknown known]
    rfl
  | some opcode =>
    cases unread with
    | cons token unread =>
      rw [instruction_of_unread known]
      rfl
    | nil =>
      cases chosen : instructionMode opcode decided operand
          ((memoryExpr? opcode operand).map env.evaluate) with
      | error cause =>
        rw [instruction_of_error known chosen]
        rfl
      | ok mode =>
        rw [instruction_of_ok known chosen]
        exact advance_encoded ..

/-- Only `ORG` sets the location counter. -/
theorem origin_ofStatement (env : Env) (decided : Option Layout) {statement : Statement}
    (stays : statement.directive? ≠ some .org) :
    (ofStatement env decided statement).origin = none := by
  unfold ofStatement
  unfold Statement.directive? at stays
  cases operation : statement.operation with
  | none => rfl
  | some written =>
    rw [operation] at stays
    cases written with
    | instruction mnemonic operand unread => exact (onlyCode_instruction ..).origin
    | directive directive operand =>
      cases directive with
      | org => exact absurd rfl stays
      | reserve => cases operand <;> rfl
      | equ =>
        cases operand with
        | none => rfl
        | some expr =>
          simp only [Effect.directive, equate]
          cases statement.label <;> rfl
      | string style => exact (onlyCode_string ..).origin
      | hex => exact (onlyCode_hex _).origin
      | msb =>
        simp only [Effect.directive, setMsb]
        split <;> rfl
      | listing control =>
        simp only [Effect.directive, listing]
        split <;> rfl
      | _ => rfl

/-- **Moves of the location counter**: a statement moves it by the number of its bytes, if these are
not the bytes of a text that is too long. -/
theorem advance_ofStatement (env : Env) (decided : Option Layout) (statement : Statement)
    (short : statement.isText = true → (ofStatement env decided statement).bytes.length ≤ 65535) :
    (ofStatement env decided statement).advance =
      UInt16.ofNat (ofStatement env decided statement).bytes.length := by
  unfold Statement.isText Statement.directive? ofStatement at *
  cases operation : statement.operation with
  | none => rfl
  | some written =>
    rw [operation] at short
    cases written with
    | instruction mnemonic operand unread => exact advance_instruction ..
    | directive directive operand =>
      cases directive with
      | org => cases operand <;> rfl
      | reserve =>
        cases operand with
        | none => rfl
        | some expr => simp [Effect.directive, laidOut, reserve]
      | equ =>
        cases operand with
        | none => rfl
        | some expr =>
          simp only [Effect.directive, equate]
          cases statement.label <;> rfl
      | string style =>
        have length := short rfl
        simp only [Effect.directive, string] at length ⊢
        cases text : statement.string? with
        | none => rfl
        | some text' =>
          rw [text] at length
          exact advance_chunk length
      | hex =>
        have length := short rfl
        simp only [Effect.directive, hex] at length ⊢
        split at length
        · rename_i blank
          rw [if_pos blank]
          rfl
        · rename_i written
          rw [if_neg written]
          exact advance_chunk length
      | msb =>
        simp only [Effect.directive, setMsb]
        split <;> rfl
      | listing control =>
        simp only [Effect.directive, listing]
        split <;> rfl
      | _ => rfl

/-- An `ORG` goes to the address that it is laid out with, if it has an operand. -/
theorem ofStatement_of_org {statement : Statement} (sets : statement.directive? = some .org)
    (env : Env) (decided : Option Layout) :
    (ofStatement env decided statement).origin =
        (ofStatement env decided statement).layout.bind Layout.amount? ∧
      (ofStatement env decided statement).advance = 0 ∧
      (ofStatement env decided statement).bytes = [] := by
  obtain ⟨operand, operation⟩ := Statement.operation_of_directive? sets
  simp only [ofStatement, operation]
  cases operand <;> exact ⟨rfl, rfl, rfl⟩

end Effect

namespace Assembly

/-! ### Steps of the second pass -/

section Step

variable {options : Options} {pass : Pass} {state : State} {statement : Statement}
  {decided : Option Layout}

theorem here_assembled_eq :
    (assembled options pass state statement decided).1.here =
      (effectOf options pass state statement decided).origin.getD
        (state.here + (effectOf options pass state statement decided).advance) := by
  rw [assembled_eq]
  rfl

/-- Outside dummy sections a statement moves the location counter by what it puts out. -/
theorem here_step_two (outside : state.inDsect = false)
    (stays : statement.directive? ≠ some .org)
    (short : statement.isText = true →
      (step options .two state (statement, decided)).2.bytes.length ≤ 65535) :
    (step options .two state (statement, decided)).1.here =
      state.here +
        UInt16.ofNat (step options .two state (statement, decided)).2.bytes.length := by
  by_cases assembles : state.Assembles statement
  · rw [step_of_assembles assembles, bytes_assembled, outside] at short ⊢
    rw [here_assembled_eq, effectOf, Effect.origin_ofStatement _ decided stays,
      Effect.advance_ofStatement _ decided statement short]
    rfl
  · rw [step_of_not_assembles assembles, (report_of_not_assembles assembles).2.1]
    simp

/-- Only `DSECT` opens a dummy section. -/
theorem outside_step (outside : state.inDsect = false)
    (stays : statement.directive? ≠ some .dsect) :
    (step options pass state (statement, decided)).1.inDsect = false := by
  rw [inDsect_step, outside, Statement.section?]
  split
  · split
    · contradiction
    · rfl
    · rfl
  · rfl

end Step

/-! ### Contiguous programs -/

section Passes

variable (options : Options) (statements : List Statement)

/-- The bytes of the program follow one another from one origin on: there are no dummy sections and
no `ORG` but at the start, and no text is longer than the location counter can tell. -/
structure Contiguous : Prop where
  noDsect : ∀ statement ∈ statements, statement.directive? ≠ some .dsect
  noOrigin : ∀ statement ∈ statements.tail, statement.directive? ≠ some .org
  short : ∀ i statement, statements[i]? = some statement → statement.isText = true →
    (visit options statements .two i statement).2.bytes.length ≤ 65535

/-- The address that an `ORG` at the start was laid out with; zero without one. -/
def origin : UInt16 :=
  match statements.head?.bind Statement.directive? with
  | some .org => ((decided options statements .two 0).bind Layout.amount?).getD 0
  | _ => 0

end Passes

variable {options : Options} {statements : List Statement} {pass : Pass} {i : Nat}
  {statement : Statement} {name : Name}

/-- Past an `ORG` at the start stands every statement that is no `ORG`. -/
theorem pos_of_ne_org (found : statements[i]? = some statement)
    (stays : statement.directive? ≠ some .org) {first : Statement}
    (start : statements[0]? = some first) (sets : first.directive? = some .org) : 0 < i := by
  refine Nat.pos_of_ne_zero ?_
  rintro rfl
  obtain rfl := Option.some.inj (found.symm.trans start)
  exact stays sets

theorem Contiguous.outside (contiguous : Contiguous options statements) (pass : Pass)
    (le : i ≤ statements.length) : (before options statements pass i).inDsect = false := by
  induction i with
  | zero =>
    rw [before_zero]
    cases pass <;> rfl
  | succ i ih =>
    have found := List.getElem?_eq_getElem le
    rw [before_succ found]
    exact outside_step (ih (Nat.le_of_lt le)) (contiguous.noDsect _ (List.getElem_mem le))

/-- An `ORG` at the start goes to the origin and puts out nothing. -/
theorem here_of_org (found : statements[0]? = some statement)
    (sets : statement.directive? = some .org) :
    (before options statements .two 1).here = origin options statements ∧
      (visit options statements .two 0 statement).2.bytes = [] := by
  obtain ⟨operand, operation⟩ := Statement.operation_of_directive? sets
  have assembles (pass : Pass) : (before options statements pass 0).Assembles statement := by
    rw [before_zero]
    cases pass <;> exact ⟨by simp [Statement.role, operation], rfl⟩
  let first := effectOf options .one (before options statements .one 0) statement none
  have layout : decided options statements .two 0 = first.layout := by
    rw [decided_two found, visit, decided_one, step_of_assembles (assembles .one), assembled_eq]
  let second := effectOf options .two (before options statements .two 0) statement first.layout
  have alike : first.Alike second := alike_effectOf ..
  obtain ⟨moved, advance, silent⟩ : second.origin = second.layout.bind Layout.amount? ∧
      second.advance = 0 ∧ second.bytes = [] := Effect.ofStatement_of_org sets _ _
  have visited : visit options statements .two 0 statement =
      assembled options .two (before options statements .two 0) statement first.layout := by
    rw [visit, layout, step_of_assembles (assembles .two)]
  constructor
  · have address : origin options statements = second.origin.getD 0 := by
      rw [moved, ← alike.layout, origin, List.head?_eq_getElem?, found, Option.bind_some, sets,
        layout]
    have start : (before options statements .two 0).here = 0 := by rw [before_zero]; rfl
    rw [before_succ found, visited, here_assembled_eq, address, start]
    show second.origin.getD (0 + second.advance) = second.origin.getD 0
    rw [advance]
    rfl
  · rw [visited, bytes_assembled]
    split
    · rfl
    · exact silent

/-- **The location counter and the output**: past an `ORG` at the start, the counter of the second
pass is the origin plus the number of bytes in the output. -/
theorem here_eq_of_contiguous (contiguous : Contiguous options statements)
    (le : i ≤ statements.length)
    (past : ∀ first, statements[0]? = some first → first.directive? = some .org → 0 < i) :
    (before options statements .two i).here =
      origin options statements + UInt16.ofNat (outputBefore options statements i) := by
  induction i with
  | zero =>
    have start : (before options statements .two 0).here = 0 := by rw [before_zero]; rfl
    have address : origin options statements = 0 := by
      rw [origin]
      split
      · rename_i sets
        rw [List.head?_eq_getElem?, Option.bind_eq_some_iff] at sets
        obtain ⟨first, found, sets⟩ := sets
        exact absurd (past first found sets) (Nat.lt_irrefl 0)
      · rfl
    rw [start, address, outputBefore]
    simp
  | succ i ih =>
    have found := List.getElem?_eq_getElem le
    rw [outputBefore_succ found]
    by_cases sets : statements[i].directive? = some .org
    · -- only the first statement can be an `ORG`
      obtain rfl : i = 0 := by
        cases i with
        | zero => rfl
        | succ i =>
          have later : statements[i + 1] ∈ statements.tail :=
            List.mem_of_getElem? (by rwa [List.getElem?_tail])
          exact absurd sets (contiguous.noOrigin _ later)
      obtain ⟨here, silent⟩ := here_of_org found sets
      rw [here, silent, outputBefore]
      simp
    · have outside := contiguous.outside .two (Nat.le_of_lt le)
      have moved := here_step_two outside sets (contiguous.short i _ found)
      calc (before options statements .two (i + 1)).here
          = (before options statements .two i).here +
              UInt16.ofNat (visit options statements .two i statements[i]).2.bytes.length := by
            rw [before_succ found]
            exact moved
        _ = origin options statements + (UInt16.ofNat (outputBefore options statements i) +
              UInt16.ofNat (visit options statements .two i statements[i]).2.bytes.length) := by
            rw [ih (Nat.le_of_lt le) fun _ => pos_of_ne_org found sets, UInt16.add_assoc]
        _ = _ := by rw [UInt16.ofNat_add]

/-- **Labels point at their code**: in a program whose bytes follow one another from one origin on,
a name that a single statement of the second pass binds, as a label, ends with the place of the
statement in the output: the origin and the number of bytes before it, modulo 65536. -/
theorem label_points_at_code (options : Options) (statements : List Statement)
    (contiguous : Contiguous options statements) (i : Nat) (statement : Statement) (name : Name)
    (found : statements[i]? = some statement)
    (enabled : (before options statements .two i).Assembles statement)
    (labelled : statement.label = some name)
    (located : statement.directive? ≠ some .equ ∧ statement.directive? ≠ some .org)
    (only : ∀ j, Binds options statements .two j name → j = i) :
    ∃ value, (run options statements).symbols.meaning name = .defined value ∧
      value.toNat =
        ((origin options statements).toNat + outputBefore options statements i) % 65536 ∧
      StandsAt (run options statements).bytes (outputBefore options statements i)
        (visit options statements .two i statement).2.bytes := by
  have label : Labels options statements .two i name :=
    ⟨statement, found, enabled, by rw [Statement.locationLabel?, if_neg located.1, labelled]⟩
  have last : GivesLast options statements i name (before options statements .two i).here := by
    refine ⟨label.gives, ?_⟩
    intro j later binds
    exact absurd (only j binds) (Nat.ne_of_gt later)
  have inside : i < statements.length := (List.getElem?_eq_some_iff.mp found).1
  refine ⟨_, last.meaning_run, ?_, standsAt_visit found⟩
  rw [here_eq_of_contiguous contiguous (Nat.le_of_lt inside) fun _ => pos_of_ne_org found located.2,
    UInt16.toNat_add, UInt16.toNat_ofNat']
  simp

/-- A program that runs over the end of the memory, with a label behind a branch that is left out:

        ORG $FFFD
        ASC "ABC"
        DO 0
        DS 100
        FIN
        DS 2
  PAST  RTS
-/
def wrappedProgram : List Statement := [
  { position := ⟨1, 8⟩, operation := some (.directive .org (some (.literal 0xFFFD))) },
  { position := ⟨2, 8⟩, operation := some (.directive (.string .plain) none)
    operandTokens := [⟨.string, "\"ABC\"", ⟨2, 12⟩⟩] },
  { position := ⟨3, 8⟩, operation := some (.directive (.opener .holds) (some (.literal 0))) },
  { position := ⟨4, 8⟩, operation := some (.directive .reserve (some (.literal 100))) },
  { position := ⟨5, 8⟩, operation := some (.directive .fin none) },
  { position := ⟨6, 8⟩, operation := some (.directive .reserve (some (.literal 2))) },
  { position := ⟨7, 1⟩, label := some ⟨"PAST"⟩
    operation := some (.instruction "RTS" none []) }]

/-- The label of `wrappedProgram` is `$0002`: five bytes past `$FFFD`. -/
theorem label_points_at_code_wrappedProgram :
    Contiguous {} wrappedProgram ∧ origin {} wrappedProgram = 0xFFFD ∧
      outputBefore {} wrappedProgram 6 = 5 ∧
      (run {} wrappedProgram).symbols.meaning ⟨"PAST"⟩ = .defined 2 ∧
      (run {} wrappedProgram).bytes = [0x41, 0x42, 0x43, 0, 0, 0x60] := by
  have contiguous : Contiguous {} wrappedProgram :=
    ⟨by decide, by decide, forall_getElem?_iff.mpr (by decide +kernel)⟩
  have only : ∀ j < wrappedProgram.length,
      Binds {} wrappedProgram .two j ⟨"PAST"⟩ → j = 6 := by decide +kernel
  obtain ⟨value, meaning, place, -⟩ := label_points_at_code {} wrappedProgram contiguous 6
    { position := ⟨7, 1⟩, label := some ⟨"PAST"⟩
      operation := some (.instruction "RTS" none []) } ⟨"PAST"⟩ rfl (by decide +kernel) rfl
    (by decide) fun j binds => only j binds.lt_length binds
  have before : outputBefore {} wrappedProgram 6 = 5 := by decide +kernel
  have address : origin {} wrappedProgram = 0xFFFD := by decide +kernel
  have wrapped : value = 2 := by
    rw [before, address] at place
    exact UInt16.toNat.inj place
  exact ⟨contiguous, address, before, wrapped ▸ meaning, by decide +kernel⟩

end Assembly

end Asm6502
