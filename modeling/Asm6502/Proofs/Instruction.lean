import Asm6502.Proofs.Lookup
import Asm6502.Proofs.Step
import Asm6502.Proofs.Trajectory

/-!
# What the bytes of an instruction say

An instruction that is assembled without a diagnostic puts bytes into the output that say what the
statement says: the opcode byte decodes to its mnemonic and to an addressing mode, as many bytes
follow as the mode has, and they denote the value of the operand in the way of the mode
(`operand_bytes_denote`). The mode was chosen in the first pass, from a value that the operand need
not have any more; every value that does not fit the mode is reported
(`Encode.denotes_operandBytes`).

`Effect.instruction_cases` says what an instruction can do: it produces no bytes, or it is `Coded`
in one of the modes that its operand can select (`Encode.Selectable`).
-/

namespace Asm6502

/-! ### Bytes and distances -/

@[simp] theorem toNat_lowByte (w : UInt16) : (lowByte w).toNat = w.toNat % 256 := by
  simp [lowByte]

@[simp] theorem toNat_highByte (w : UInt16) : (highByte w).toNat = w.toNat / 256 := by
  have bound := w.toNat_lt
  have shifted : (w >>> 8).toNat = w.toNat / 256 := by simp [Nat.shiftRight_eq_div_pow]
  rw [highByte, UInt16.toNat_toUInt8, shifted]
  omega

namespace Branch

/-- The operand byte of a branch that reaches its target is the distance, as a signed byte. -/
theorem toInt_offset {source target : UInt16} (reached : reaches source target = true) :
    (offset source target).toInt8.toInt = distance source target := by
  simp only [reaches, Bool.and_eq_true, decide_eq_true_eq] at reached
  unfold offset
  generalize distance source target = d at reached ⊢
  rw [UInt8.ofInt, Int8.toInt, UInt8.toInt8, Int8.toBitVec, BitVec.toInt_eq_toNat_bmod]
  simp [Int.bmod]
  omega

end Branch

/-! ### The opcode table -/

namespace Opcode

private theorem decode?_entries :
    ∀ opcode ∈ table, ∀ entry ∈ opcode.encodings,
      decode? entry.2 = some (opcode, entry.1) := by
  decide +kernel

private theorem isBranch_of_accumulator :
    ∀ opcode ∈ table, opcode.supports .accumulator = true → opcode.isBranch = false := by
  decide +kernel

variable {opcode : Opcode} {mode : Mode} {byte : UInt8} {name : String}

theorem find?_eq_some (known : find? name = some opcode) :
    opcode ∈ table ∧ opcode.mnemonic = Text.upper name := by
  rw [find?_eq] at known
  refine ⟨List.mem_of_find?_eq_some known, ?_⟩
  simpa using List.find?_some known

/-- No two mnemonics and modes share a byte: each byte of the table decodes to its own. -/
theorem decode?_of_encoding? (listed : opcode ∈ table)
    (encoding : opcode.encoding? mode = some byte) : decode? byte = some (opcode, mode) := by
  obtain ⟨before, after, split, -⟩ := List.lookup_eq_some_iff.mp encoding
  exact decode?_entries opcode listed (mode, byte) (by simp [split])

end Opcode

/-! ### Modes that an operand can select -/

namespace Encode

/-- The mode is selected for an operand of the given form, for some of its values. -/
def Selectable (opcode : Opcode) (form : Option Form) (mode : Mode) : Prop :=
  ∃ narrow, selectMode opcode form narrow = .ok mode

/-- The operand `A` of a mnemonic with the accumulator mode selects that mode. -/
theorem Selectable.accumulator {opcode : Opcode} {mode : Mode}
    (selectable : Selectable opcode (some .accumulator) mode) (listed : opcode ∈ Opcode.table)
    (supported : opcode.supports .accumulator = true) : mode = .accumulator := by
  obtain ⟨narrow, selected⟩ := selectable
  have straight := Opcode.isBranch_of_accumulator opcode listed supported
  simp [selectMode, straight, formMode?, supported] at selected
  exact selected.symm

theorem supports_of_firstMode? {opcode : Opcode} {modes : List Mode} {mode : Mode}
    (first : firstMode? opcode modes = some mode) : opcode.supports mode = true :=
  List.find?_some first

theorem supports_of_formMode? {opcode : Opcode} {form : Form} {narrow : Bool} {mode : Mode}
    (chosen : formMode? opcode narrow form = some mode) : opcode.supports mode = true := by
  cases form with
  | accumulator =>
    simp only [formMode?] at chosen
    split at chosen
    · rename_i supported
      obtain rfl := Option.some.inj chosen
      exact supported
    · exact supports_of_firstMode? chosen
  | immediate | immediateLow | immediateHigh | absolute | absoluteX | absoluteY | indirect
  | indirectX | indirectY => exact supports_of_firstMode? chosen

/-- A mode that can be selected has an opcode byte. -/
theorem Selectable.encoding {opcode : Opcode} {form : Option Form} {mode : Mode}
    (selectable : Selectable opcode form mode) : ∃ byte, opcode.encoding? mode = some byte := by
  refine Option.isSome_iff_exists.mp ?_
  obtain ⟨narrow, selected⟩ := selectable
  unfold selectMode at selected
  split at selected
  · rename_i branch
    obtain rfl := Except.ok.inj selected
    exact branch
  · cases form with
    | none =>
      cases first : firstMode? opcode [.implied, .accumulator] with
      | none => simp [first] at selected
      | some chosen =>
        simp only [first, Except.ok.injEq] at selected
        exact selected ▸ supports_of_firstMode? first
    | some form =>
      cases chosen : formMode? opcode narrow form with
      | none => simp [chosen] at selected
      | some other =>
        simp only [chosen, Except.ok.injEq] at selected
        exact selected ▸ supports_of_formMode? chosen

/-! ### Operand bytes -/

/-- The operand bytes of an instruction at `here`, with an operand of the given form, denote a
value. -/
def Denotes (mode : Mode) (form : Form) (here value : UInt16) (bytes : List UInt8) : Prop :=
  match mode with
  | .implied | .accumulator => bytes = []
  | .relative =>
    ∃ byte, bytes = [byte] ∧ ((here.toNat : Int) + 2 + byte.toInt8.toInt) % 65536 = value.toNat
  | .immediate =>
    ∃ byte, bytes = [byte] ∧
      match form with
      | .immediateLow => byte.toNat = value.toNat % 256
      | .immediateHigh => byte.toNat = value.toNat / 256
      | _ => value.toNat ≤ 255 ∧ byte.toNat = value.toNat
  | .zeroPage | .zeroPageX | .zeroPageY | .indirectX | .indirectY =>
    ∃ byte, bytes = [byte] ∧ value.toNat ≤ 255 ∧ byte.toNat = value.toNat
  | .absolute | .absoluteX | .absoluteY | .indirect =>
    ∃ low high, bytes = [low, high] ∧ low.toNat + 256 * high.toNat = value.toNat

/-- A value that is not reported as too large is below 256. -/
theorem toNat_le_of_unreported {value : UInt16} {cause : Cause}
    (unreported : (if 0xFF < value then [cause] else []) = []) : value.toNat ≤ 255 := by
  by_cases large : 0xFF < value
  · simp [large] at unreported
  · rw [UInt16.lt_iff_toNat_lt] at large
    simpa using large

/-- **Every truncation is reported**: operand bytes with which nothing is wrong denote the value. -/
theorem denotes_operandBytes {mode : Mode} {form : Form} {here value : UInt16}
    (sound : operandProblems mode (some form) here value = []) :
    Denotes mode form here value (operandBytes mode (some form) here value) := by
  have bound := value.toNat_lt
  cases mode with
  | implied | accumulator => rfl
  | relative =>
    have reached : Branch.reaches here value = true := by
      cases reached : Branch.reaches here value with
      | true => rfl
      | false => simp [operandProblems, reached] at sound
    refine ⟨_, rfl, ?_⟩
    rw [Branch.toInt_offset reached, Branch.distance]
    omega
  | immediate =>
    refine ⟨_, rfl, ?_⟩
    cases form with
    | immediateLow => exact toNat_lowByte value
    | immediateHigh => exact toNat_highByte value
    | accumulator | immediate | absolute | absoluteX | absoluteY | indirect | indirectX
    | indirectY =>
      have small := toNat_le_of_unreported sound
      refine ⟨small, ?_⟩
      simp only [immediateByte, toNat_lowByte]
      omega
  | zeroPage | zeroPageX | zeroPageY | indirectX | indirectY =>
    have small := toNat_le_of_unreported sound
    refine ⟨_, rfl, small, ?_⟩
    rw [toNat_lowByte]
    omega
  | absolute | absoluteX | absoluteY | indirect =>
    refine ⟨_, _, rfl, ?_⟩
    rw [toNat_lowByte, toNat_highByte]
    omega

end Encode

/-! ### What an instruction can do -/

namespace Effect

/-- An instruction that is encoded: what its effect is made of, and what is found wrong with the
operand. -/
structure Coded (env : Env) (mnemonic : String) (operand : Option Operand) (opcode : Opcode)
    (mode : Mode) (byte : UInt8) (effect : Effect) : Prop where
  known : Opcode.find? mnemonic = some opcode
  encoding : opcode.encoding? mode = some byte
  layout : effect.layout = some (.mode mode)
  bytes : effect.bytes = byte :: Encode.operandBytes mode (operand.map (·.form)) env.here
    (operandValue env opcode operand)
  fixups : effect.fixups = instructionFixups mode operand
  missing : 0 < mode.operandLength → operand = none →
    .operandMissing opcode.mnemonic ∈ effect.problems
  problems : Encode.operandProblems mode (operand.map (·.form)) env.here
    (operandValue env opcode operand) ⊆ effect.problems

/-- What was decided on the layout of an instruction is, if anything, a mode that its operand can
select. -/
def Followable (mnemonic : String) (operand : Option Operand) (decided : Option Layout) : Prop :=
  ∀ opcode mode, Opcode.find? mnemonic = some opcode → decided = some (.mode mode) →
    Encode.Selectable opcode (operand.map (·.form)) mode

section Instruction

variable {env : Env} {decided : Option Layout} {mnemonic : String} {operand : Option Operand}
  {opcode : Opcode} {mode : Mode}

theorem Followable.selectable {evaluation : Option Evaluation}
    (followable : Followable mnemonic operand decided) (known : Opcode.find? mnemonic = some opcode)
    (chosen : instructionMode opcode decided operand evaluation = .ok mode) :
    Encode.Selectable opcode (operand.map (·.form)) mode := by
  cases decided with
  | none => exact ⟨_, chosen⟩
  | some layout =>
    cases layout with
    | amount value => exact ⟨_, chosen⟩
    | mode decidedMode =>
      obtain rfl : decidedMode = mode := Except.ok.inj chosen
      exact followable opcode decidedMode known rfl

/-- **An instruction** decides on no layout and produces no bytes, so that none of them depends on
where the program is loaded; or it is encoded in a mode that its operand can select. -/
theorem instruction_cases (followable : Followable mnemonic operand decided) (env : Env)
    (statement : Statement) (unread : List Token) :
    (((instruction env decided statement mnemonic operand unread).layout = none ∧
          (instruction env decided statement mnemonic operand unread).fixups = []) ∧
        (instruction env decided statement mnemonic operand unread).bytes = []) ∨
      ∃ opcode mode byte, Encode.Selectable opcode (operand.map (·.form)) mode ∧
        Coded env mnemonic operand opcode mode byte
          (instruction env decided statement mnemonic operand unread) := by
  cases known : Opcode.find? mnemonic with
  | none =>
    rw [instruction_of_unknown known]
    exact .inl ⟨⟨rfl, rfl⟩, rfl⟩
  | some opcode =>
    cases unread with
    | cons token unread =>
      rw [instruction_of_unread known]
      exact .inl ⟨⟨rfl, rfl⟩, rfl⟩
    | nil =>
      cases chosen : instructionMode opcode decided operand
          ((memoryExpr? opcode operand).map env.evaluate) with
      | error cause =>
        rw [instruction_of_error known chosen]
        exact .inl ⟨⟨rfl, rfl⟩, rfl⟩
      | ok mode =>
        have selectable := followable.selectable known chosen
        obtain ⟨byte, encoding⟩ := selectable.encoding
        rw [instruction_of_ok known chosen]
        refine .inr ⟨opcode, mode, byte, selectable, known, encoding, layout_encoded .., ?_, ?_, ?_,
          ?_⟩
        · simp only [encoded, encoding]
        · simp only [encoded, encoding]
        · intro long none
          simp [encoded, encoding, long, none]
        · intro cause found
          simp [encoded, encoding, found]

/-- The mode of an encoded instruction whose operand is the register `A` is no longer than the
opcode byte, so the operand bytes of any other are those of its value. -/
theorem operandValue_of_selectable {written : Operand}
    (selectable : Encode.Selectable opcode (some written.form) mode)
    (listed : opcode ∈ Opcode.table) (long : 0 < mode.operandLength) :
    operandValue env opcode (some written) = (env.evaluate written.expr).value := by
  have memory : memoryOperand? opcode (some written) = some written := by
    cases register : written.form == .accumulator && opcode.supports .accumulator with
    | false => simp only [memoryOperand?, Option.filter_some, register, Bool.not_false, if_true]
    | true =>
      simp only [Bool.and_eq_true, beq_iff_eq] at register
      rw [register.1] at selectable
      rw [selectable.accumulator listed register.2] at long
      cases long
  simp [operandValue, memoryExpr?, memory]

/-- The first byte of an encoded instruction decodes to its mnemonic and its mode. -/
theorem Coded.decodes {byte : UInt8} {effect : Effect}
    (coded : Coded env mnemonic operand opcode mode byte effect) :
    Opcode.decode? byte = some (opcode, mode) ∧ opcode.mnemonic = Text.upper mnemonic := by
  have ⟨listed, named⟩ := Opcode.find?_eq_some coded.known
  exact ⟨Opcode.decode?_of_encoding? listed coded.encoding, named⟩

/-- The other bytes denote the value of the operand, if nothing is found wrong. -/
theorem Coded.denotes {byte : UInt8} {effect : Effect}
    (coded : Coded env mnemonic operand opcode mode byte effect)
    (selectable : Encode.Selectable opcode (operand.map (·.form)) mode)
    (clean : effect.problems = []) (long : 0 < mode.operandLength) :
    ∃ written, operand = some written ∧
      Encode.Denotes mode written.form env.here (env.evaluate written.expr).value
        (Encode.operandBytes mode (operand.map (·.form)) env.here
          (operandValue env opcode operand)) := by
  have sound := coded.problems
  rw [clean, List.subset_nil] at sound
  cases operand with
  | none =>
    have missing := coded.missing long rfl
    rw [clean] at missing
    cases missing
  | some written =>
    have listed := (Opcode.find?_eq_some coded.known).1
    refine ⟨written, rfl, ?_⟩
    rw [operandValue_of_selectable selectable listed long] at sound ⊢
    exact Encode.denotes_operandBytes sound

end Instruction

end Effect

namespace Assembly

/-! ### Visits of instructions -/

section Step

variable {options : Options} {pass : Pass} {state : State} {statement : Statement}
  {decided : Option Layout}

/-- A statement that is not assembled decides on no layout, produces no bytes and records no
relocations. -/
theorem report_of_not_assembles (idle : ¬ state.Assembles statement) :
    (step options pass state (statement, decided)).2.layout = none ∧
      (step options pass state (statement, decided)).2.bytes = [] ∧
      (step options pass state (statement, decided)).2.relocations = [] := by
  rw [step_eq]
  cases role : statement.role with
  | opens test operand => exact ⟨rfl, rfl, rfl⟩
  | turns => exact ⟨rfl, rfl, rfl⟩
  | closes => exact ⟨rfl, rfl, rfl⟩
  | plain =>
    have disabled : ¬ state.conditions.enabled = true := fun enabled => idle ⟨role, enabled⟩
    simp only [if_neg disabled]
    exact ⟨rfl, rfl, rfl⟩

theorem bytes_assembled :
    (assembled options .two state statement decided).2.bytes =
      if state.inDsect then [] else (effectOf options .two state statement decided).bytes := by
  rw [assembled_eq]
  cases state.inDsect <;> simp

theorem assembles_of_emits
    (emits : (step options .two state (statement, decided)).2.bytes ≠ []) :
    state.Assembles statement ∧
      (step options .two state (statement, decided)).2.bytes =
        (effectOf options .two state statement decided).bytes := by
  by_cases assembles : state.Assembles statement
  · refine ⟨assembles, ?_⟩
    rw [step_of_assembles assembles, bytes_assembled] at emits ⊢
    split at emits
    · exact absurd rfl emits
    · rename_i outside
      rw [if_neg outside]
  · exact absurd (report_of_not_assembles assembles).2.1 emits

/-- In the second pass whatever is wrong with an assembled statement is reported. -/
theorem problems_eq_nil_of_clean (assembles : state.Assembles statement)
    (clean : (step options .two state (statement, decided)).2.diagnostics = []) :
    (effectOf options .two state statement decided).problems = [] := by
  rw [step_of_assembles assembles, assembled_eq, List.append_eq_nil_iff] at clean
  simpa [found] using clean.2

theorem effectOf_instruction {mnemonic : String} {operand : Option Operand} {unread : List Token}
    (operation : statement.operation = some (.instruction mnemonic operand unread)) :
    effectOf options pass state statement decided =
      Effect.instruction (({ state with symbols := state.seen statement } : State).env options pass)
        decided statement mnemonic operand unread := by
  simp only [effectOf, Effect.ofStatement, operation]

end Step

variable {options : Options} {statements : List Statement} {pass : Pass} {i : Nat}
  {statement : Statement} {mnemonic : String} {operand : Option Operand} {unread : List Token}

/-- What a pass is given on the layout of an instruction is a mode that its operand can select. -/
theorem followable_decided (found : statements[i]? = some statement)
    (operation : statement.operation = some (.instruction mnemonic operand unread)) :
    Effect.Followable mnemonic operand (decided options statements pass i) := by
  intro opcode mode known given
  have free : Effect.Followable mnemonic operand none := fun _ _ _ none => by cases none
  cases pass with
  | one =>
    rw [decided_one] at given
    cases given
  | two =>
    rw [decided_two found, visit, decided_one] at given
    by_cases assembles : (before options statements .one i).Assembles statement
    · rw [step_of_assembles assembles, assembled_eq] at given
      simp only [effectOf_instruction operation] at given
      rcases Effect.instruction_cases free _ statement unread with ⟨⟨none, -⟩, -⟩ | coded
      · rw [none] at given
        cases given
      · obtain ⟨other, selected, byte, selectable, coded⟩ := coded
        obtain rfl : other = opcode := Option.some.inj (coded.known.symm.trans known)
        rw [coded.layout] at given
        obtain rfl : selected = mode := by simpa using given
        exact selectable
    · rw [(report_of_not_assembles assembles).1] at given
      cases given

/-- **No operand is silently wrong**: if the second pass assembles an instruction to bytes and finds
nothing wrong with it, the first byte decodes to the mnemonic of the statement and a mode, as many
bytes follow as the mode has, and they denote the value that the operand has in this pass. This is
so whatever value the operand had in the first pass, which chose the mode. -/
theorem operand_bytes_denote (options : Options) (statements : List Statement) (i : Nat)
    (statement : Statement) (mnemonic : String) (operand : Option Operand) (unread : List Token)
    (found : statements[i]? = some statement)
    (operation : statement.operation = some (.instruction mnemonic operand unread))
    (emits : (visit options statements .two i statement).2.bytes ≠ [])
    (clean : (visit options statements .two i statement).2.diagnostics = []) :
    let state := before options statements .two i
    ∃ byte rest opcode mode,
      (visit options statements .two i statement).2.bytes = byte :: rest ∧
      Opcode.decode? byte = some (opcode, mode) ∧ opcode.mnemonic = Text.upper mnemonic ∧
      rest.length = mode.operandLength ∧
      (0 < mode.operandLength → ∃ written, operand = some written ∧
        Encode.Denotes mode written.form state.here
          (written.expr.evaluate (state.seen statement) state.here).value rest) := by
  intro state
  obtain ⟨assembles, bytes⟩ := assembles_of_emits emits
  have sound := problems_eq_nil_of_clean assembles clean
  rw [visit, bytes] at emits ⊢
  rw [effectOf_instruction operation] at emits sound ⊢
  rcases Effect.instruction_cases (followable_decided found operation) _ statement unread with
    ⟨-, none⟩ | ⟨opcode, mode, byte, selectable, coded⟩
  · exact absurd none emits
  · have ⟨decodes, named⟩ := coded.decodes
    exact ⟨byte, _, opcode, mode, coded.bytes, decodes, named, Encode.length_operandBytes ..,
      coded.denotes selectable sound⟩

/-- A program in which the operand of an instruction changes between the passes:

  FLAG  EQU 1
        DO LATER
  FLAG  EQU 2
        FIN
        LDA FLAG
  LATER RTS
-/
def changedFlag : List Statement := [
  { position := ⟨1, 1⟩, label := some ⟨"FLAG"⟩
    operation := some (.directive .equ (some (.literal 1))) },
  { position := ⟨2, 8⟩
    operation := some (.directive (.opener .holds) (some (.symbol ⟨"LATER"⟩))) },
  { position := ⟨3, 1⟩, label := some ⟨"FLAG"⟩
    operation := some (.directive .equ (some (.literal 2))) },
  { position := ⟨4, 8⟩, operation := some (.directive .fin none) },
  { position := ⟨5, 8⟩
    operation := some (.instruction "LDA" (some ⟨.absolute, .symbol ⟨"FLAG"⟩⟩) []) },
  { position := ⟨6, 1⟩, label := some ⟨"LATER"⟩
    operation := some (.instruction "RTS" none []) }]

/-- In `changedFlag` the first pass chooses the zero-page mode for the value 1, and the second puts
the value 2 into the operand byte. -/
theorem operand_bytes_denote_changedFlag :
    let operand : Operand := ⟨.absolute, .symbol ⟨"FLAG"⟩⟩
    let statement : Statement :=
      { position := ⟨5, 8⟩, operation := some (.instruction "LDA" (some operand) []) }
    let state := before {} changedFlag .two 4
    let flag (pass : Pass) := operand.expr.evaluate (before {} changedFlag pass 4).symbols 0
    changedFlag[4]? = some statement ∧
      (visit {} changedFlag .two 4 statement).2.bytes = [0xA5, 2] ∧
      (visit {} changedFlag .two 4 statement).2.diagnostics = [] ∧
      decided {} changedFlag .two 4 = some (.mode .zeroPage) ∧
      (flag .one).value = 1 ∧ (flag .two).value = 2 ∧
      ∃ byte rest opcode mode,
        (visit {} changedFlag .two 4 statement).2.bytes = byte :: rest ∧
        Opcode.decode? byte = some (opcode, mode) ∧ opcode.mnemonic = Text.upper "LDA" ∧
        rest.length = mode.operandLength ∧
        (0 < mode.operandLength → ∃ written, some operand = some written ∧
          Encode.Denotes mode written.form state.here
            (written.expr.evaluate (state.seen statement) state.here).value rest) := by
  intro operand statement state flag
  have bytes : (visit {} changedFlag .two 4 statement).2.bytes = [0xA5, 2] := by decide +kernel
  have clean : (visit {} changedFlag .two 4 statement).2.diagnostics = [] := by decide +kernel
  refine ⟨rfl, bytes, clean, ?_, ?_, ?_, ?_⟩
  · decide +kernel
  · decide +kernel
  · decide +kernel
  · exact operand_bytes_denote {} changedFlag 4 statement "LDA" (some operand) [] rfl rfl
      (by simp [bytes]) clean

end Assembly

end Asm6502
