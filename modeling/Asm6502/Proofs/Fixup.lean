import Asm6502.Proofs.Instruction
import Asm6502.Proofs.Output

/-!
# Operands in the bytes of a statement

`OperandAt` says of a part of a statement's bytes which expression it is the encoding of: the word
of an instruction, the byte of an instruction that is written with `#<` or `#>`, an item of a value
list. The fixups of a statement are exactly the operands of this kind that reference a symbol
(`Effect.operandAt_of_mem_fixups`, `Effect.mem_fixups_of_operandAt`), and no two of them overlap
(`Effect.pairwise_fixups`).
-/

namespace Asm6502

/-- The directive links the program to others, which makes it relocatable. -/
def Directive.makesRelocatable : Directive → Bool
  | .rel | .externals | .entries => true
  | _ => false

namespace Statement

/-- The statement makes the program relocatable. -/
def makesRelocatable (statement : Statement) : Bool :=
  statement.directive?.any Directive.makesRelocatable

/-- The items of a value list that can be read. -/
def valueExprs (statement : Statement) : List Expr :=
  (Operand.valueList statement.operandTokens).filterMap id

end Statement

/-- The bytes of a statement are those of an instruction that is written with an operand and encoded
in a mode: the opcode byte, and the operand bytes after it. -/
def IsInstruction (statement : Statement) (operand : Operand) (mode : Mode)
    (code operandBytes : List UInt8) : Prop :=
  ∃ mnemonic unread byte opcode,
    statement.operation = some (.instruction mnemonic (some operand) unread) ∧
    code = byte :: operandBytes ∧
    Opcode.decode? byte = some (opcode, mode) ∧ opcode.mnemonic = Text.upper mnemonic

/-- `OperandAt here value statement code offset expr bytes`: among the bytes `code` of a statement
at `here`, with `offset` of them before it, stands the encoding `bytes` of the operand expression
`expr`; `value` tells what expressions are worth. -/
inductive OperandAt (here : UInt16) (value : Expr → UInt16) (statement : Statement)
    (code : List UInt8) : Nat → Expr → List UInt8 → Prop where
  /-- The operand of an instruction with two operand bytes, the low one first. -/
  | word {operand : Operand} {mode : Mode} (wide : mode.operandLength = 2)
      (coded : IsInstruction statement operand mode code (lowFirst (value operand.expr))) :
      OperandAt here value statement code 1 operand.expr (lowFirst (value operand.expr))
  /-- The low byte of the operand of an instruction that is written with `#<`. -/
  | low {operand : Operand} (form : operand.form = .immediateLow)
      (coded : IsInstruction statement operand .immediate code [lowByte (value operand.expr)]) :
      OperandAt here value statement code 1 operand.expr [lowByte (value operand.expr)]
  /-- The high byte of the operand of an instruction that is written with `#>`. -/
  | high {operand : Operand} (form : operand.form = .immediateHigh)
      (coded : IsInstruction statement operand .immediate code [highByte (value operand.expr)]) :
      OperandAt here value statement code 1 operand.expr [highByte (value operand.expr)]
  /-- The distance to the operand of a branch, which may be written with `#<` or `#>` too. -/
  | branch {operand : Operand} (form : operand.form = .immediateLow ∨ operand.form = .immediateHigh)
      (coded : IsInstruction statement operand .relative code
        [Branch.offset here (value operand.expr)]) :
      OperandAt here value statement code 1 operand.expr [Branch.offset here (value operand.expr)]
  /-- An item of a value list: a word with the low or the high byte first, or a byte. -/
  | item {shape : ValueShape} {index : Nat} {expr : Expr}
      (directive : statement.directive? = some (.values shape))
      (listed : statement.valueExprs[index]? = some expr)
      (coded : code = statement.valueExprs.flatMap fun expr => shape.bytes (value expr)) :
      OperandAt here value statement code (index * shape.size) expr (shape.bytes (value expr))

theorem IsInstruction.standsAt {statement : Statement} {operand : Operand} {mode : Mode}
    {code operandBytes : List UInt8}
    (coded : IsInstruction statement operand mode code operandBytes) :
    StandsAt code 1 operandBytes := by
  obtain ⟨_, _, byte, _, -, rfl, -⟩ := coded
  exact ⟨[byte], [], by simp, rfl⟩

namespace OperandAt

variable {here : UInt16} {value : Expr → UInt16} {statement : Statement} {code bytes : List UInt8}
  {offset : Nat} {expr : Expr}

theorem standsAt (operand : OperandAt here value statement code offset expr bytes) :
    StandsAt code offset bytes := by
  cases operand with
  | word _ coded | low _ coded | high _ coded | branch _ coded => exact coded.standsAt
  | @item shape index expr _ listed coded =>
    -- every item before this one has as many bytes as the shape
    have inside := (List.getElem?_eq_some_iff.mp listed).1
    have places := shape.length_flatMap_bytes (statement.valueExprs.take index) value
    rw [List.length_take, Nat.min_eq_left (Nat.le_of_lt inside)] at places
    rw [coded, ← places]
    exact standsAt_flatMap listed fun expr => shape.bytes (value expr)

theorem length_pos (operand : OperandAt here value statement code offset expr bytes) :
    0 < bytes.length := by
  cases operand with
  | word | low | high | branch => simp
  | @item shape =>
    rw [ValueShape.length_bytes]
    cases shape <;> simp [ValueShape.size]

/-- Only instructions and value lists have operands. -/
theorem operation (operand : OperandAt here value statement code offset expr bytes) :
    (∃ mnemonic written unread,
        statement.operation = some (.instruction mnemonic (some written) unread)) ∨
      ∃ shape, statement.directive? = some (.values shape) := by
  cases operand with
  | word _ coded | low _ coded | high _ coded | branch _ coded =>
    obtain ⟨mnemonic, unread, _, _, operation, -⟩ := coded
    exact .inl ⟨mnemonic, _, unread, operation⟩
  | item directive => exact .inr ⟨_, directive⟩

theorem code_ne_nil (operand : OperandAt here value statement code offset expr bytes) :
    code ≠ [] := by
  rintro rfl
  have positive := operand.length_pos
  have within := operand.standsAt.length_le
  simp only [List.length_nil] at within
  omega

end OperandAt

/-! ### Fixups of instructions -/

namespace Encode

/-- An operand of two bytes is its value, the low byte first. -/
theorem operandBytes_of_wide {mode : Mode} (wide : mode.operandLength = 2) (form : Option Form)
    (here value : UInt16) : operandBytes mode form here value = lowFirst value := by
  cases mode with
  | absolute | absoluteX | absoluteY | indirect => rfl
  | implied | accumulator | immediate | zeroPage | zeroPageX | zeroPageY | relative | indirectX
  | indirectY => cases wide

/-- Half of a value is an immediate operand, or the target of a branch. -/
theorem Selectable.half {opcode : Opcode} {form : Form} {mode : Mode}
    (selectable : Selectable opcode (some form) mode)
    (half : form = .immediateLow ∨ form = .immediateHigh) :
    mode = .immediate ∨ mode = .relative := by
  obtain ⟨narrow, selected⟩ := selectable
  unfold selectMode at selected
  split at selected
  · exact .inr (Except.ok.inj selected).symm
  · have immediate : formMode? opcode narrow form = firstMode? opcode [.immediate] := by
      rcases half with rfl | rfl <;> rfl
    cases first : firstMode? opcode [.immediate] with
    | none => simp [immediate, first] at selected
    | some chosen =>
      have listed := List.mem_of_find?_eq_some first
      simp only [immediate, first, Except.ok.injEq] at selected
      simp only [List.mem_singleton] at listed
      exact .inl (selected ▸ listed)

end Encode

namespace Effect

theorem mem_instructionFixups {mode : Mode} {written : Operand} {fixup : Fixup} :
    fixup ∈ instructionFixups mode (some written) ↔
      written.expr.referencesSymbol = true ∧
        (mode.operandLength = 2 ∧ fixup = ⟨1, 2⟩ ∨
          mode.operandLength ≠ 2 ∧
            (written.form = .immediateLow ∨ written.form = .immediateHigh) ∧
            fixup = ⟨1, 1⟩) := by
  unfold instructionFixups
  cases references : written.expr.referencesSymbol with
  | false => simp [references]
  | true =>
    by_cases wide : mode.operandLength = 2
    · simp [references, wide]
    · by_cases half : written.form = .immediateLow ∨ written.form = .immediateHigh
      · simp [references, wide, half]
      · simp [references, wide, half]

section Instruction

variable {env : Env} {mnemonic : String} {opcode : Opcode} {mode : Mode} {byte : UInt8}
  {effect : Effect} {statement : Statement} {unread : List Token}

/-- The bytes of an encoded instruction with an operand byte are the opcode byte and the operand
bytes of its value. -/
theorem Coded.isInstruction {written : Operand}
    (coded : Coded env mnemonic (some written) opcode mode byte effect)
    (selectable : Encode.Selectable opcode (some written.form) mode)
    (operation : statement.operation = some (.instruction mnemonic (some written) unread))
    (long : 0 < mode.operandLength) :
    IsInstruction statement written mode effect.bytes
      (Encode.operandBytes mode (some written.form) env.here
        (env.evaluate written.expr).value) := by
  have listed := (Opcode.find?_eq_some coded.known).1
  have bytes := coded.bytes
  rw [operandValue_of_selectable selectable listed long] at bytes
  exact ⟨mnemonic, unread, byte, opcode, operation, bytes, coded.decodes⟩

/-- The opcode byte of an encoded instruction tells its mode. -/
theorem Coded.eq_of_isInstruction {operand : Option Operand} {written : Operand} {other : Mode}
    {operandBytes : List UInt8} (coded : Coded env mnemonic operand opcode mode byte effect)
    (operation : statement.operation = some (.instruction mnemonic operand unread))
    (same : IsInstruction statement written other effect.bytes operandBytes) :
    operand = some written ∧ mode = other := by
  obtain ⟨_, _, _, _, operation', bytes, decodes, -⟩ := same
  rw [operation] at operation'
  rw [coded.bytes] at bytes
  obtain rfl := (List.cons.inj bytes).1
  rw [coded.decodes.1] at decodes
  simp only [Option.some.injEq, Operation.instruction.injEq] at operation'
  simp only [Option.some.injEq, Prod.mk.injEq] at decodes
  exact ⟨operation'.2.1, decodes.2⟩

/-- A fixup of an encoded instruction is its operand. -/
theorem Coded.operandAt {operand : Option Operand} {fixup : Fixup}
    (coded : Coded env mnemonic operand opcode mode byte effect)
    (selectable : Encode.Selectable opcode (operand.map (·.form)) mode)
    (operation : statement.operation = some (.instruction mnemonic operand unread))
    (mem : fixup ∈ effect.fixups) :
    ∃ expr bytes,
      OperandAt env.here (fun expr => (env.evaluate expr).value) statement effect.bytes
        fixup.offset expr bytes ∧
      bytes.length = fixup.size ∧ expr.referencesSymbol = true := by
  rw [coded.fixups] at mem
  cases operand with
  | none => simp [instructionFixups] at mem
  | some written =>
    have isInstruction := coded.isInstruction selectable operation
    obtain ⟨references, ⟨wide, rfl⟩ | ⟨-, half, rfl⟩⟩ := mem_instructionFixups.mp mem
    · specialize isInstruction (by omega)
      rw [Encode.operandBytes_of_wide wide] at isInstruction
      exact ⟨_, _, .word wide isInstruction, rfl, references⟩
    · rcases selectable.half half with rfl | rfl
      · specialize isInstruction (by decide)
        rcases half with form | form
        · rw [form] at isInstruction
          exact ⟨_, _, .low form isInstruction, rfl, references⟩
        · rw [form] at isInstruction
          exact ⟨_, _, .high form isInstruction, rfl, references⟩
      · exact ⟨_, _, .branch half (isInstruction (by decide)), rfl, references⟩

/-- An operand of an encoded instruction that references a symbol is a fixup. -/
theorem Coded.mem_fixups {operand : Option Operand} {value : Expr → UInt16} {offset : Nat}
    {expr : Expr} {bytes : List UInt8}
    (coded : Coded env mnemonic operand opcode mode byte effect)
    (operation : statement.operation = some (.instruction mnemonic operand unread))
    (holds : OperandAt env.here value statement effect.bytes offset expr bytes)
    (references : expr.referencesSymbol = true) : ⟨offset, bytes.length⟩ ∈ effect.fixups := by
  rw [coded.fixups]
  cases holds with
  | word wide same =>
    obtain ⟨rfl, rfl⟩ := coded.eq_of_isInstruction operation same
    exact mem_instructionFixups.mpr ⟨references, .inl ⟨wide, rfl⟩⟩
  | low form same =>
    obtain ⟨rfl, rfl⟩ := coded.eq_of_isInstruction operation same
    exact mem_instructionFixups.mpr ⟨references, .inr ⟨by decide, .inl form, rfl⟩⟩
  | high form same =>
    obtain ⟨rfl, rfl⟩ := coded.eq_of_isInstruction operation same
    exact mem_instructionFixups.mpr ⟨references, .inr ⟨by decide, .inr form, rfl⟩⟩
  | branch form same =>
    obtain ⟨rfl, rfl⟩ := coded.eq_of_isInstruction operation same
    exact mem_instructionFixups.mpr ⟨references, .inr ⟨by decide, form, rfl⟩⟩
  | item directive => simp [Statement.directive?, operation] at directive

end Instruction

/-! ### Fixups of value lists -/

section Values

variable {env : Env} {statement : Statement} {shape : ValueShape}

theorem mem_fixups_values {fixup : Fixup} :
    fixup ∈ (values env statement shape).fixups ↔
      ∃ index expr, statement.valueExprs[index]? = some expr ∧
        expr.referencesSymbol = true ∧ fixup = ⟨index * shape.size, shape.size⟩ := by
  simp only [values, List.mem_map, List.mem_filter, Prod.exists, List.mem_zipIdx_iff_getElem?,
    Statement.valueExprs]
  constructor
  · rintro ⟨expr, index, ⟨listed, references⟩, rfl⟩
    exact ⟨index, expr, listed, references, rfl⟩
  · rintro ⟨index, expr, listed, references, rfl⟩
    exact ⟨expr, index, ⟨listed, references⟩, rfl⟩

/-- The fixups of a value list are in the order of its items. -/
theorem pairwise_fixups_values :
    (values env statement shape).fixups.Pairwise fun first second =>
      first.offset + first.size ≤ second.offset := by
  refine List.pairwise_map.mpr (((pairwise_zipIdx statement.valueExprs).filter _).imp ?_)
  intro first second before
  calc first.2 * shape.size + shape.size
      = (first.2 + 1) * shape.size := by rw [Nat.succ_mul]
    _ ≤ second.2 * shape.size := Nat.mul_le_mul_right _ before

end Values

/-! ### Fixups of statements -/

variable {env : Env} {decided : Option Layout} {statement : Statement}

/-- Among the directives only value lists have fixups, and only those that link the program to
others make it relocatable. -/
theorem fixups_and_relocatable_directive {directive : Directive} {operand : Option Expr} :
    ((∀ shape, directive ≠ .values shape) →
        (Effect.directive env decided statement directive operand).fixups = []) ∧
      (Effect.directive env decided statement directive operand).relocatable =
        directive.makesRelocatable := by
  cases directive with
  | values shape => exact ⟨fun other => absurd rfl (other shape), rfl⟩
  | org | reserve => cases operand <;> exact ⟨fun _ => rfl, rfl⟩
  | equ =>
    cases operand with
    | none => exact ⟨fun _ => rfl, rfl⟩
    | some expr =>
      simp only [Effect.directive, equate]
      cases statement.label <;> exact ⟨fun _ => rfl, rfl⟩
  | string style =>
    simp only [Effect.directive, string]
    cases statement.string? <;> exact ⟨fun _ => rfl, rfl⟩
  | hex =>
    simp only [Effect.directive, hex]
    split <;> exact ⟨fun _ => rfl, rfl⟩
  | msb =>
    simp only [Effect.directive, setMsb]
    split <;> exact ⟨fun _ => rfl, rfl⟩
  | listing control =>
    simp only [Effect.directive, listing]
    split <;> exact ⟨fun _ => rfl, rfl⟩
  | dsect | dend | rel | externals | entries | fail | opener | otherwise | fin | includeFile
  | ignored => exact ⟨fun _ => rfl, rfl⟩

theorem relocatable_ofStatement (env : Env) (decided : Option Layout) (statement : Statement) :
    (ofStatement env decided statement).relocatable = statement.makesRelocatable := by
  unfold ofStatement Statement.makesRelocatable Statement.directive?
  cases statement.operation with
  | none => rfl
  | some operation =>
    cases operation with
    | instruction mnemonic operand unread =>
      exact (onlyCode_instruction env decided statement mnemonic operand unread).relocatable
    | directive directive operand => exact fixups_and_relocatable_directive.2

/-- What was decided on the layout of a statement can be followed. -/
def CanFollow (statement : Statement) (decided : Option Layout) : Prop :=
  ∀ mnemonic operand unread,
    statement.operation = some (.instruction mnemonic operand unread) →
      Followable mnemonic operand decided

/-- **What can have operands**: an instruction that is encoded, or a value list. Any other statement
has no operands and no fixups. -/
theorem operand_cases (followable : CanFollow statement decided) (env : Env) :
    ((ofStatement env decided statement).fixups = [] ∧
        ∀ value offset expr bytes, ¬ OperandAt env.here value statement
          (ofStatement env decided statement).bytes offset expr bytes) ∨
      (∃ mnemonic operand unread opcode mode byte,
        statement.operation = some (.instruction mnemonic operand unread) ∧
        Encode.Selectable opcode (operand.map (·.form)) mode ∧
        Coded env mnemonic operand opcode mode byte (ofStatement env decided statement)) ∨
      ∃ shape, statement.directive? = some (.values shape) ∧
        ofStatement env decided statement = values env statement shape := by
  unfold ofStatement
  cases operation : statement.operation with
  | none =>
    refine .inl ⟨rfl, fun _ _ _ _ holds => ?_⟩
    rcases holds.operation with ⟨_, _, _, written⟩ | ⟨_, directive⟩
    · simp [operation] at written
    · simp [Statement.directive?, operation] at directive
  | some written =>
    cases written with
    | instruction mnemonic operand unread =>
      rcases instruction_cases (followable _ _ _ operation) env statement unread with
        ⟨⟨-, fixups⟩, none⟩ | ⟨opcode, mode, byte, selectable, coded⟩
      · exact .inl ⟨fixups, fun _ _ _ _ holds => holds.code_ne_nil none⟩
      · exact .inr (.inl ⟨mnemonic, operand, unread, opcode, mode, byte, rfl, selectable, coded⟩)
    | directive directive operand =>
      by_cases list : ∃ shape, directive = .values shape
      · obtain ⟨shape, rfl⟩ := list
        exact .inr (.inr ⟨shape, by simp [Statement.directive?, operation], rfl⟩)
      · refine .inl ⟨fixups_and_relocatable_directive.1 fun shape same => list ⟨shape, same⟩,
          fun _ _ _ _ holds => ?_⟩
        rcases holds.operation with ⟨_, _, _, written⟩ | ⟨shape, same⟩
        · simp [operation] at written
        · simp only [Statement.directive?, operation, Option.some.injEq] at same
          exact list ⟨shape, same⟩

/-- **Every fixup is an operand** that references a symbol. -/
theorem operandAt_of_mem_fixups (followable : CanFollow statement decided)
    {fixup : Fixup} (mem : fixup ∈ (ofStatement env decided statement).fixups) :
    ∃ expr bytes,
      OperandAt env.here (fun expr => (env.evaluate expr).value) statement
        (ofStatement env decided statement).bytes fixup.offset expr bytes ∧
      bytes.length = fixup.size ∧ expr.referencesSymbol = true := by
  rcases operand_cases followable env with
    ⟨none, -⟩ | ⟨_, _, _, _, _, _, operation, selectable, coded⟩ | ⟨shape, directive, same⟩
  · simp [none] at mem
  · exact coded.operandAt selectable operation mem
  · rw [same] at mem ⊢
    obtain ⟨index, expr, listed, references, rfl⟩ := mem_fixups_values.mp mem
    exact ⟨expr, _, .item directive listed rfl, shape.length_bytes _, references⟩

/-- **Every operand that references a symbol is a fixup.** -/
theorem mem_fixups_of_operandAt (followable : CanFollow statement decided)
    {value : Expr → UInt16} {offset : Nat} {expr : Expr} {bytes : List UInt8}
    (holds : OperandAt env.here value statement (ofStatement env decided statement).bytes offset
      expr bytes)
    (references : expr.referencesSymbol = true) :
    ⟨offset, bytes.length⟩ ∈ (ofStatement env decided statement).fixups := by
  rcases operand_cases followable env with
    ⟨-, none⟩ | ⟨_, _, _, _, _, _, operation, -, coded⟩ | ⟨shape, directive, same⟩
  · exact absurd holds (none _ _ _ _)
  · exact coded.mem_fixups operation holds references
  · rw [same]
    cases holds with
    | word _ coded | low _ coded | high _ coded | branch _ coded =>
      obtain ⟨_, _, _, _, operation, -⟩ := coded
      simp [Statement.directive?, operation] at directive
    | @item other index _ directive' listed coded =>
      obtain rfl : shape = other := by simpa [directive] using directive'
      exact mem_fixups_values.mpr ⟨index, expr, listed, references, by rw [shape.length_bytes]⟩

/-- **No two fixups of a statement overlap**: each ends before the next one starts. -/
theorem pairwise_fixups (followable : CanFollow statement decided) :
    (ofStatement env decided statement).fixups.Pairwise fun first second =>
      first.offset + first.size ≤ second.offset := by
  rcases operand_cases followable env with
    ⟨none, -⟩ | ⟨_, operand, _, _, mode, _, -, -, coded⟩ | ⟨shape, -, same⟩
  · rw [none]
    exact .nil
  · -- an instruction has at most one fixup
    rw [coded.fixups]
    cases operand with
    | none => exact .nil
    | some written =>
      simp only [instructionFixups]
      split
      · exact .nil
      · split
        · exact List.pairwise_singleton ..
        · split
          · exact List.pairwise_singleton ..
          · exact .nil
  · rw [same]
    exact pairwise_fixups_values

end Effect

end Asm6502
