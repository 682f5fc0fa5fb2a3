import Asm6502.Assembly.Effect

/-!
# The shape of an effect

The first pass knows fewer names than the second, so a statement may have other values in the second
pass. Here it is proved that only values differ: an effect computed in any environment, and the
effect computed in any other environment with the layout that the first one decided on, have the
same **shape** (`Effect.Alike`) — the same layout, the same number of bytes, the same move of the
location counter, the same names declared (`Effect.alike_ofStatement`).

Three things carry this: an instruction has a mode or has none whether or not its operand is narrow
(`Encode.selectMode_error`), the bytes of data have a length that does not depend on values or on
the top bit, and an origin or a reservation follows the amount that was decided on.
-/

namespace Asm6502

/-! ### Modes -/

namespace Encode

theorem isSome_absoluteMode? (opcode : Opcode) (wide : Mode) (narrow : Bool) :
    (absoluteMode? opcode wide narrow).isSome =
      (opcode.supports wide || wide.zeroPageForm?.any opcode.supports) := by
  unfold absoluteMode? firstMode?
  cases wide.zeroPageForm? with
  | none => cases narrow <;> cases h : opcode.supports wide <;> simp [h]
  | some short =>
    cases narrow <;> cases h : opcode.supports wide <;> cases h' : opcode.supports short <;>
      simp [h, h']

/-- Whether a form has a mode does not depend on whether the operand is narrow. -/
theorem isSome_formMode? (opcode : Opcode) (form : Form) (narrow narrow' : Bool) :
    (formMode? opcode narrow form).isSome = (formMode? opcode narrow' form).isSome := by
  cases form with
  | accumulator =>
    simp only [formMode?]
    split
    · rfl
    · rw [isSome_absoluteMode?, isSome_absoluteMode?]
  | absolute | absoluteX | absoluteY =>
    simp only [formMode?]
    rw [isSome_absoluteMode?, isSome_absoluteMode?]
  | immediate | immediateLow | immediateHigh | indirect | indirectX | indirectY => rfl

/-- An instruction that has no mode has none for any other value of its operand. -/
theorem selectMode_error {opcode : Opcode} {form : Option Form} {narrow : Bool} {cause : Cause}
    (failed : selectMode opcode form narrow = .error cause) (narrow' : Bool) :
    selectMode opcode form narrow' = .error cause := by
  unfold selectMode at failed ⊢
  cases form with
  | none => exact failed
  | some form =>
    split at failed
    · cases failed
    · rename_i branch
      rw [if_neg branch]
      -- a narrow operand may change which mode is found, never whether one is
      have same := isSome_formMode? opcode form narrow narrow'
      cases found : formMode? opcode narrow form with
      | some mode => simp [found] at failed
      | none =>
        rw [found] at same
        have missing : formMode? opcode narrow' form = none := by simpa using same.symm
        simpa [found, missing] using failed

end Encode

/-! ### Lengths of data -/

theorem length_markLast (bytes : List UInt8) : (markLast bytes).length = bytes.length := by
  cases bytes with
  | nil => rfl
  | cons byte bytes => simp [markLast, List.getLast?_eq_some_getLast]

namespace StringStyle

/-- The top bit of text bytes does not change their number. -/
theorem length_bytes_eq (style : StringStyle) (msb msb' : Bool) (text : String) :
    (style.bytes msb text).length = (style.bytes msb' text).length := by
  cases style <;> simp [bytes, length_markLast]

end StringStyle

namespace ValueShape

/-- A value list has as many bytes as its items have places. -/
theorem length_flatMap_bytes (shape : ValueShape) (exprs : List Expr) (value : Expr → UInt16) :
    (exprs.flatMap fun expr => shape.bytes (value expr)).length = exprs.length * shape.size := by
  induction exprs with
  | nil => simp
  | cons expr exprs ih =>
    rw [List.flatMap_cons, List.length_append, ih, length_bytes, List.length_cons, Nat.succ_mul,
      Nat.add_comm]

end ValueShape

namespace Effect

/-! ### Effects of one shape -/

/-- Two effects that differ in values only. -/
structure Alike (first second : Effect) : Prop where
  layout : first.layout = second.layout
  origin : first.origin = second.origin
  length : first.bytes.length = second.bytes.length
  advance : first.advance = second.advance
  fixups : first.fixups = second.fixups
  externals : first.externals = second.externals
  entries : first.entries = second.entries
  relocatable : first.relocatable = second.relocatable
  dsect : first.dsect = second.dsect

theorem Alike.refl (effect : Effect) : Alike effect effect :=
  ⟨rfl, rfl, rfl, rfl, rfl, rfl, rfl, rfl, rfl⟩

/-- What an effect finds wrong is no part of its shape. -/
theorem Alike.with_problems {first second : Effect} (alike : Alike first second)
    (found found' : List Cause) :
    Alike { first with problems := found } { second with problems := found' } :=
  ⟨alike.layout, alike.origin, alike.length, alike.advance, alike.fixups, alike.externals,
    alike.entries, alike.relocatable, alike.dsect⟩

/-- Runs of bytes of one length are alike. -/
theorem alike_chunk {bytes bytes' : List UInt8} (length : bytes.length = bytes'.length) :
    Alike (chunk bytes) (chunk bytes') :=
  ⟨rfl, rfl, length, by simp [chunk, length], rfl, rfl, rfl, rfl, rfl⟩

/-- An effect that lays out bytes and does nothing else. -/
structure OnlyCode (effect : Effect) : Prop where
  origin : effect.origin = none
  binding : effect.binding = none
  value : effect.value = none
  externals : effect.externals = []
  entries : effect.entries = []
  relocatable : effect.relocatable = false
  dsect : effect.dsect = none
  msb : effect.msb = none
  entry : effect.entry = none

/-! ### Instructions -/

@[simp] theorem layout_encoded (env : Env) (opcode : Opcode) (mode : Mode)
    (operand : Option Operand) (value : UInt16) :
    (encoded env opcode mode operand value).layout = some (.mode mode) := by
  unfold encoded
  split <;> rfl

/-- Instructions of one mode are alike, whatever their operands are worth. -/
theorem alike_encoded (env env' : Env) (opcode : Opcode) (mode : Mode)
    (operand : Option Operand) (value value' : UInt16) :
    Alike (encoded env opcode mode operand value) (encoded env' opcode mode operand value') := by
  unfold encoded
  cases opcode.encoding? mode with
  | none => exact .refl _
  | some byte => exact ⟨rfl, rfl, by simp, rfl, rfl, rfl, rfl, rfl, rfl⟩

/-- The expression that an instruction's operand is evaluated from, if it is. -/
def memoryExpr? (opcode : Opcode) (operand : Option Operand) : Option Expr :=
  (memoryOperand? opcode operand).map (·.expr)

/-- The value that an instruction's operand has; zero without an operand. -/
def operandValue (env : Env) (opcode : Opcode) (operand : Option Operand) : UInt16 :=
  (((memoryExpr? opcode operand).map env.evaluate).map (·.value)).getD 0

section Instruction

variable {env : Env} {decided : Option Layout} {statement : Statement} {mnemonic : String}
  {operand : Option Operand} {unread : List Token} {opcode : Opcode}

theorem instruction_of_unknown (unknown : Opcode.find? mnemonic = none) :
    instruction env decided statement mnemonic operand unread =
      report (.unknownMnemonic mnemonic) := by
  simp only [instruction, unknown]

theorem instruction_of_unread (known : Opcode.find? mnemonic = some opcode) {token : Token} :
    instruction env decided statement mnemonic operand (token :: unread) =
      report (.unreadableOperand statement.operandText) := by
  simp [instruction, known]

/-- An instruction without a mode is only reported. -/
theorem instruction_of_error (known : Opcode.find? mnemonic = some opcode) {cause : Cause}
    (failed : instructionMode opcode decided operand
      ((memoryExpr? opcode operand).map env.evaluate) = .error cause) :
    instruction env decided statement mnemonic operand [] =
      { problems := (memoryExpr? opcode operand).toList.flatMap env.problems ++ [cause] } := by
  rw [memoryExpr?] at failed
  simp only [instruction, known, failed]
  rfl

/-- An instruction with a mode is encoded in it. -/
theorem instruction_of_ok (known : Opcode.find? mnemonic = some opcode) {mode : Mode}
    (chosen : instructionMode opcode decided operand
      ((memoryExpr? opcode operand).map env.evaluate) = .ok mode) :
    instruction env decided statement mnemonic operand [] =
      { encoded env opcode mode operand (operandValue env opcode operand) with
        problems := (memoryExpr? opcode operand).toList.flatMap env.problems ++
          (encoded env opcode mode operand (operandValue env opcode operand)).problems } := by
  rw [memoryExpr?] at chosen
  simp only [instruction, known, chosen]
  rfl

/-- An instruction does nothing but lay out its bytes. -/
theorem onlyCode_instruction (env : Env) (decided : Option Layout) (statement : Statement)
    (mnemonic : String) (operand : Option Operand) (unread : List Token) :
    OnlyCode (instruction env decided statement mnemonic operand unread) := by
  cases known : Opcode.find? mnemonic with
  | none =>
    rw [instruction_of_unknown known]
    exact ⟨rfl, rfl, rfl, rfl, rfl, rfl, rfl, rfl, rfl⟩
  | some opcode =>
    cases unread with
    | cons token unread =>
      rw [instruction_of_unread known]
      exact ⟨rfl, rfl, rfl, rfl, rfl, rfl, rfl, rfl, rfl⟩
    | nil =>
      cases chosen : instructionMode opcode decided operand
          ((memoryExpr? opcode operand).map env.evaluate) with
      | error cause =>
        rw [instruction_of_error known chosen]
        exact ⟨rfl, rfl, rfl, rfl, rfl, rfl, rfl, rfl, rfl⟩
      | ok mode =>
        rw [instruction_of_ok known chosen]
        unfold encoded
        cases opcode.encoding? mode <;> exact ⟨rfl, rfl, rfl, rfl, rfl, rfl, rfl, rfl, rfl⟩

end Instruction

theorem alike_instruction (env env' : Env) (statement : Statement) (mnemonic : String)
    (operand : Option Operand) (unread : List Token) :
    Alike (instruction env none statement mnemonic operand unread)
      (instruction env' (instruction env none statement mnemonic operand unread).layout
        statement mnemonic operand unread) := by
  cases known : Opcode.find? mnemonic with
  | none =>
    rw [instruction_of_unknown known, instruction_of_unknown known]
    exact .refl _
  | some opcode =>
    cases unread with
    | cons token unread =>
      rw [instruction_of_unread known, instruction_of_unread known]
      exact .refl _
    | nil =>
      cases chosen : instructionMode opcode none operand
          ((memoryExpr? opcode operand).map env.evaluate) with
      | error cause =>
        -- nothing is decided, and nothing can be selected in the other environment either
        have failed : instructionMode opcode none operand
            ((memoryExpr? opcode operand).map env'.evaluate) = .error cause :=
          Encode.selectMode_error chosen _
        rw [instruction_of_error known chosen, instruction_of_error known failed]
        exact (Alike.refl {}).with_problems _ _
      | ok mode =>
        have decision : (instruction env none statement mnemonic operand []).layout =
            some (.mode mode) := by
          rw [instruction_of_ok known chosen]
          exact layout_encoded env opcode mode operand _
        have followed : instructionMode opcode (some (.mode mode)) operand
            ((memoryExpr? opcode operand).map env'.evaluate) = .ok mode := rfl
        rw [decision, instruction_of_ok known chosen, instruction_of_ok known followed]
        exact (alike_encoded env env' opcode mode operand _ _).with_problems _ _

/-! ### Directives -/

theorem alike_values (env env' : Env) (statement : Statement) (shape : ValueShape) :
    Alike (values env statement shape) (values env' statement shape) := by
  have length (env : Env) := ValueShape.length_flatMap_bytes shape
    ((Operand.valueList statement.operandTokens).filterMap id) fun expr => (env.evaluate expr).value
  refine ⟨rfl, rfl, ?_, ?_, rfl, rfl, rfl, rfl, rfl⟩
  · simp only [values, length]
  · simp only [values, length]

theorem alike_string (env env' : Env) (statement : Statement) (style : StringStyle) :
    Alike (string env statement style) (string env' statement style) := by
  unfold string
  cases statement.string? with
  | none => exact .refl _
  | some text =>
    exact (alike_chunk (style.length_bytes_eq env.msb env'.msb text)).with_problems _ _

theorem onlyCode_string (env : Env) (statement : Statement) (style : StringStyle) :
    OnlyCode (string env statement style) := by
  unfold string
  cases statement.string? <;> exact ⟨rfl, rfl, rfl, rfl, rfl, rfl, rfl, rfl, rfl⟩

theorem onlyCode_hex (statement : Statement) : OnlyCode (hex statement) := by
  simp only [hex]
  split <;> exact ⟨rfl, rfl, rfl, rfl, rfl, rfl, rfl, rfl, rfl⟩

theorem alike_laidOut (env env' : Env) (directive : Directive) (expr : Expr)
    (effect : UInt16 → Effect) :
    Alike (laidOut env none directive expr effect)
      (laidOut env' (laidOut env none directive expr effect).layout directive expr effect) :=
  ⟨rfl, rfl, rfl, rfl, rfl, rfl, rfl, rfl, rfl⟩

theorem alike_equate (env env' : Env) (label : Option Name) (expr : Expr) :
    Alike (equate env label expr) (equate env' label expr) := by
  cases label <;> exact ⟨rfl, rfl, rfl, rfl, rfl, rfl, rfl, rfl, rfl⟩

theorem alike_setMsb (env env' : Env) (statement : Statement) (operand : Option Expr) :
    Alike (setMsb env statement operand) (setMsb env' statement operand) := by
  unfold setMsb
  split <;> exact ⟨rfl, rfl, rfl, rfl, rfl, rfl, rfl, rfl, rfl⟩

theorem alike_listing (env env' : Env) (statement : Statement) (control : ListingControl)
    (operand : Option Expr) :
    Alike (listing env statement control operand) (listing env' statement control operand) := by
  unfold listing
  split <;> split <;> exact ⟨rfl, rfl, rfl, rfl, rfl, rfl, rfl, rfl, rfl⟩

theorem alike_directive (env env' : Env) (statement : Statement) (directive : Directive)
    (operand : Option Expr) :
    Alike (Effect.directive env none statement directive operand)
      (Effect.directive env' (Effect.directive env none statement directive operand).layout
        statement directive operand) := by
  cases directive with
  | org | reserve =>
    cases operand with
    | none => exact .refl _
    | some expr => exact alike_laidOut env env' _ expr _
  | equ =>
    cases operand with
    | none => exact .refl _
    | some expr => exact alike_equate env env' statement.label expr
  | values shape => exact alike_values env env' statement shape
  | string style => exact alike_string env env' statement style
  | msb => exact alike_setMsb env env' statement operand
  | listing control => exact alike_listing env env' statement control operand
  | hex | dsect | dend | rel | externals | entries | fail | opener | otherwise | fin
  | includeFile | ignored => exact .refl _

/-- **Only values differ**: a statement has one shape in any two environments, the second of which
follows the layout that was decided on in the first. -/
theorem alike_ofStatement (env env' : Env) (statement : Statement) :
    Alike (ofStatement env none statement)
      (ofStatement env' (ofStatement env none statement).layout statement) := by
  unfold ofStatement
  cases statement.operation with
  | none => exact .refl _
  | some operation =>
    cases operation with
    | instruction mnemonic operand unread =>
      exact alike_instruction env env' statement mnemonic operand unread
    | directive directive operand => exact alike_directive env env' statement directive operand

end Effect

end Asm6502
