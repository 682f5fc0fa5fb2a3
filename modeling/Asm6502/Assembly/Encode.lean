import Asm6502.Diagnostic
import Asm6502.Isa.Branch
import Asm6502.Word

/-!
# Instruction encoding

The addressing mode of an instruction follows from the written form of its operand. An absolute
operand takes the zero-page mode if its value is known to fit and the mnemonic has that mode. The
mode and the value give the operand bytes.
-/

namespace Asm6502.Encode

/-- The first mode of a list that the mnemonic has. -/
def firstMode? (opcode : Opcode) (modes : List Mode) : Option Mode := modes.find? opcode.supports

/-- The mode of an absolute operand: the zero-page one first if the value is `narrow`, else the
absolute one first. -/
def absoluteMode? (opcode : Opcode) (wide : Mode) (narrow : Bool) : Option Mode :=
  let short := wide.zeroPageForm?.toList
  firstMode? opcode (if narrow then short ++ [wide] else wide :: short)

/-- The mode of a mnemonic that is no branch, for an operand of the given form. -/
def formMode? (opcode : Opcode) (narrow : Bool) : Form → Option Mode
  | .accumulator =>
    if opcode.supports .accumulator then some .accumulator
    else absoluteMode? opcode .absolute narrow
  | .immediate | .immediateLow | .immediateHigh => firstMode? opcode [.immediate]
  | .indirect => firstMode? opcode [.indirect]
  | .indirectX => firstMode? opcode [.indirectX]
  | .indirectY => firstMode? opcode [.indirectY]
  | .absolute => absoluteMode? opcode .absolute narrow
  | .absoluteX => absoluteMode? opcode .absoluteX narrow
  | .absoluteY => absoluteMode? opcode .absoluteY narrow

/-- The mode of an instruction with or without an operand. Branches are always relative. -/
def selectMode (opcode : Opcode) (form : Option Form) (narrow : Bool) : Except Cause Mode :=
  if opcode.isBranch then .ok .relative
  else
    match form with
    | none =>
      match firstMode? opcode [.implied, .accumulator] with
      | some mode => .ok mode
      | none => .error (.operandNeeded opcode.mnemonic)
    | some form =>
      match formMode? opcode narrow form with
      | some mode => .ok mode
      | none => .error (.unsupportedForm opcode.mnemonic form)

/-- The operand byte of an immediate operand. -/
def immediateByte (form : Option Form) (value : UInt16) : UInt8 :=
  match form with
  | some .immediateHigh => highByte value
  | _ => lowByte value

/-- The operand bytes of an instruction at `here`. -/
def operandBytes (mode : Mode) (form : Option Form) (here value : UInt16) : List UInt8 :=
  match mode with
  | .implied | .accumulator => []
  | .relative => [Branch.offset here value]
  | .immediate => [immediateByte form value]
  | .absolute | .absoluteX | .absoluteY | .indirect => lowFirst value
  | .zeroPage | .zeroPageX | .zeroPageY | .indirectX | .indirectY => [lowByte value]

/-- What is wrong with the value of an operand. -/
def operandProblems (mode : Mode) (form : Option Form) (here value : UInt16) : List Cause :=
  match mode with
  | .relative => if Branch.reaches here value then [] else [.branchTooFar here value]
  | .immediate =>
    match form with
    | some .immediateHigh | some .immediateLow => []
    | _ => if 0xFF < value then [.immediateTruncated value] else []
  | .zeroPage | .zeroPageX | .zeroPageY | .indirectX | .indirectY =>
    if 0xFF < value then [.notZeroPage value] else []
  | _ => []

/-- There are as many operand bytes as the mode has. -/
@[simp] theorem length_operandBytes (mode : Mode) (form : Option Form) (here value : UInt16) :
    (operandBytes mode form here value).length = mode.operandLength := by
  cases mode <;> rfl

end Asm6502.Encode
