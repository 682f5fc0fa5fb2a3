/-!
# Addressing modes

The addressing modes of the 6502. A mode fixes how many operand bytes follow the opcode byte.
-/

namespace Asm6502

/-- The addressing modes of the 6502. -/
inductive Mode where
  /-- No operand. -/
  | implied
  /-- The accumulator is the operand. -/
  | accumulator
  /-- The operand byte is the value. -/
  | immediate
  /-- An address below `$0100`. -/
  | zeroPage
  /-- An address below `$0100`, indexed by `X`. -/
  | zeroPageX
  /-- An address below `$0100`, indexed by `Y`. -/
  | zeroPageY
  /-- A two-byte address. -/
  | absolute
  /-- A two-byte address, indexed by `X`. -/
  | absoluteX
  /-- A two-byte address, indexed by `Y`. -/
  | absoluteY
  /-- The target is stored at a two-byte address; only jumps have it. -/
  | indirect
  /-- A zero-page address indexed by `X` holds the address. -/
  | indirectX
  /-- A zero-page address holds the address, which is indexed by `Y`. -/
  | indirectY
  /-- A signed distance from the next instruction; only branches have it. -/
  | relative
  deriving DecidableEq, Repr

namespace Mode

/-- All modes. -/
def all : List Mode :=
  [.implied, .accumulator, .immediate, .zeroPage, .zeroPageX, .zeroPageY, .absolute, .absoluteX,
    .absoluteY, .indirect, .indirectX, .indirectY, .relative]

/-- The name of a mode in messages. -/
def name : Mode → String
  | .implied => "implied"
  | .accumulator => "accumulator"
  | .immediate => "immediate"
  | .zeroPage => "zeropage"
  | .zeroPageX => "zeropage-x"
  | .zeroPageY => "zeropage-y"
  | .absolute => "absolute"
  | .absoluteX => "absolute-x"
  | .absoluteY => "absolute-y"
  | .indirect => "jmp-indirect"
  | .indirectX => "indirect-x"
  | .indirectY => "indirect-y"
  | .relative => "relative"

/-- The number of bytes after the opcode byte. -/
def operandLength : Mode → Nat
  | .implied | .accumulator => 0
  | .absolute | .absoluteX | .absoluteY | .indirect => 2
  | _ => 1

/-- The number of bytes of an instruction, opcode byte included. -/
def instructionLength (mode : Mode) : Nat := 1 + mode.operandLength

/-- The shorter mode that reaches the zero page as an absolute mode does. -/
def zeroPageForm? : Mode → Option Mode
  | .absolute => some .zeroPage
  | .absoluteX => some .zeroPageX
  | .absoluteY => some .zeroPageY
  | _ => none

/-- The operand byte of the mode is a zero-page address. -/
def isZeroPage : Mode → Bool
  | .zeroPage | .zeroPageX | .zeroPageY | .indirectX | .indirectY => true
  | _ => false

end Mode

end Asm6502
