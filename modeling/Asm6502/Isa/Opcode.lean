import Asm6502.Isa.Mode
import Asm6502.Text.Bytes

/-!
# The instruction set

The 56 mnemonics of the 6502 with the opcode byte of each addressing mode they have. The table is in
alphabetical order, so that a mnemonic is found by binary search, in any letter case; a byte decodes
to the mnemonic and the mode it stands for.
-/

namespace Asm6502

/-- A mnemonic and its opcode bytes. -/
structure Opcode where
  /-- The mnemonic, in upper case. -/
  mnemonic : String
  /-- The opcode byte of each mode that the mnemonic has. -/
  encodings : List (Mode × UInt8)
  deriving DecidableEq, Repr

namespace Opcode

/-- The instruction set, in the order of the bytes of its mnemonics. -/
def table : List Opcode := [
  ⟨"ADC", [(.immediate, 0x69), (.zeroPage, 0x65), (.zeroPageX, 0x75), (.absolute, 0x6D),
    (.absoluteX, 0x7D), (.absoluteY, 0x79), (.indirectX, 0x61), (.indirectY, 0x71)]⟩,
  ⟨"AND", [(.immediate, 0x29), (.zeroPage, 0x25), (.zeroPageX, 0x35), (.absolute, 0x2D),
    (.absoluteX, 0x3D), (.absoluteY, 0x39), (.indirectX, 0x21), (.indirectY, 0x31)]⟩,
  ⟨"ASL", [(.accumulator, 0x0A), (.zeroPage, 0x06), (.zeroPageX, 0x16), (.absolute, 0x0E),
    (.absoluteX, 0x1E)]⟩,
  ⟨"BCC", [(.relative, 0x90)]⟩,
  ⟨"BCS", [(.relative, 0xB0)]⟩,
  ⟨"BEQ", [(.relative, 0xF0)]⟩,
  ⟨"BIT", [(.zeroPage, 0x24), (.absolute, 0x2C)]⟩,
  ⟨"BMI", [(.relative, 0x30)]⟩,
  ⟨"BNE", [(.relative, 0xD0)]⟩,
  ⟨"BPL", [(.relative, 0x10)]⟩,
  ⟨"BRK", [(.implied, 0x00)]⟩,
  ⟨"BVC", [(.relative, 0x50)]⟩,
  ⟨"BVS", [(.relative, 0x70)]⟩,
  ⟨"CLC", [(.implied, 0x18)]⟩,
  ⟨"CLD", [(.implied, 0xD8)]⟩,
  ⟨"CLI", [(.implied, 0x58)]⟩,
  ⟨"CLV", [(.implied, 0xB8)]⟩,
  ⟨"CMP", [(.immediate, 0xC9), (.zeroPage, 0xC5), (.zeroPageX, 0xD5), (.absolute, 0xCD),
    (.absoluteX, 0xDD), (.absoluteY, 0xD9), (.indirectX, 0xC1), (.indirectY, 0xD1)]⟩,
  ⟨"CPX", [(.immediate, 0xE0), (.zeroPage, 0xE4), (.absolute, 0xEC)]⟩,
  ⟨"CPY", [(.immediate, 0xC0), (.zeroPage, 0xC4), (.absolute, 0xCC)]⟩,
  ⟨"DEC", [(.zeroPage, 0xC6), (.zeroPageX, 0xD6), (.absolute, 0xCE), (.absoluteX, 0xDE)]⟩,
  ⟨"DEX", [(.implied, 0xCA)]⟩,
  ⟨"DEY", [(.implied, 0x88)]⟩,
  ⟨"EOR", [(.immediate, 0x49), (.zeroPage, 0x45), (.zeroPageX, 0x55), (.absolute, 0x4D),
    (.absoluteX, 0x5D), (.absoluteY, 0x59), (.indirectX, 0x41), (.indirectY, 0x51)]⟩,
  ⟨"INC", [(.zeroPage, 0xE6), (.zeroPageX, 0xF6), (.absolute, 0xEE), (.absoluteX, 0xFE)]⟩,
  ⟨"INX", [(.implied, 0xE8)]⟩,
  ⟨"INY", [(.implied, 0xC8)]⟩,
  ⟨"JMP", [(.absolute, 0x4C), (.indirect, 0x6C)]⟩,
  ⟨"JSR", [(.absolute, 0x20)]⟩,
  ⟨"LDA", [(.immediate, 0xA9), (.zeroPage, 0xA5), (.zeroPageX, 0xB5), (.absolute, 0xAD),
    (.absoluteX, 0xBD), (.absoluteY, 0xB9), (.indirectX, 0xA1), (.indirectY, 0xB1)]⟩,
  ⟨"LDX", [(.immediate, 0xA2), (.zeroPage, 0xA6), (.zeroPageY, 0xB6), (.absolute, 0xAE),
    (.absoluteY, 0xBE)]⟩,
  ⟨"LDY", [(.immediate, 0xA0), (.zeroPage, 0xA4), (.zeroPageX, 0xB4), (.absolute, 0xAC),
    (.absoluteX, 0xBC)]⟩,
  ⟨"LSR", [(.accumulator, 0x4A), (.zeroPage, 0x46), (.zeroPageX, 0x56), (.absolute, 0x4E),
    (.absoluteX, 0x5E)]⟩,
  ⟨"NOP", [(.implied, 0xEA)]⟩,
  ⟨"ORA", [(.immediate, 0x09), (.zeroPage, 0x05), (.zeroPageX, 0x15), (.absolute, 0x0D),
    (.absoluteX, 0x1D), (.absoluteY, 0x19), (.indirectX, 0x01), (.indirectY, 0x11)]⟩,
  ⟨"PHA", [(.implied, 0x48)]⟩,
  ⟨"PHP", [(.implied, 0x08)]⟩,
  ⟨"PLA", [(.implied, 0x68)]⟩,
  ⟨"PLP", [(.implied, 0x28)]⟩,
  ⟨"ROL", [(.accumulator, 0x2A), (.zeroPage, 0x26), (.zeroPageX, 0x36), (.absolute, 0x2E),
    (.absoluteX, 0x3E)]⟩,
  ⟨"ROR", [(.accumulator, 0x6A), (.zeroPage, 0x66), (.zeroPageX, 0x76), (.absolute, 0x6E),
    (.absoluteX, 0x7E)]⟩,
  ⟨"RTI", [(.implied, 0x40)]⟩,
  ⟨"RTS", [(.implied, 0x60)]⟩,
  ⟨"SBC", [(.immediate, 0xE9), (.zeroPage, 0xE5), (.zeroPageX, 0xF5), (.absolute, 0xED),
    (.absoluteX, 0xFD), (.absoluteY, 0xF9), (.indirectX, 0xE1), (.indirectY, 0xF1)]⟩,
  ⟨"SEC", [(.implied, 0x38)]⟩,
  ⟨"SED", [(.implied, 0xF8)]⟩,
  ⟨"SEI", [(.implied, 0x78)]⟩,
  ⟨"STA", [(.zeroPage, 0x85), (.zeroPageX, 0x95), (.absolute, 0x8D), (.absoluteX, 0x9D),
    (.absoluteY, 0x99), (.indirectX, 0x81), (.indirectY, 0x91)]⟩,
  ⟨"STX", [(.zeroPage, 0x86), (.zeroPageY, 0x96), (.absolute, 0x8E)]⟩,
  ⟨"STY", [(.zeroPage, 0x84), (.zeroPageX, 0x94), (.absolute, 0x8C)]⟩,
  ⟨"TAX", [(.implied, 0xAA)]⟩,
  ⟨"TAY", [(.implied, 0xA8)]⟩,
  ⟨"TSX", [(.implied, 0xBA)]⟩,
  ⟨"TXA", [(.implied, 0x8A)]⟩,
  ⟨"TXS", [(.implied, 0x9A)]⟩,
  ⟨"TYA", [(.implied, 0x98)]⟩]

/-- The opcode byte of a mode. -/
def encoding? (opcode : Opcode) (mode : Mode) : Option UInt8 := opcode.encodings.lookup mode

/-- The mnemonic has the mode. -/
def supports (opcode : Opcode) (mode : Mode) : Bool := (opcode.encoding? mode).isSome

/-- The mnemonic is a branch. -/
def isBranch (opcode : Opcode) : Bool := opcode.supports .relative

/-- The modes of a mnemonic, in the order of the table. -/
def modes (opcode : Opcode) : List Mode := opcode.encodings.map (·.1)

/-- How the mnemonic stands to a word in the order of the table, byte by byte. -/
def order (opcode : Opcode) (word : List UInt8) : Ordering :=
  compare (textBytes opcode.mnemonic) word

/-- The place where a binary search among the `size` places from `base` on ends. One half of them is
left out at each step: the upper half if its first entry is beyond what is looked for. -/
def bisect (beyond : Nat → Bool) (base size : Nat) : Nat :=
  if size ≤ 1 then base
  else if beyond (base + size / 2) then bisect beyond base (size - size / 2)
  else bisect beyond (base + size / 2) (size - size / 2)
termination_by size

/-- The mnemonic with a given name, in any letter case, by binary search in the table. -/
def find? (name : String) : Option Opcode :=
  let word := (textBytes name).map upperByte
  let place := bisect (fun place => table[place]?.any (·.order word == .gt)) 0 table.length
  table[place]?.filter (·.order word == .eq)

/-- The mnemonic and the mode that a byte stands for. -/
def decode? (byte : UInt8) : Option (Opcode × Mode) :=
  table.findSome? fun opcode =>
    (opcode.encodings.find? (·.2 == byte)).map fun entry => (opcode, entry.1)

end Opcode

end Asm6502
