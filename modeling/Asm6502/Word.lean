/-!
# Words and bytes

Values and addresses are words of 16 bits; the output is a sequence of bytes.
-/

namespace Asm6502

/-- The low byte of a word. -/
def lowByte (w : UInt16) : UInt8 := w.toUInt8

/-- The high byte of a word. -/
def highByte (w : UInt16) : UInt8 := (w >>> 8).toUInt8

/-- The two bytes of a word, the low one first. -/
def lowFirst (w : UInt16) : List UInt8 := [lowByte w, highByte w]

/-- The two bytes of a word, the high one first. -/
def highFirst (w : UInt16) : List UInt8 := [highByte w, lowByte w]

@[simp] theorem length_lowFirst (w : UInt16) : (lowFirst w).length = 2 := rfl

@[simp] theorem length_highFirst (w : UInt16) : (highFirst w).length = 2 := rfl

end Asm6502
