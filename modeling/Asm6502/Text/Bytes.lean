/-!
# Texts as bytes

Texts are written in UTF-8. A letter `a` to `z` is one byte there, and no byte of any other
character has its value, so that letters can be put in upper case byte by byte.
-/

namespace Asm6502

/-- The bytes of a text in UTF-8. -/
def textBytes (text : String) : List UInt8 := text.toList.flatMap String.utf8EncodeChar

/-- A byte with the letters `a` to `z` in upper case. -/
def upperByte (b : UInt8) : UInt8 := if 0x61 ≤ b ∧ b ≤ 0x7A then b - 0x20 else b

end Asm6502
