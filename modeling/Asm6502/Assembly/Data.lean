import Asm6502.Diagnostic
import Asm6502.Text.Bytes
import Asm6502.Word

/-!
# Data bytes

The bytes that data directives produce from values, from strings and from hexadecimal digits.
-/

namespace Asm6502

namespace ValueShape

/-- The number of bytes of an item. -/
def size : ValueShape → Nat
  | .lowFirst | .highFirst => 2
  | .byte => 1

/-- The bytes of an item. -/
def bytes : ValueShape → UInt16 → List UInt8
  | .lowFirst, value => Asm6502.lowFirst value
  | .highFirst, value => Asm6502.highFirst value
  | .byte, value => [lowByte value]

@[simp] theorem length_bytes (shape : ValueShape) (value : UInt16) :
    (shape.bytes value).length = shape.size := by
  cases shape <;> rfl

end ValueShape

/-- A byte with its top bit set or cleared. -/
def withTopBit (on : Bool) (b : UInt8) : UInt8 := if on then b ||| 0x80 else b &&& 0x7F

/-- Bytes with the top bit of the last one set. -/
def markLast (bytes : List UInt8) : List UInt8 :=
  bytes.dropLast ++ (bytes.getLast?.map (· ||| 0x80)).toList

namespace StringStyle

/-- The bytes of a text in a style; `msb` tells the top bit of plain text bytes. The length byte of
a counted text holds the length modulo 256. -/
def bytes (style : StringStyle) (msb : Bool) (text : String) : List UInt8 :=
  let plainBytes := (textBytes text).map (withTopBit msb)
  match style with
  | .plain => plainBytes
  | .marked => markLast plainBytes
  | .counted => UInt8.ofNat plainBytes.length :: plainBytes
  | .inverse => (textBytes text).map (· &&& 0x3F)
  | .flashing => (textBytes text).map fun b => (b &&& 0x3F) ||| 0x40
  | .reversed => plainBytes.reverse

/-- What is wrong with a text in a style. -/
def problems (style : StringStyle) (text : String) : List Cause :=
  if style = .counted ∧ 255 < text.utf8ByteSize then [.stringTooLong text.utf8ByteSize] else []

end StringStyle

namespace Hex

/-- The bytes of pairs of digits; a last digit without a partner is left out. -/
def pairs : List Nat → List UInt8
  | high :: low :: rest => UInt8.ofNat (16 * high + low) :: pairs rest
  | _ => []

/-- The hexadecimal digits of a text. -/
def digits (text : String) : List Nat := text.toList.filterMap Text.digit?

/-- The bytes that a text spells; characters that are no digits do not count. -/
def bytes (text : String) : List UInt8 := pairs (digits text)

/-- What is wrong with a text of hexadecimal digits. -/
def problem? (text : String) : Option Cause :=
  match text.toList.find? fun c => (Text.digit? c).isNone with
  | some c => some (.badHexDigit c)
  | none => if (digits text).length % 2 = 1 then some (.oddHexDigits text) else none

end Hex

end Asm6502
