import Asm6502.Symbol.Name
import Asm6502.Text.Numeral

/-!
# Expressions

Operand expressions are built from numbers, names, quoted characters and the location counter. They
have four operators, all of one rank, and two selectors for the bytes of a word.
-/

namespace Asm6502

/-- The operators between two values. -/
inductive Operator where
  /-- Sum. -/
  | add
  /-- Difference. -/
  | sub
  /-- Product. -/
  | mul
  /-- Quotient. -/
  | div
  deriving DecidableEq, Repr

/-- Which byte of a word is meant. -/
inductive ByteSelect where
  /-- The low byte. -/
  | low
  /-- The high byte. -/
  | high
  deriving DecidableEq, Repr

/-- Operand expressions. -/
inductive Expr where
  /-- A number. -/
  | literal (value : UInt16)
  /-- A name. -/
  | symbol (name : Name)
  /-- The location counter. -/
  | here
  /-- The first character of a quoted text. -/
  | quoted (text : String)
  /-- An operator with its two sides. -/
  | binary (op : Operator) (left right : Expr)
  /-- One byte of a value. -/
  | select (part : ByteSelect) (inner : Expr)
  deriving DecidableEq, Repr

namespace Operator

/-- The character of an operator. -/
def symbol : Operator → String
  | .add => "+"
  | .sub => "-"
  | .mul => "*"
  | .div => "/"

end Operator

namespace ByteSelect

/-- The character of a selector. -/
def symbol : ByteSelect → String
  | .low => "<"
  | .high => ">"

/-- The selected byte of a word. -/
def apply : ByteSelect → UInt16 → UInt16
  | .low, value => value &&& 0xFF
  | .high, value => value >>> 8

end ByteSelect

namespace Expr

/-- The value of the expression moves with the program. -/
def referencesSymbol : Expr → Bool
  | .literal _ | .quoted _ => false
  | .symbol _ | .here => true
  | .binary _ left right => left.referencesSymbol || right.referencesSymbol
  | .select _ inner => inner.referencesSymbol

/-- The expression as messages show it, without parentheses. -/
def display : Expr → String
  | .literal value => Text.dollar value
  | .symbol name => name.text
  | .here => "*"
  | .quoted text => "\"" ++ text ++ "\""
  | .binary op left right => left.display ++ op.symbol ++ right.display
  | .select part inner => part.symbol ++ inner.display

end Expr

end Asm6502
