/-!
# Numerals

Digits of number literals, and the fixed-width hexadecimal and plain decimal numerals of the output.
-/

namespace Asm6502.Text

/-- The value of a digit of a radix up to sixteen. -/
def digit? (c : Char) : Option Nat :=
  if '0' ≤ c ∧ c ≤ '9' then some (c.toNat - 48)
  else if 'A' ≤ c ∧ c ≤ 'F' then some (c.toNat - 55)
  else if 'a' ≤ c ∧ c ≤ 'f' then some (c.toNat - 87)
  else none

/-- The value of a digit of the given radix. -/
def digitIn? (radix : Nat) (c : Char) : Option Nat := (digit? c).filter (· < radix)

/-- A character is a digit of the given radix. -/
def isDigitIn (radix : Nat) (c : Char) : Bool := (digitIn? radix c).isSome

/-- The radix that a number literal's first characters announce, and the characters after them. -/
def radixOf : List Char → Nat × List Char
  | '$' :: cs => (16, cs)
  | '0' :: 'x' :: cs => (16, cs)
  | '0' :: 'X' :: cs => (16, cs)
  | '%' :: cs => (2, cs)
  | '0' :: 'b' :: cs => (2, cs)
  | '0' :: 'B' :: cs => (2, cs)
  | '@' :: cs => (8, cs)
  | cs => (10, cs)

/-- The value of a numeral with one more digit at its end, computed in 32 bits and cut to 16. -/
def appendDigit (radix : Nat) (value : UInt32) (digit : Nat) : UInt32 :=
  (value * UInt32.ofNat radix + UInt32.ofNat digit) &&& 0xFFFF

/-- The value of digits, first digit first. -/
def accumulate (radix : Nat) (digits : List Nat) : UInt32 := digits.foldl (appendDigit radix) 0

/-- The value of a number literal, modulo 2^16. Characters that are no digits of its radix do not
count. -/
def numericValue (lexeme : String) : UInt16 :=
  let (radix, cs) := radixOf lexeme.toList
  let value := accumulate radix (cs.filterMap (digitIn? radix))
  if value ≤ 0xFFFF then value.toUInt16 else 0xFFFF

/-- The upper-case digit of a number below sixteen. -/
def hexDigit (n : Nat) : Char := Char.ofNat (if n < 10 then n + 48 else n + 55)

/-- A byte as two hexadecimal digits. -/
def hexByte (b : UInt8) : List Char := [hexDigit (b.toNat / 16), hexDigit (b.toNat % 16)]

/-- A word as four hexadecimal digits. -/
def hexWord (w : UInt16) : List Char :=
  [hexDigit (w.toNat / 4096), hexDigit (w.toNat / 256 % 16), hexDigit (w.toNat / 16 % 16),
    hexDigit (w.toNat % 16)]

/-- A number in decimal. -/
def decimal (n : Nat) : String := String.ofList (Nat.toDigits 10 n)

/-- A word as it is written in messages: a dollar sign and four digits. -/
def dollar (w : UInt16) : String := String.ofList ('$' :: hexWord w)

@[simp] theorem length_hexByte (b : UInt8) : (hexByte b).length = 2 := rfl

@[simp] theorem length_hexWord (w : UInt16) : (hexWord w).length = 4 := rfl

@[simp] theorem toList_decimal (n : Nat) : (decimal n).toList = Nat.toDigits 10 n := by
  simp [decimal]

@[simp] theorem toList_dollar (w : UInt16) : (dollar w).toList = '$' :: hexWord w := by
  simp [dollar]

end Asm6502.Text
