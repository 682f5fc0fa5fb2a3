import Asm6502.Text.Blank
import Asm6502.Text.Numeral

/-!
# Listing rows

A statement is listed with its location, its bytes and its line. A row shows four bytes; further
bytes follow in rows of their own.
-/

namespace Asm6502.Listing

/-- What is listed of a statement. -/
structure Record where
  /-- The location counter, if it is shown. -/
  location : Option UInt16 := none
  /-- The bytes that the statement produced. -/
  bytes : List UInt8 := []
  /-- The value that the statement gave to its label. -/
  value : Option UInt16 := none
  /-- The statement stands in a disabled block. -/
  suppressed : Bool := false
  /-- The line number. -/
  line : Nat
  /-- The text of the statement. -/
  text : String
  deriving DecidableEq, Repr

/-- Bytes in hexadecimal, each with a blank after it. -/
def cells (bytes : List UInt8) : List Char := bytes.flatMap fun b => Text.hexByte b ++ [' ']

/-- Bytes in groups of four; the last group may be shorter. -/
def fours : List UInt8 → List (List UInt8)
  | [] => []
  | a :: b :: c :: d :: rest => [a, b, c, d] :: fours rest
  | short => [short]

namespace Record

/-- The location and a blank, or nothing. -/
def locationField (record : Record) : List Char :=
  match record.location with
  | some location => Text.hexWord location ++ [' ']
  | none => []

/-- The first four bytes; without bytes, an equals sign and the value. -/
def codeField (record : Record) : List Char :=
  match record.bytes, record.value with
  | [], some value => '=' :: Text.hexWord value
  | bytes, _ => cells (bytes.take 4)

/-- The mark of a disabled statement. -/
def markField (record : Record) : List Char := if record.suppressed then ['S'] else []

/-- The first row: location, bytes, mark and line number in columns, then the text. -/
def firstRow (record : Record) : List Char :=
  Text.trimEnd
    (record.locationField.rightpad 5 ' ' ++ record.codeField.rightpad 12 ' ' ++
      record.markField.rightpad 3 ' ' ++ (Nat.toDigits 10 record.line).leftpad 5 ' ' ++
      ' ' :: record.text.toList)

/-- A row with up to four further bytes. -/
def furtherRow (bytes : List UInt8) : List Char :=
  Text.trimEnd (List.replicate 5 ' ' ++ cells bytes)

/-- The rows of a record. -/
def rows (record : Record) : List (List Char) :=
  record.firstRow :: (fours (record.bytes.drop 4)).map furtherRow

/-- The record as it is printed, without a newline at the end. -/
def render (record : Record) : String := String.ofList (['\n'].intercalate record.rows)

end Record

end Asm6502.Listing
