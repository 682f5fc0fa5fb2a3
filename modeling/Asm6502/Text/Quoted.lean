import Asm6502.Text.Blank

/-!
# Quoted text

String operands and file names stand between double or single quotes. The closing quote may be
missing at the end of a line.
-/

namespace Asm6502.Text

/-- The double quote. -/
def doubleQuote : Char := '\x22'

/-- The single quote. -/
def singleQuote : Char := '\x27'

/-- The characters without one `quote` at the end, if there is one. -/
def dropClosing (quote : Char) (cs : List Char) : List Char :=
  if cs.getLast? = some quote then cs.dropLast else cs

/-- The characters between quotes, blanks around the quotes left out; text that does not start
with a quote is only trimmed. -/
def unquoteChars (cs : List Char) : List Char :=
  match trim cs with
  | [] => []
  | c :: rest => if c = doubleQuote ∨ c = singleQuote then dropClosing c rest else c :: rest

/-- The text between quotes. -/
def unquote (s : String) : String := String.ofList (unquoteChars s.toList)

@[simp] theorem toList_unquote (s : String) : (unquote s).toList = unquoteChars s.toList := by
  simp [unquote]

end Asm6502.Text
