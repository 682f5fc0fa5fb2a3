import Asm6502.Source
import Asm6502.Symbol.Name
import Asm6502.Text.Blank

/-!
# Macro definitions and calls

Macros are defined and called line by line, before lines are scanned for tokens. A definition opens
with the macro's name in column one and a keyword after it, and runs to a closing keyword. A call
names the macro as the operation of a line, with arguments between commas. In the lines of a body,
`&1` to `&9` stand for the arguments, `&0` for the first one and `&X` for their number.
-/

namespace Asm6502

/-- A macro. -/
structure Macro where
  /-- The name. -/
  name : Name
  /-- The lines of the body. -/
  body : List String := []
  /-- Where the definition opens. -/
  position : Position
  deriving DecidableEq, Repr

namespace Macro

/-- The macros that are defined, by name. -/
abbrev Library := Std.TreeMap Name Macro

/-! ### Lines -/

/-- A line without its comment. -/
def uncommented (line : List Char) : List Char := line.takeWhile (· != ';')

/-- The first column of a line is not blank. -/
def startsInColumnOne (line : List Char) : Bool := line.head?.any (!Text.isBlank ·)

/-- The line is a comment from column one on. -/
def isCommentLine (line : List Char) : Bool := line.head? == some '*'

/-- The name of the macro whose definition a line opens. -/
def opens? (line : List Char) : Option Name :=
  if !startsInColumnOne line || isCommentLine line then none
  else do
    let (name, rest) ← Text.nextWord? (uncommented line)
    let keyword ← Text.firstWord? rest
    if Text.upperWord keyword == "MACRO" || Text.upperWord keyword == "MAC" then
      some ⟨Text.upperWord name⟩
    else none

/-- The line closes a definition. -/
def closes (line : List Char) : Bool :=
  (Text.firstWord? (uncommented line)).any fun word =>
    Text.upperWord word == "ENDM" || Text.upperWord word == "EOM"

/-! ### Calls -/

/-- A call of a macro. -/
structure Call where
  /-- The label of the line, as it is written. -/
  label : Option String := none
  /-- The name of the macro. -/
  name : Name
  /-- The arguments. -/
  arguments : List String
  deriving DecidableEq, Repr

/-- The arguments in the text after a macro's name: what stands between commas, trimmed. -/
def arguments (text : List Char) : List String :=
  let text := Text.trim text
  if text.isEmpty then []
  else (text.splitOn ',').map fun argument => String.ofList (Text.trim argument)

/-- The call that a line makes. A word in column one is the label of the line. -/
def call? (library : Library) (line : List Char) : Option Call := do
  if isCommentLine line then none
  else
    let (first, rest) ← Text.nextWord? (uncommented line)
    let (label, word, rest) ←
      if startsInColumnOne line then
        (Text.nextWord? rest).map fun (second, rest) => (some (String.ofList first), second, rest)
      else some (none, first, rest)
    let name : Name := ⟨Text.upperWord word⟩
    if library.contains name then some { label, name, arguments := arguments rest } else none

/-! ### Parameters -/

/-- What a parameter with the given letter or digit stands for. -/
def parameter? (arguments : List String) (c : Char) : Option (List Char) :=
  if c = 'X' ∨ c = 'x' then some (Nat.toDigits 10 arguments.length)
  else if c = '0' then some (arguments[0]?.getD "").toList
  else if '1' ≤ c ∧ c ≤ '9' then some (arguments[c.toNat - 49]?.getD "").toList
  else none

/-- The text with its parameters replaced, in one pass from left to right. -/
def substituteChars (arguments : List String) : List Char → List Char
  | [] => []
  | '&' :: c :: cs =>
    match parameter? arguments c with
    | some text => text ++ substituteChars arguments cs
    | none => '&' :: substituteChars arguments (c :: cs)
  | c :: cs => c :: substituteChars arguments cs

/-- A line with its parameters replaced. -/
def substitute (arguments : List String) (line : String) : String :=
  String.ofList (substituteChars arguments line.toList)

@[simp] theorem toList_substitute (arguments : List String) (line : String) :
    (substitute arguments line).toList = substituteChars arguments line.toList := by
  simp [substitute]

end Macro

end Asm6502
