import Asm6502.Statement
import Asm6502.Token.Scan

/-!
# Reading statements

A line of tokens reads as an optional label with an optional colon, an optional operation with its
operand, and an optional comment. What cannot be read is kept as the operand's unread rest, or
dropped if there is no operation.
-/

namespace Asm6502.Statement

/-- The tokens of a line without its comment, and the comment. -/
def splitComment (line : List Token) : List Token × Option String :=
  match line.getLast? with
  | some last => if last.kind = .comment then (line.dropLast, some last.lexeme) else (line, none)
  | none => ([], none)

/-- The tokens without a colon at their start. -/
def skipColon : List Token → List Token
  | [] => []
  | token :: tokens => if token.kind = .colon then tokens else token :: tokens

/-- The label at the start of a line, and the tokens after it and its colon. -/
def readLabel : List Token → Option Name × List Token
  | [] => (none, [])
  | token :: tokens =>
    if token.kind = .label then (some (.ofText token.lexeme), skipColon tokens)
    else (none, token :: tokens)

/-- The instruction with a given mnemonic and the given tokens after it. -/
def instruction (mnemonic : String) (tokens : List Token) : Operation :=
  match Operand.read tokens with
  | some (operand, rest) => .instruction mnemonic (some operand) rest
  | none => .instruction mnemonic none tokens

/-- The operation that tokens start with. A symbol stands for a mnemonic that is not known. -/
def readOperation : List Token → Option Operation
  | [] => none
  | token :: tokens =>
    match token.kind with
    | .mnemonic | .symbol => some (instruction (Text.upper token.lexeme) tokens)
    | .directive directive => some (.directive directive (Expr.parse? tokens))
    | _ => none

/-- The tokens after the operation. -/
def afterOperation (body : List Token) : List Token :=
  (body.dropWhile (·.kind.isLabelPart)).drop 1

/-- The statement of a line of tokens; a line without label, operation and comment has none. -/
def ofLine? (line : List Token) : Option Statement :=
  match line with
  | [] => none
  | first :: _ =>
    let (body, comment) := splitComment line
    let (label, rest) := readLabel body
    let operation := readOperation rest
    if label.isNone && operation.isNone && comment.isNone then none
    else
      some {
        position := first.position
        label
        operation
        operandTokens := if operation.isSome then afterOperation body else []
        comment
        tokens := line }

/-- The statements of a token list, line by line. -/
def ofTokens (tokens : List Token) : List Statement :=
  (tokens.splitOnP (·.kind.isEnd)).filterMap ofLine?

/-- The statements of numbered lines. -/
def ofLines (lines : List SourceLine) : List Statement := ofTokens (Scan.tokensOfLines lines)

/-- The statements of a source text. -/
def ofSource (source : String) : List Statement := ofTokens (Scan.tokens source)

end Asm6502.Statement
