import Asm6502.Operand
import Asm6502.Text.Blank

/-!
# Statements

A statement is what one line asks for: a label, an operation with its operand, a comment, each of
which may be absent. It keeps its tokens, from which listings and messages show it.
-/

namespace Asm6502

/-- The operation of a statement. -/
inductive Operation where
  /-- A mnemonic in upper case, its operand if there is one that can be read, and the tokens that
  are left after the operand. -/
  | instruction (mnemonic : String) (operand : Option Operand) (unread : List Token)
  /-- A directive and the expression that its operand starts with. -/
  | directive (directive : Directive) (operand : Option Expr)
  deriving DecidableEq, Repr

/-- A statement. -/
structure Statement where
  /-- The place of its first token. -/
  position : Position
  /-- The label. -/
  label : Option Name := none
  /-- The operation. -/
  operation : Option Operation := none
  /-- The tokens after the operation, without the comment. -/
  operandTokens : List Token := []
  /-- The comment. -/
  comment : Option String := none
  /-- All tokens of the line. -/
  tokens : List Token := []
  deriving DecidableEq, Repr

namespace Statement

/-- The directive of a statement. -/
def directive? (statement : Statement) : Option Directive :=
  match statement.operation with
  | some (.directive directive _) => some directive
  | _ => none

/-- The mnemonic of a statement. -/
def mnemonic? (statement : Statement) : Option String :=
  match statement.operation with
  | some (.instruction mnemonic _ _) => some mnemonic
  | _ => none

/-- The written form of an instruction's operand. -/
def form? (statement : Statement) : Option Form :=
  match statement.operation with
  | some (.instruction _ operand _) => operand.map (·.form)
  | _ => none

/-- The expression of the operand. -/
def expr? (statement : Statement) : Option Expr :=
  match statement.operation with
  | some (.instruction _ operand _) => operand.map (·.expr)
  | some (.directive _ operand) => operand
  | none => none

/-- Tokens are left after an instruction's operand. -/
def hasUnread (statement : Statement) : Bool :=
  match statement.operation with
  | some (.instruction _ _ unread) => !unread.isEmpty
  | _ => false

/-- The text of the operand, without the blanks between its tokens. -/
def operandText (statement : Statement) : String := Token.joined statement.operandTokens

/-- The first string among the operand's tokens, without its quotes. -/
def string? (statement : Statement) : Option String :=
  (statement.operandTokens.find? (·.kind == .string)).map (Text.unquote ·.lexeme)

/-- The first string among the operand's tokens, or else the text of the operand. -/
def stringOrText (statement : Statement) : String := statement.string?.getD statement.operandText

/-- The label of the line as it is written, with its colon. -/
def labelText (statement : Statement) : String :=
  Token.joined (statement.tokens.takeWhile (·.kind.isLabelPart))

/-- The operation of the line as it is written. -/
def operationText (statement : Statement) : String :=
  let isOperation (token : Token) :=
    token.kind.isKeyword || (statement.operation.isSome && token.kind == .symbol)
  ((statement.tokens.find? isOperation).map (·.lexeme)).getD ""

/-- Label, operation and operand in columns: eight for the label, four for the operation, each with
a blank after it. A line with neither label nor operation has none of them. -/
def columns (statement : Statement) : List Char :=
  if statement.labelText.isEmpty && statement.operation.isNone then []
  else
    statement.labelText.toList.rightpad 8 ' ' ++ ' ' ::
      (statement.operationText.toList.rightpad 4 ' ' ++ ' ' :: statement.operandText.toList)

/-- The statement as listings show it: its columns, a blank and the comment. -/
def sourceText (statement : Statement) : String :=
  let text := statement.columns
  let text :=
    match statement.comment with
    | none => text
    | some comment =>
      (if text.isEmpty then [] else Text.trimEnd text ++ [' ']) ++ comment.toList
  String.ofList (Text.trimEnd text)

end Statement

end Asm6502
