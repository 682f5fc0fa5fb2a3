import Asm6502.Expr.Parse
import Asm6502.Text.Letter

/-!
# Operands

The operand of an instruction is an expression in one of ten written forms; the form and the value
together decide the addressing mode. The operand of a data directive is a list of expressions
between commas.
-/

namespace Asm6502

/-- The written forms of an instruction's operand. -/
inductive Form where
  /-- The register name `A` alone. -/
  | accumulator
  /-- `#e`. -/
  | immediate
  /-- `#<e`. -/
  | immediateLow
  /-- `#>e`. -/
  | immediateHigh
  /-- `e`. -/
  | absolute
  /-- `e,X`. -/
  | absoluteX
  /-- `e,Y`. -/
  | absoluteY
  /-- `(e)`. -/
  | indirect
  /-- `(e,X)`. -/
  | indirectX
  /-- `(e),Y`. -/
  | indirectY
  deriving DecidableEq, Repr

/-- An instruction's operand. -/
structure Operand where
  /-- How it is written. -/
  form : Form
  /-- The expression in it. -/
  expr : Expr
  deriving DecidableEq, Repr

namespace Operand

/-- Drop a comma and the given index register, in either letter case. -/
def skipIndex? (register : String) : List Token → Option (List Token)
  | comma :: index :: tokens =>
    if comma.kind = .comma ∧ index.kind = .symbol ∧ Text.upper index.lexeme = register then
      some tokens
    else none
  | _ => none

/-- Read `#e`, `#<e` or `#>e`. A selector right after the `#` belongs to the form. -/
def readImmediate : Reader Operand
  | [] => none
  | token :: tokens =>
    if token.isOperator "#" then
      match tokens.head?.bind Expr.select? with
      | some .low => (Expr.read tokens.tail).map fun (expr, rest) => (⟨.immediateLow, expr⟩, rest)
      | some .high => (Expr.read tokens.tail).map fun (expr, rest) => (⟨.immediateHigh, expr⟩, rest)
      | none => (Expr.read tokens).map fun (expr, rest) => (⟨.immediate, expr⟩, rest)
    else none

/-- Read `(e,X)`, `(e)` or `(e),Y`. -/
def readIndirect : Reader Operand := fun tokens => do
  let inside ← Expr.skipKind? .leftParen tokens
  let (expr, rest) ← Expr.read inside
  match (skipIndex? "X" rest).bind (Expr.skipKind? .rightParen) with
  | some rest => some (⟨.indirectX, expr⟩, rest)
  | none =>
    let rest ← Expr.skipKind? .rightParen rest
    match skipIndex? "Y" rest with
    | some rest => some (⟨.indirectY, expr⟩, rest)
    | none => some (⟨.indirect, expr⟩, rest)

/-- Read `e,X`, `e,Y` or `e`, where the name `A` alone is the accumulator. -/
def readPlain : Reader Operand := fun tokens => do
  let (expr, rest) ← Expr.read tokens
  match skipIndex? "X" rest with
  | some rest => some (⟨.absoluteX, expr⟩, rest)
  | none =>
    match skipIndex? "Y" rest with
    | some rest => some (⟨.absoluteY, expr⟩, rest)
    | none =>
      some (⟨if expr = .symbol ⟨"A"⟩ then .accumulator else .absolute, expr⟩, rest)

/-- Read an operand: an immediate value, else an indirect operand, else a plain one. -/
def read : Reader Operand := fun tokens =>
  readImmediate tokens <|> readIndirect tokens <|> readPlain tokens

/-! ### Value lists -/

/-- The depth of parentheses after a token; a closing parenthesis without a partner does not
count. -/
def depthAfter (depth : Nat) (token : Token) : Nat :=
  match token.kind with
  | .leftParen => depth + 1
  | .rightParen => depth - 1
  | _ => depth

/-- The groups of tokens between the commas outside parentheses, at the given depth. -/
def groups : (depth : Nat) → List Token → List (List Token)
  | _, [] => [[]]
  | depth, token :: tokens =>
    if token.kind = .comma ∧ depth = 0 then [] :: groups 0 tokens
    else (groups (depthAfter depth token) tokens).modifyHead (token :: ·)

/-- The expressions of a value list; a group that does not start with an expression has none. -/
def valueList (tokens : List Token) : List (Option Expr) :=
  if tokens.isEmpty then [] else (groups 0 tokens).map Expr.parse?

end Operand

end Asm6502
