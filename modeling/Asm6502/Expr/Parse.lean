import Asm6502.Expr
import Asm6502.Text.Quoted
import Asm6502.Token

/-!
# Reading expressions

An expression is a chain of terms joined by operators, read from left to right without ranks. A
term is an atom, perhaps after a selector or a minus sign; an atom is a number, a name, a string,
an asterisk for the location counter, or an expression in parentheses. The reader takes the longest
expression that a token list starts with and returns the tokens after it.
-/

namespace Asm6502

/-- A reader of something at the start of a token list: what it read and the tokens after it. -/
abbrev Reader (α : Type) := List Token → Option (α × List Token)

namespace Expr

/-- The operator that a token is. -/
def operator? (token : Token) : Option Operator :=
  if token.isOperator "+" then some .add
  else if token.isOperator "-" then some .sub
  else if token.isOperator "*" then some .mul
  else if token.isOperator "/" then some .div
  else none

/-- The selector that a token is. -/
def select? (token : Token) : Option ByteSelect :=
  if token.isOperator "<" then some .low
  else if token.isOperator ">" then some .high
  else none

/-- The token that starts with the given kind is dropped. -/
def skipKind? (kind : TokenKind) : List Token → Option (List Token)
  | [] => none
  | token :: tokens => if token.kind = kind then some tokens else none

/-- Read an atom; `inner` reads what stands in parentheses. -/
def atom (inner : Reader Expr) : Reader Expr
  | [] => none
  | token :: tokens =>
    match token.kind with
    | .number => some (.literal (Text.numericValue token.lexeme), tokens)
    | .symbol | .label => some (.symbol (.ofText token.lexeme), tokens)
    | .string => some (.quoted (Text.unquote token.lexeme), tokens)
    | .operator => if token.lexeme = "*" then some (.here, tokens) else none
    | .leftParen => do
      let (expr, rest) ← inner tokens
      let rest ← skipKind? .rightParen rest
      some (expr, rest)
    | _ => none

/-- Read a term: an atom, perhaps after a selector or a minus sign. -/
def term (atom : Reader Expr) : Reader Expr
  | [] => none
  | token :: tokens =>
    match select? token with
    | some part => (atom tokens).map fun (expr, rest) => (.select part expr, rest)
    | none =>
      if token.isOperator "-" then
        (atom tokens).map fun (expr, rest) => (.binary .sub (.literal 0) expr, rest)
      else atom (token :: tokens)

/-- Extend `left` by operators and terms for as long as both are there, at most `limit` times. -/
def chainFrom (term : Reader Expr) : (limit : Nat) → Expr → List Token → Expr × List Token
  | 0, left, tokens => (left, tokens)
  | _ + 1, left, [] => (left, [])
  | limit + 1, left, token :: tokens =>
    match operator? token with
    | none => (left, token :: tokens)
    | some op =>
      match term tokens with
      | none => (left, token :: tokens)
      | some (right, rest) => chainFrom term limit (.binary op left right) rest

/-- Read a term and what extends it. -/
def chain (term : Reader Expr) : Reader Expr := fun tokens =>
  (term tokens).map fun (left, rest) => chainFrom term rest.length left rest

/-- Read an expression with parentheses at most `depth - 1` deep. -/
def ofDepth : (depth : Nat) → Reader Expr
  | 0 => fun _ => none
  | depth + 1 => chain (term (atom (ofDepth depth)))

/-- Read the longest expression at the start of a token list. No list has more parentheses than
tokens, so the depth does not restrict the reader. -/
def read : Reader Expr := fun tokens => ofDepth (tokens.length + 1) tokens

/-- The longest expression at the start of a token list. -/
def parse? (tokens : List Token) : Option Expr := (read tokens).map (·.1)

end Expr

end Asm6502
