import Asm6502.Expr
import Asm6502.Symbol.Table

/-!
# Values of expressions

Every expression has a value in 16 bits. Names that are not defined count as zero and so does a
quotient by zero; the result tells whether that happened.
-/

namespace Asm6502

/-- The value of an expression and what was missing for it. -/
structure Evaluation where
  /-- The value. -/
  value : UInt16
  /-- The names without a definition, each once, in the order of their first use. -/
  undefined : List Name := []
  /-- A name that is defined elsewhere was used. -/
  external : Bool := false
  /-- A quotient by zero was taken. -/
  divisionByZero : Bool := false
  deriving DecidableEq, Repr

namespace Evaluation

/-- No name was undefined. -/
def isDefined (evaluation : Evaluation) : Bool := evaluation.undefined.isEmpty

end Evaluation

/-- The value of an operator; a quotient by zero is zero. -/
def Operator.apply : Operator → UInt16 → UInt16 → UInt16
  | .add, left, right => left + right
  | .sub, left, right => left - right
  | .mul, left, right => left * right
  | .div, left, right => left / right

namespace Expr

/-- The value of a quoted text: the code of its first character modulo 2^16. -/
def quotedValue (text : String) : UInt16 :=
  match text.toList with
  | [] => 0
  | c :: _ => UInt16.ofNat c.toNat

/-- The value of an expression, names taken from a symbol table and `here` for the location
counter. -/
def evaluate (symbols : SymbolTable) (here : UInt16) : Expr → Evaluation
  | .literal value => { value }
  | .here => { value := here }
  | .quoted text => { value := quotedValue text }
  | .symbol name =>
    match symbols.meaning name with
    | .defined value => { value }
    | .external => { value := 0, external := true }
    | .undefined => { value := 0, undefined := [name] }
  | .select part inner =>
    let e := inner.evaluate symbols here
    { e with value := part.apply e.value }
  | .binary op left right =>
    let l := left.evaluate symbols here
    let r := right.evaluate symbols here
    { value := op.apply l.value r.value
      undefined := l.undefined ++ r.undefined.filter (!l.undefined.contains ·)
      external := l.external || r.external
      divisionByZero := l.divisionByZero || r.divisionByZero || (op == .div && r.value == 0) }

end Expr

end Asm6502
