import Asm6502.Directive
import Asm6502.Isa.Opcode
import Asm6502.Source

/-!
# Tokens

A source line is a sequence of tokens, each with its text and its place. The word in column one of
a line is a label unless it is the line's operation; elsewhere a word is an operation if it is a
keyword, and else a symbol.
-/

namespace Asm6502

/-- What a token is. -/
inductive TokenKind where
  /-- The word in column one that names a place. -/
  | label
  /-- A word that is no keyword. -/
  | symbol
  /-- A mnemonic of the instruction set. -/
  | mnemonic
  /-- The keyword of a directive. -/
  | directive (directive : Directive)
  /-- A number literal. -/
  | number
  /-- A quoted string. -/
  | string
  /-- An operator character. -/
  | operator
  /-- A comma. -/
  | comma
  /-- A colon. -/
  | colon
  /-- An opening parenthesis. -/
  | leftParen
  /-- A closing parenthesis. -/
  | rightParen
  /-- A comment, up to the end of its line. -/
  | comment
  /-- The end of a line. -/
  | endOfLine
  /-- The end of the text. -/
  | endOfText
  deriving DecidableEq, Repr

namespace TokenKind

/-- A mnemonic or the keyword of a directive. -/
def isKeyword : TokenKind → Bool
  | .mnemonic | .directive _ => true
  | _ => false

/-- The end of a line or of the text. -/
def isEnd : TokenKind → Bool
  | .endOfLine | .endOfText => true
  | _ => false

/-- A label, or the colon after it. -/
def isLabelPart : TokenKind → Bool
  | .label | .colon => true
  | _ => false

/-- The keyword that a word is, in any letter case. -/
def ofKeyword? (word : String) : Option TokenKind :=
  match Opcode.find? word with
  | some _ => some .mnemonic
  | none => (Directive.ofKeyword? word).map .directive

end TokenKind

/-- A token with its text and its place. -/
structure Token where
  /-- What the token is. -/
  kind : TokenKind
  /-- The characters of the token; none for the ends of lines and of the text. -/
  lexeme : String
  /-- Where the token starts. -/
  position : Position
  deriving DecidableEq, Repr

namespace Token

/-- The token is the operator with the given text. -/
def isOperator (token : Token) (text : String) : Bool :=
  token.kind == .operator && token.lexeme == text

/-- The token as messages show it. -/
def display (token : Token) : String :=
  match token.kind with
  | .endOfLine => "end of line"
  | .endOfText => "end of input"
  | _ => token.lexeme

/-- The texts of tokens, one after another. -/
def joined (tokens : List Token) : String := String.join (tokens.map (·.lexeme))

end Token

end Asm6502
