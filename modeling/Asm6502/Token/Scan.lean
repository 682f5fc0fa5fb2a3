import Asm6502.Text.Numeral
import Asm6502.Text.Quoted
import Asm6502.Token

/-!
# Scanning lines

At each place of a line the longest token that starts there is taken; a character at which no token
starts is passed over, blanks among them. A line that starts with an asterisk is one comment.
-/

namespace Asm6502.Scan

/-- The patterns of tokens, before words are told apart. -/
inductive Pattern where
  /-- A word: a letter or an underscore, then letters, digits, underscores and points; or `>>>`. -/
  | word
  /-- Digits in one of the four radices. -/
  | number
  /-- A quoted string, perhaps without its closing quote. -/
  | quoted
  /-- A semicolon and all that follows. -/
  | comment
  /-- A comma. -/
  | comma
  /-- A colon. -/
  | colon
  /-- An opening parenthesis. -/
  | leftParen
  /-- A closing parenthesis. -/
  | rightParen
  /-- One of the operator characters. -/
  | operator
  deriving DecidableEq, Repr

/-- Characters that may start a word. -/
def isWordStart (c : Char) : Bool := c.isAlpha || c == '_'

/-- Characters that may continue a word. -/
def isWordPart (c : Char) : Bool := c.isAlphanum || c == '_' || c == '.'

/-- The operator characters. -/
def isOperatorChar (c : Char) : Bool := "-+*/#<>=&|^!".toList.contains c

/-- The number of leading characters with a property. -/
def runLength (p : Char → Bool) (cs : List Char) : Nat := (cs.takeWhile p).length

/-- The length of `lead` characters and the digits of a radix after them, if there are any. -/
def digitsAfter? (lead radix : Nat) (cs : List Char) : Option Nat :=
  let digits := runLength (Text.isDigitIn radix) cs
  if digits = 0 then none else some (lead + digits)

/-- The length of the number literal that a text starts with. -/
def numberLength? : List Char → Option Nat
  | '$' :: cs => digitsAfter? 1 16 cs
  | '%' :: cs => digitsAfter? 1 2 cs
  | '@' :: cs => digitsAfter? 1 8 cs
  | '0' :: c :: cs =>
    let prefixed :=
      if c == 'x' || c == 'X' then digitsAfter? 2 16 cs
      else if c == 'b' || c == 'B' then digitsAfter? 2 2 cs
      else none
    prefixed <|> digitsAfter? 0 10 ('0' :: c :: cs)
  | cs => digitsAfter? 0 10 cs

/-- The length of a string after its opening quote, the closing quote included if it is there. -/
def quotedLength (quote : Char) (cs : List Char) : Nat :=
  let inside := runLength (· != quote) cs
  if inside < cs.length then inside + 1 else inside

/-- The longest token at the start of a text: its pattern and its length. -/
def longest? : List Char → Option (Pattern × Nat)
  | [] => none
  | c :: cs =>
    if isWordStart c then some (.word, 1 + runLength isWordPart cs)
    else if c == '>' && cs.take 2 == ['>', '>'] then some (.word, 3)
    else if c == Text.doubleQuote || c == Text.singleQuote then
      some (.quoted, 1 + quotedLength c cs)
    else if c == ';' then some (.comment, 1 + cs.length)
    else if c == ',' then some (.comma, 1)
    else if c == ':' then some (.colon, 1)
    else if c == '(' then some (.leftParen, 1)
    else if c == ')' then some (.rightParen, 1)
    else if isOperatorChar c then some (.operator, 1)
    else (numberLength? (c :: cs)).map (.number, ·)

/-- A piece of a line that matches a pattern. -/
structure Piece where
  /-- The pattern. -/
  pattern : Pattern
  /-- The characters of the piece. -/
  text : List Char
  /-- How many characters of the line stand before it. -/
  start : Nat
  deriving DecidableEq, Repr

/-- The pieces of a text, from its first `skip` characters on; `start` characters stand before the
text. -/
def pieces : (skip start : Nat) → List Char → List Piece
  | _, _, [] => []
  | skip + 1, start, _ :: cs => pieces skip (start + 1) cs
  | 0, start, c :: cs =>
    match longest? (c :: cs) with
    | some (pattern, length) =>
      ⟨pattern, (c :: cs).take length, start⟩ :: pieces (length - 1) (start + 1) cs
    | none => pieces 0 (start + 1) cs

/-- The text of a piece. -/
def Piece.lexeme (piece : Piece) : String := String.ofList piece.text

/-- What a piece is, wherever it stands; words are keywords or symbols. -/
def Piece.kind (piece : Piece) : TokenKind :=
  match piece.pattern with
  | .word => (TokenKind.ofKeyword? piece.lexeme).getD .symbol
  | .number => .number
  | .quoted => .string
  | .comment => .comment
  | .comma => .comma
  | .colon => .colon
  | .leftParen => .leftParen
  | .rightParen => .rightParen
  | .operator => .operator

/-- What the first piece of a line is, given the pieces after it. A word in column one is a label,
unless it is a keyword and the next word of the line is not one. -/
def firstKind (piece : Piece) (rest : List Piece) : TokenKind :=
  if piece.start = 0 ∧ piece.pattern = .word then
    let nextIsKeyword := (rest.find? (·.pattern == .word)).any (·.kind.isKeyword)
    if piece.kind.isKeyword && !nextIsKeyword then piece.kind else .label
  else piece.kind

/-- The token of a piece on the line with the given number. -/
def Piece.token (number : Nat) (kind : TokenKind) (piece : Piece) : Token :=
  ⟨kind, piece.lexeme, ⟨number, piece.start + 1⟩⟩

/-- The tokens of a line, without its end. -/
def contents (number : Nat) (cs : List Char) : List Token :=
  match cs with
  | '*' :: _ => [⟨.comment, String.ofList cs, ⟨number, 1⟩⟩]
  | _ =>
    match pieces 0 0 cs with
    | [] => []
    | first :: rest =>
      first.token number (firstKind first rest) :: rest.map fun piece => piece.token number piece.kind

/-- The tokens of a line, its end included. -/
def lineTokens (line : SourceLine) : List Token :=
  contents line.number line.text.toList ++
    [⟨.endOfLine, "", ⟨line.number, line.text.length + 1⟩⟩]

/-- The place where a text ends: the start of the line after its last. -/
def endOf (lines : List SourceLine) : Position :=
  ⟨(lines.getLast?.map (·.number + 1)).getD 1, 1⟩

/-- The tokens of numbered lines. -/
def tokensOfLines (lines : List SourceLine) : List Token :=
  lines.flatMap lineTokens ++ [⟨.endOfText, "", endOf lines⟩]

/-- The tokens of a source text. -/
def tokens (source : String) : List Token := tokensOfLines (Source.lines source)

end Asm6502.Scan
