import Asm6502.Proofs.Respelling

/-!
# Line numbers are only carried along

Tokens and statements carry the place they come from. Reading a text line by line never looks at it:
leaving out line numbers is a respelling (`unnumbering`), so without them (`Token.unnumbered`,
`Statement.unnumbered`) a text reads as before, and lines with the same texts read as the same
statements, however the lines are numbered (`Statement.unnumbered_ofLines`).
-/

namespace Asm6502

/-! ### Tokens -/

/-- The place without its line. -/
def Position.unnumbered (position : Position) : Position := { position with line := 0 }

namespace Token

/-- The token without its line number. -/
def unnumbered (token : Token) : Token := { token with position := token.position.unnumbered }

@[simp] theorem lexeme_unnumbered (token : Token) : token.unnumbered.lexeme = token.lexeme := rfl

@[simp] theorem joined_unnumbered (tokens : List Token) :
    joined (tokens.map unnumbered) = joined tokens := by
  simp [joined, Function.comp_def]

end Token

/-- The tokens without their line numbers. -/
abbrev unnumber : List Token → List Token := List.map Token.unnumbered

/-- Line numbers are left out, and texts are kept. -/
def unnumbering : Respelling where
  position := Position.unnumbered
  lexeme _ text := text
  upper_lexeme _ _ := rfl
  lexeme_string _ := rfl

/-! ### Statements -/

/-- The operation without line numbers. -/
def Operation.unnumbered : Operation → Operation
  | .instruction mnemonic operand unread => .instruction mnemonic operand (unnumber unread)
  | .directive word operand => .directive word operand

namespace Statement

/-- The statement without line numbers. -/
def unnumbered (statement : Statement) : Statement :=
  { statement with
    position := statement.position.unnumbered
    operation := statement.operation.map Operation.unnumbered
    operandTokens := unnumber statement.operandTokens
    tokens := unnumber statement.tokens }

theorem respelled_unnumbering (statement : Statement) :
    statement.respelled unnumbering = statement.unnumbered := by
  have operation : Operation.respelled unnumbering = Operation.unnumbered := by
    funext operation
    cases operation <;> rfl
  have comment : statement.comment.map (unnumbering.lexeme .comment) = statement.comment :=
    Option.map_id' ..
  rw [respelled, operation, comment]
  rfl

theorem ofTokens_unnumber (tokens : List Token) :
    ofTokens (unnumber tokens) = (ofTokens tokens).map unnumbered := by
  refine (ofTokens_respelled unnumbering tokens).trans ?_
  exact List.map_congr_left fun statement _ => respelled_unnumbering statement

end Statement

/-! ### Lines -/

namespace Scan

theorem unnumber_contents (number : Nat) (cs : List Char) :
    unnumber (contents number cs) = contents 0 cs := by
  unfold contents
  split
  · rfl
  · cases pieces 0 0 cs with
    | nil => rfl
    | cons first rest =>
      simp only [List.map_cons, List.map_map]
      rfl

theorem unnumber_lineTokens (line : SourceLine) :
    unnumber (lineTokens line) = lineTokens ⟨0, line.text⟩ := by
  simp only [lineTokens, List.map_append, unnumber_contents]
  rfl

/-- Lines with the same texts have the same tokens, up to line numbers. -/
theorem unnumber_tokensOfLines {lines lines' : List SourceLine}
    (same : lines.map (·.text) = lines'.map (·.text)) :
    unnumber (tokensOfLines lines) = unnumber (tokensOfLines lines') := by
  have bare (lines : List SourceLine) : unnumber (tokensOfLines lines) =
      (lines.map (·.text)).flatMap (fun text => lineTokens ⟨0, text⟩) ++
        [⟨.endOfText, "", ⟨0, 1⟩⟩] := by
    simp only [tokensOfLines, List.map_append, List.map_flatMap, unnumber_lineTokens,
      List.flatMap_map]
    rfl
  rw [bare, bare, same]

end Scan

namespace Statement

/-- **Lines with the same texts read as the same statements**, up to line numbers. -/
theorem unnumbered_ofLines {lines lines' : List SourceLine}
    (same : lines.map (·.text) = lines'.map (·.text)) :
    (ofLines lines).map unnumbered = (ofLines lines').map unnumbered := by
  rw [ofLines, ofLines, ← ofTokens_unnumber, ← ofTokens_unnumber, Scan.unnumber_tokensOfLines same]

/-! ### What does not depend on line numbers -/

section Unnumbered

variable (statement : Statement)

@[simp] theorem label_unnumbered : statement.unnumbered.label = statement.label := rfl

@[simp] theorem comment_unnumbered : statement.unnumbered.comment = statement.comment := rfl

@[simp] theorem operation_unnumbered :
    statement.unnumbered.operation = statement.operation.map Operation.unnumbered := rfl

@[simp] theorem operandTokens_unnumbered :
    statement.unnumbered.operandTokens = unnumber statement.operandTokens := rfl

@[simp] theorem directive?_unnumbered : statement.unnumbered.directive? = statement.directive? := by
  rw [← respelled_unnumbering, directive?_respelled]

@[simp] theorem operandText_unnumbered :
    statement.unnumbered.operandText = statement.operandText :=
  Token.joined_unnumbered statement.operandTokens

@[simp] theorem string?_unnumbered : statement.unnumbered.string? = statement.string? := by
  rw [← respelled_unnumbering, string?_respelled]

@[simp] theorem stringOrText_unnumbered :
    statement.unnumbered.stringOrText = statement.stringOrText := by
  simp only [stringOrText, string?_unnumbered, operandText_unnumbered]

@[simp] theorem labelText_unnumbered : statement.unnumbered.labelText = statement.labelText := by
  have parts : statement.unnumbered.tokens.takeWhile (·.kind.isLabelPart) =
      unnumber (statement.tokens.takeWhile (·.kind.isLabelPart)) :=
    List.takeWhile_map ..
  rw [labelText, parts, Token.joined_unnumbered, labelText]

@[simp] theorem operationText_unnumbered :
    statement.unnumbered.operationText = statement.operationText := by
  simp only [operationText, operation_unnumbered, Option.isSome_map]
  rw [show statement.unnumbered.tokens = unnumber statement.tokens from rfl, List.find?_map,
    Option.map_map]
  rfl

/-- The listing shows a statement without its line number. -/
@[simp] theorem sourceText_unnumbered : statement.unnumbered.sourceText = statement.sourceText := by
  have columns : statement.unnumbered.columns = statement.columns := by
    simp only [columns, labelText_unnumbered, operation_unnumbered, Option.isNone_map,
      operationText_unnumbered, operandText_unnumbered]
  simp only [sourceText, columns, comment_unnumbered]

end Unnumbered

end Statement

end Asm6502
