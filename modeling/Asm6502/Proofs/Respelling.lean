import Asm6502.Proofs.Step
import Asm6502.Proofs.Uppercase
import Asm6502.Statement.Parse

/-!
# Texts spelled otherwise

A **respelling** changes the places of tokens and the letter case of their texts, but not the texts
of strings. Reading a text line by line takes from a token its kind, its text in upper case, and the
text of a string, so it does not see a respelling: a reader that commutes with one `Respects` it,
and a respelled text reads as the respelled statements (`Statement.ofTokens_respelled`). What such a
statement does is the same but for the texts that it shows (`Effect.ofStatement_respelled`).
-/

namespace Asm6502

/-- A mapped list is split where the list itself is. -/
theorem splitOnP_map {α β : Type} (f : α → β) (ends : β → Bool) (items : List α) :
    (items.map f).splitOnP ends = (items.splitOnP (ends ∘ f)).map (List.map f) := by
  induction items with
  | nil => rfl
  | cons item items ih =>
    simp only [List.map_cons, List.splitOnP_cons_eq_if_modifyHead, ih, Function.comp_apply]
    split
    · rfl
    · cases items.splitOnP (ends ∘ f) <;> rfl

/-! ### Tokens -/

/-- A way to spell tokens otherwise. -/
structure Respelling where
  /-- The place of a token. -/
  position : Position → Position
  /-- The text of a token of a given kind. -/
  lexeme : TokenKind → String → String
  /-- Only the letter case of texts changes. -/
  upper_lexeme : ∀ kind text, Text.upper (lexeme kind text) = Text.upper text
  /-- The texts of strings do not change. -/
  lexeme_string : ∀ text, lexeme .string text = text

attribute [simp] Respelling.upper_lexeme Respelling.lexeme_string

namespace Respelling

variable (r : Respelling)

/-- The token, respelled. -/
def token (token : Token) : Token :=
  ⟨token.kind, r.lexeme token.kind token.lexeme, r.position token.position⟩

/-- The tokens, respelled. -/
abbrev tokens : List Token → List Token := List.map r.token

@[simp] theorem kind_token (token : Token) : (r.token token).kind = token.kind := rfl

@[simp] theorem upper_token (token : Token) :
    Text.upper (r.token token).lexeme = Text.upper token.lexeme :=
  r.upper_lexeme _ _

/-- A text without letters is respelled to itself, and no other text is respelled to it. -/
theorem lexeme_token_eq_iff (token : Token) (text : String)
    (plain : text.toList.all (!·.isAlpha) = true) :
    (r.token token).lexeme = text ↔ token.lexeme = text := by
  rw [← Text.upper_eq_iff plain, upper_token, Text.upper_eq_iff plain]

theorem isOperator_token (token : Token) (text : String)
    (plain : text.toList.all (!·.isAlpha) = true) :
    (r.token token).isOperator text = token.isOperator text := by
  have same : ((r.token token).lexeme == text) = (token.lexeme == text) := by
    rw [Bool.eq_iff_iff, beq_iff_eq, beq_iff_eq, r.lexeme_token_eq_iff token text plain]
  rw [Token.isOperator, same, kind_token, Token.isOperator]

@[simp] theorem ofText_lexeme (kind : TokenKind) (text : String) :
    Name.ofText (r.lexeme kind text) = Name.ofText text :=
  congrArg Name.mk (r.upper_lexeme kind text)

@[simp] theorem numericValue_lexeme (kind : TokenKind) (text : String) :
    Text.numericValue (r.lexeme kind text) = Text.numericValue text :=
  Text.eq_of_upper Text.numericValue_upper (r.upper_lexeme kind text)

/-- Joined tokens are respelled in their letter case only. -/
theorem upper_joined (tokens : List Token) :
    Text.upper (Token.joined (r.tokens tokens)) = Text.upper (Token.joined tokens) := by
  induction tokens with
  | nil => rfl
  | cons token tokens ih =>
    have apart (first rest : String) :
        Text.upper (first ++ rest) = Text.upper first ++ Text.upper rest := by simp [Text.upper]
    simp only [Token.joined, List.map_cons, String.join_cons, apart, upper_token] at ih ⊢
    rw [ih]

end Respelling

/-! ### Expressions -/

/-- The reader does not see the respelling: it reads the same from respelled tokens, and leaves the
respelled rest. -/
def Reader.Respects {α : Type} (r : Respelling) (reader : Reader α) : Prop :=
  ∀ tokens, reader (r.tokens tokens) = (reader tokens).map (Prod.map id r.tokens)

variable (r : Respelling)

namespace Expr

@[simp] theorem operator?_token (token : Token) : operator? (r.token token) = operator? token := by
  simp only [operator?, r.isOperator_token token "+" (by decide),
    r.isOperator_token token "-" (by decide), r.isOperator_token token "*" (by decide),
    r.isOperator_token token "/" (by decide)]

@[simp] theorem select?_token (token : Token) : select? (r.token token) = select? token := by
  simp only [select?, r.isOperator_token token "<" (by decide),
    r.isOperator_token token ">" (by decide)]

theorem skipKind?_tokens (kind : TokenKind) (tokens : List Token) :
    skipKind? kind (r.tokens tokens) = (skipKind? kind tokens).map r.tokens := by
  cases tokens with
  | nil => rfl
  | cons token tokens =>
    by_cases same : token.kind = kind <;> simp [skipKind?, same]

theorem respects_atom {inner : Reader Expr} (respects : inner.Respects r) :
    (atom inner).Respects r := by
  intro tokens
  cases tokens with
  | nil => rfl
  | cons token tokens =>
    simp only [atom, List.map_cons, Respelling.kind_token]
    cases kind : token.kind with
    | number | symbol | label | string => simp [Respelling.token, kind]
    | operator =>
      simp only [r.lexeme_token_eq_iff token "*" (by decide)]
      split <;> rfl
    | leftParen =>
      simp only [respects tokens]
      cases inner tokens with
      | none => rfl
      | some read =>
        obtain ⟨expr, rest⟩ := read
        simp only [Option.map_some, Prod.map, Option.bind_eq_bind, Option.bind_some,
          skipKind?_tokens]
        cases skipKind? .rightParen rest <;> rfl
    | _ => rfl

theorem respects_term {atom : Reader Expr} (respects : atom.Respects r) :
    (term atom).Respects r := by
  intro tokens
  cases tokens with
  | nil => rfl
  | cons token tokens =>
    simp only [term, List.map_cons, select?_token, r.isOperator_token token "-" (by decide)]
    cases select? token with
    | some part =>
      simp only [respects tokens]
      cases atom tokens <;> rfl
    | none =>
      by_cases minus : token.isOperator "-" = true
      · simp only [minus, if_true, respects tokens]
        cases atom tokens <;> rfl
      · simp only [minus]
        exact respects (token :: tokens)

theorem chainFrom_tokens {term : Reader Expr} (respects : term.Respects r) (limit : Nat)
    (left : Expr) (tokens : List Token) :
    chainFrom term limit left (r.tokens tokens) =
      Prod.map id r.tokens (chainFrom term limit left tokens) := by
  induction limit generalizing left tokens with
  | zero => rfl
  | succ limit ih =>
    cases tokens with
    | nil => rfl
    | cons token tokens =>
      simp only [chainFrom, List.map_cons, operator?_token]
      cases operator? token with
      | none => rfl
      | some op =>
        simp only [respects tokens]
        cases term tokens with
        | none => rfl
        | some read => exact ih _ read.2

theorem respects_chain {term : Reader Expr} (respects : term.Respects r) :
    (chain term).Respects r := by
  intro tokens
  simp only [chain, respects tokens]
  cases term tokens with
  | none => rfl
  | some read =>
    simp only [Option.map_some, Prod.map, id_eq, List.length_map, chainFrom_tokens r respects]

theorem respects_ofDepth (depth : Nat) : (ofDepth depth).Respects r := by
  induction depth with
  | zero => exact fun _ => rfl
  | succ depth ih => exact respects_chain r (respects_term r (respects_atom r ih))

theorem respects_read : Reader.Respects r read := by
  intro tokens
  simp only [read, List.length_map]
  exact respects_ofDepth r _ tokens

@[simp] theorem parse?_tokens (tokens : List Token) : parse? (r.tokens tokens) = parse? tokens := by
  rw [parse?, parse?, respects_read r]
  cases read tokens <;> rfl

end Expr

/-! ### Operands -/

namespace Operand

theorem skipIndex?_tokens (register : String) (tokens : List Token) :
    skipIndex? register (r.tokens tokens) = (skipIndex? register tokens).map r.tokens := by
  cases tokens with
  | nil => rfl
  | cons comma tokens =>
    cases tokens with
    | nil => rfl
    | cons index tokens =>
      simp only [skipIndex?, List.map_cons, Respelling.kind_token, Respelling.upper_token]
      split <;> rfl

theorem respects_readImmediate : Reader.Respects r readImmediate := by
  intro tokens
  cases tokens with
  | nil => rfl
  | cons token tokens =>
    have hash := r.isOperator_token token "#" (by decide)
    by_cases immediate : token.isOperator "#" = true
    · have selector : (r.tokens tokens).head?.bind Expr.select? =
          tokens.head?.bind Expr.select? := by
        cases tokens with
        | nil => rfl
        | cons token tokens => exact Expr.select?_token r token
      simp only [readImmediate, List.map_cons, hash, immediate, if_true, selector,
        ← List.map_tail, Expr.respects_read r tokens, Expr.respects_read r tokens.tail]
      cases tokens.head?.bind Expr.select? with
      | none => cases Expr.read tokens <;> rfl
      | some part => cases part <;> cases Expr.read tokens.tail <;> rfl
    · simp [readImmediate, hash, immediate]

theorem respects_readIndirect : Reader.Respects r readIndirect := by
  intro tokens
  simp only [readIndirect, Expr.skipKind?_tokens]
  cases Expr.skipKind? .leftParen tokens with
  | none => rfl
  | some inside =>
    simp only [Option.map_some, Option.bind_eq_bind, Option.bind_some, Expr.respects_read r inside]
    cases Expr.read inside with
    | none => rfl
    | some read =>
      obtain ⟨expr, rest⟩ := read
      have indexed : (skipIndex? "X" (r.tokens rest)).bind (Expr.skipKind? .rightParen) =
          ((skipIndex? "X" rest).bind (Expr.skipKind? .rightParen)).map r.tokens := by
        rw [skipIndex?_tokens]
        cases skipIndex? "X" rest with
        | none => rfl
        | some after => exact Expr.skipKind?_tokens r .rightParen after
      simp only [Option.map_some, Option.bind_some, Prod.map, id_eq, indexed]
      cases (skipIndex? "X" rest).bind (Expr.skipKind? .rightParen) with
      | some after => rfl
      | none =>
        simp only [Option.map_none, Expr.skipKind?_tokens]
        cases Expr.skipKind? .rightParen rest with
        | none => rfl
        | some after =>
          simp only [Option.map_some, Option.bind_some, skipIndex?_tokens]
          cases skipIndex? "Y" after <;> rfl

theorem respects_readPlain : Reader.Respects r readPlain := by
  intro tokens
  simp only [readPlain, Expr.respects_read r tokens]
  cases Expr.read tokens with
  | none => rfl
  | some read =>
    obtain ⟨expr, rest⟩ := read
    simp only [Option.map_some, Option.bind_eq_bind, Option.bind_some, Prod.map, skipIndex?_tokens]
    cases skipIndex? "X" rest with
    | some rest => rfl
    | none => cases skipIndex? "Y" rest <;> rfl

theorem respects_read : Reader.Respects r read := by
  intro tokens
  simp only [read, respects_readImmediate r tokens, respects_readIndirect r tokens,
    respects_readPlain r tokens]
  cases readImmediate tokens with
  | some operand => rfl
  | none => cases readIndirect tokens <;> rfl

theorem groups_tokens (depth : Nat) (tokens : List Token) :
    groups depth (r.tokens tokens) = (groups depth tokens).map r.tokens := by
  induction tokens generalizing depth with
  | nil => rfl
  | cons token tokens ih =>
    by_cases separates : token.kind = .comma ∧ depth = 0
    · simp [groups, separates, ih]
    · have inside : ¬ ((r.token token).kind = .comma ∧ depth = 0) := separates
      have after : depthAfter depth (r.token token) = depthAfter depth token := rfl
      simp only [groups, List.map_cons, if_neg inside, if_neg separates, after, ih]
      cases groups (depthAfter depth token) tokens <;> rfl

@[simp] theorem valueList_tokens (tokens : List Token) :
    valueList (r.tokens tokens) = valueList tokens := by
  cases tokens with
  | nil => rfl
  | cons token tokens =>
    simp only [valueList, List.isEmpty_map, groups_tokens, List.map_map]
    congr 2
    funext group
    exact Expr.parse?_tokens r group

end Operand

/-! ### Statements -/

/-- The operation, respelled. -/
def Operation.respelled : Operation → Operation
  | .instruction mnemonic operand unread => .instruction mnemonic operand (r.tokens unread)
  | .directive word operand => .directive word operand

namespace Statement

/-- The statement, respelled. -/
def respelled (statement : Statement) : Statement :=
  { statement with
    position := r.position statement.position
    operation := statement.operation.map (Operation.respelled r)
    operandTokens := r.tokens statement.operandTokens
    comment := statement.comment.map (r.lexeme .comment)
    tokens := r.tokens statement.tokens }

theorem splitComment_tokens (line : List Token) :
    splitComment (r.tokens line) =
      (r.tokens (splitComment line).1, (splitComment line).2.map (r.lexeme .comment)) := by
  unfold splitComment
  rw [List.getLast?_map]
  cases line.getLast? with
  | none => rfl
  | some last =>
    by_cases comment : last.kind = .comment
    · simp [comment, List.map_dropLast, Respelling.token]
    · simp [comment]

theorem skipColon_tokens (tokens : List Token) :
    skipColon (r.tokens tokens) = r.tokens (skipColon tokens) := by
  cases tokens with
  | nil => rfl
  | cons token tokens => by_cases colon : token.kind = .colon <;> simp [skipColon, colon]

theorem readLabel_tokens (tokens : List Token) :
    readLabel (r.tokens tokens) = ((readLabel tokens).1, r.tokens (readLabel tokens).2) := by
  cases tokens with
  | nil => rfl
  | cons token tokens =>
    by_cases label : token.kind = .label
    · simp [readLabel, label, skipColon_tokens, Respelling.token]
    · simp [readLabel, label]

theorem readOperation_tokens (tokens : List Token) :
    readOperation (r.tokens tokens) = (readOperation tokens).map (Operation.respelled r) := by
  cases tokens with
  | nil => rfl
  | cons token tokens =>
    have instruction (mnemonic : String) :
        instruction mnemonic (r.tokens tokens) = (instruction mnemonic tokens).respelled r := by
      unfold instruction
      rw [Operand.respects_read r]
      cases Operand.read tokens <;> rfl
    simp only [readOperation, List.map_cons, Respelling.kind_token, Respelling.upper_token]
    cases token.kind with
    | mnemonic | symbol => simp only [instruction, Option.map_some]
    | directive directive =>
      simp only [Expr.parse?_tokens, Option.map_some]
      rfl
    | _ => rfl

theorem afterOperation_tokens (body : List Token) :
    afterOperation (r.tokens body) = r.tokens (afterOperation body) := by
  simp only [afterOperation, List.map_drop, List.dropWhile_map]
  rfl

/-- A respelled line reads as the respelled statement. -/
theorem ofLine?_tokens (line : List Token) :
    ofLine? (r.tokens line) = (ofLine? line).map (respelled r) := by
  cases line with
  | nil => rfl
  | cons first line =>
    have body := splitComment_tokens r (first :: line)
    have label := readLabel_tokens r (splitComment (first :: line)).1
    have operation := readOperation_tokens r (readLabel (splitComment (first :: line)).1).2
    simp only [List.map_cons] at body
    simp only [ofLine?, List.map_cons, body, label, operation, Option.isNone_map,
      Option.isSome_map, afterOperation_tokens]
    split
    · rfl
    · split <;> rfl

/-- **A respelled text reads as the respelled statements.** -/
theorem ofTokens_respelled (tokens : List Token) :
    ofTokens (r.tokens tokens) = (ofTokens tokens).map (respelled r) := by
  have lines : (r.tokens tokens).splitOnP (·.kind.isEnd) =
      (tokens.splitOnP (·.kind.isEnd)).map r.tokens := splitOnP_map ..
  rw [ofTokens, lines, List.filterMap_map, ofTokens, List.map_filterMap]
  congr 1
  funext line
  exact ofLine?_tokens r line

/-! ### What does not depend on the spelling -/

section Respelled

variable (statement : Statement)

@[simp] theorem label_respelled : (statement.respelled r).label = statement.label := rfl

@[simp] theorem operation_respelled :
    (statement.respelled r).operation = statement.operation.map (Operation.respelled r) := rfl

@[simp] theorem operandTokens_respelled :
    (statement.respelled r).operandTokens = r.tokens statement.operandTokens := rfl

@[simp] theorem directive?_respelled :
    (statement.respelled r).directive? = statement.directive? := by
  simp only [directive?, operation_respelled]
  cases statement.operation with
  | none => rfl
  | some operation => cases operation <;> rfl

@[simp] theorem role_respelled : (statement.respelled r).role = statement.role := by
  simp only [role, operation_respelled]
  cases statement.operation with
  | none => rfl
  | some operation =>
    cases operation with
    | instruction mnemonic operand unread => rfl
    | directive directive operand => cases directive <;> rfl

@[simp] theorem equate?_respelled : (statement.respelled r).equate? = statement.equate? := by
  simp only [equate?, operation_respelled]
  cases statement.operation with
  | none => rfl
  | some operation => cases operation <;> rfl

@[simp] theorem locationLabel?_respelled :
    (statement.respelled r).locationLabel? = statement.locationLabel? := by
  simp only [locationLabel?, directive?_respelled, label_respelled]

theorem upper_operandText_respelled :
    Text.upper (statement.respelled r).operandText = Text.upper statement.operandText :=
  r.upper_joined statement.operandTokens

@[simp] theorem string?_respelled : (statement.respelled r).string? = statement.string? := by
  have found : (r.tokens statement.operandTokens).find? (·.kind == .string) =
      (statement.operandTokens.find? (·.kind == .string)).map r.token := List.find?_map ..
  rw [string?, operandTokens_respelled, found, string?]
  cases first : statement.operandTokens.find? (·.kind == .string) with
  | none => rfl
  | some token =>
    have kind : token.kind = .string := by simpa using List.find?_some first
    simp [Respelling.token, kind]

end Respelled

end Statement

/-! ### Effects -/

/-- The cause without its details. -/
def Cause.summary (cause : Cause) : Severity × DiagnosticKind := (cause.severity, cause.kind)

/-- What is wrong with hexadecimal digits is of the same kind in either letter case. -/
theorem Hex.summary_problem?_upper (text : String) :
    (Hex.problem? (Text.upper text)).map Cause.summary = (Hex.problem? text).map Cause.summary := by
  have bad : (Text.upper text).toList.find? (fun c => (Text.digit? c).isNone) =
      (text.toList.find? fun c => (Text.digit? c).isNone).map Char.toUpper := by
    rw [Text.toList_upper, List.find?_map]
    simp only [Function.comp_def, Text.digit?_toUpper]
  rw [Hex.problem?, bad, Hex.digits_upper, Hex.problem?]
  cases text.toList.find? fun c => (Text.digit? c).isNone with
  | some c => rfl
  | none =>
    simp only [Option.map_none]
    split <;> rfl

namespace Effect

/-- The effects are the same but for the entry of the listing and the details of problems. -/
structure Agrees (first second : Effect) : Prop where
  rest : second = { first with entry := second.entry, problems := second.problems }
  problems : second.problems.map Cause.summary = first.problems.map Cause.summary

theorem Agrees.refl (effect : Effect) : effect.Agrees effect := ⟨rfl, rfl⟩

theorem switch?_upper (text : String) : switch? (Text.upper text) = switch? text := by
  simp only [switch?, Text.isEmpty_upper, Text.upper_upper]

variable (statement : Statement)

theorem upper_hexText_respelled :
    Text.upper (hexText (statement.respelled r)) = Text.upper (hexText statement) := by
  have kept : (r.tokens statement.operandTokens).filter (·.kind != .comma) =
      r.tokens (statement.operandTokens.filter (·.kind != .comma)) :=
    List.filter_map ..
  rw [hexText, Statement.operandTokens_respelled, kept, r.upper_joined, hexText]

/-- Texts that differ in letter case only are the same names. -/
theorem names_eq (texts : List String) :
    (texts.filter (!·.isEmpty)).map Name.ofText =
      ((texts.map Text.upper).filter (!·.isEmpty)).map Name.mk := by
  rw [List.filter_map, List.map_map]
  simp only [Function.comp_def, Text.isEmpty_upper]
  rfl

@[simp] theorem nameList_respelled : nameList (statement.respelled r) = nameList statement := by
  have groups : (r.tokens statement.operandTokens).splitOnP (·.kind == .comma) =
      (statement.operandTokens.splitOnP (·.kind == .comma)).map r.tokens := splitOnP_map ..
  simp only [nameList, Statement.operandTokens_respelled, groups, names_eq, List.map_map,
    Function.comp_def, ← Text.trimmed_upper, ← Text.unquote_upper, r.upper_joined]

/-- **The effect of a statement does not depend on its spelling**, but for the texts that it shows
in the listing and in messages. -/
theorem ofStatement_respelled (env : Env) (decided : Option Layout) :
    (ofStatement env decided statement).Agrees
      (ofStatement env decided (statement.respelled r)) := by
  simp only [ofStatement, Statement.operation_respelled]
  cases statement.operation with
  | none => exact .refl _
  | some operation =>
    cases operation with
    | instruction mnemonic operand unread =>
      simp only [Option.map_some, Operation.respelled, instruction, List.isEmpty_map]
      cases Opcode.find? mnemonic with
      | none => exact .refl _
      | some opcode =>
        simp only
        split
        · exact ⟨rfl, rfl⟩
        · exact .refl _
    | directive word operand =>
      simp only [Option.map_some, Operation.respelled]
      cases word with
      | values shape =>
        simp only [Effect.directive, values, Statement.operandTokens_respelled,
          Operand.valueList_tokens]
        refine ⟨rfl, ?_⟩
        split
        · rfl
        · rw [List.map_flatMap, List.map_flatMap]
          congr 1
          funext item
          cases item <;> rfl
      | string style =>
        simp only [Effect.directive, string, Statement.string?_respelled]
        exact .refl _
      | hex =>
        have text := upper_hexText_respelled r statement
        simp only [Effect.directive, hex, Text.eq_of_upper Text.isEmpty_upper text,
          Text.eq_of_upper Hex.bytes_upper text]
        split
        · exact .refl _
        · refine ⟨rfl, ?_⟩
          have problem : (Hex.problem? (hexText (statement.respelled r))).map Cause.summary =
              (Hex.problem? (hexText statement)).map Cause.summary :=
            Text.eq_of_upper (f := fun text => (Hex.problem? text).map Cause.summary)
              Hex.summary_problem?_upper text
          rw [← Option.toList_map, ← Option.toList_map, problem]
      | msb =>
        have switched := Text.eq_of_upper switch?_upper (statement.upper_operandText_respelled r)
        simp only [Effect.directive, setMsb, switched]
        exact .refl _
      | externals | entries =>
        simp only [Effect.directive, nameList_respelled]
        exact .refl _
      | listing control =>
        simp only [Effect.directive, listing]
        split
        · exact .refl _
        · exact ⟨rfl, rfl⟩
      | fail => exact ⟨rfl, rfl⟩
      | _ => exact .refl _

end Effect

end Asm6502
