import Asm6502.Proofs.HandWritten
import Asm6502.Proofs.Lexemes
import Asm6502.Proofs.Lockstep
import Asm6502.Proofs.Lookup
import Asm6502.Proofs.Respelling

/-!
# Letter case

The source language does not tell capital letters from small ones. Texts that differ in letter case,
but not in their quoted strings (`SameButCase`), have tokens of the same kinds at the same places,
since the scanner does not see the letter case (`Scan.tokens_upper`). So they have the same
statements once all letters are capitals (`folding`), and a step of a pass takes either spelling of
a statement to the same state (`step_folded`). The two runs then go side by side to the same program
and to diagnostics of the same kinds at the same places (`run_folded`).
-/

namespace Asm6502

/-- The line in upper case. -/
def SourceLine.upper (line : SourceLine) : SourceLine := { line with text := Text.upper line.text }

/-- The token in upper case. -/
def Token.upper (token : Token) : Token := { token with lexeme := Text.upper token.lexeme }

namespace Source

theorem splitOn_map_toUpper (cs : List Char) :
    (cs.map Char.toUpper).splitOn '\n' = (cs.splitOn '\n').map (List.map Char.toUpper) := by
  have ends : (· == '\n') ∘ Char.toUpper = (· == '\n') :=
    funext fun c => Text.toUpper_beq c (by decide)
  rw [List.splitOn, splitOnP_map, ends, List.splitOn]

theorem lineTexts_map_toUpper (cs : List Char) :
    lineTexts (cs.map Char.toUpper) = (lineTexts cs).map (List.map Char.toUpper) := by
  have returns (cs : List Char) :
      dropReturn (cs.map Char.toUpper) = (dropReturn cs).map Char.toUpper :=
    Text.dropClosing_map_toUpper (by decide) cs
  simp only [lineTexts, splitOn_map_toUpper, List.map_append, ← List.map_dropLast, List.map_map,
    Function.comp_def, returns, List.getLast?_map]
  cases (cs.splitOn '\n').getLast? with
  | none => rfl
  | some last => cases last <;> rfl

/-- The lines of a text in upper case are its lines in upper case. -/
theorem lines_upper (source : String) :
    lines (Text.upper source) = (lines source).map SourceLine.upper := by
  rw [lines, Text.toList_upper, lineTexts_map_toUpper, lines, number, List.zipIdx_map, number,
    List.map_map, List.map_map]
  simp [Function.comp_def, SourceLine.upper, Text.upper]

end Source

namespace Scan

/-! ### Scanning a text in upper case -/

@[simp] theorem isWordStart_toUpper (c : Char) : isWordStart c.toUpper = isWordStart c :=
  Text.eq_of_toUpper (by decide) c

@[simp] theorem isWordPart_toUpper (c : Char) : isWordPart c.toUpper = isWordPart c :=
  Text.eq_of_toUpper (by decide) c

@[simp] theorem isOperatorChar_toUpper (c : Char) : isOperatorChar c.toUpper = isOperatorChar c :=
  Text.eq_of_toUpper (by decide) c

theorem runLength_map_toUpper {p : Char → Bool} (blind : ∀ c, p c.toUpper = p c)
    (cs : List Char) : runLength p (cs.map Char.toUpper) = runLength p cs := by
  rw [runLength, Text.takeWhile_map_toUpper blind, List.length_map, runLength]

theorem digitsAfter?_map_toUpper (lead radix : Nat) (cs : List Char) :
    digitsAfter? lead radix (cs.map Char.toUpper) = digitsAfter? lead radix cs := by
  rw [digitsAfter?, runLength_map_toUpper (Text.isDigitIn_toUpper radix), digitsAfter?]

theorem numberLength?_map_toUpper (cs : List Char) :
    numberLength? (cs.map Char.toUpper) = numberLength? cs := by
  fun_cases numberLength? cs with
  | case4 c cs prefixed =>
    have hex : (c.toUpper == 'x' || c.toUpper == 'X') = (c == 'x' || c == 'X') :=
      Text.eq_of_toUpper (f := fun c => c == 'x' || c == 'X') (by decide) c
    have binary : (c.toUpper == 'b' || c.toUpper == 'B') = (c == 'b' || c == 'B') :=
      Text.eq_of_toUpper (f := fun c => c == 'b' || c == 'B') (by decide) c
    have decimal : digitsAfter? 0 10 ('0' :: c.toUpper :: cs.map Char.toUpper) =
        digitsAfter? 0 10 ('0' :: c :: cs) := digitsAfter?_map_toUpper 0 10 ('0' :: c :: cs)
    show numberLength? ('0' :: c.toUpper :: cs.map Char.toUpper) = _
    simp only [numberLength?, hex, binary, decimal, digitsAfter?_map_toUpper, prefixed]
  | case5 _ noDollar noPercent noAt noZero =>
    have noZero' (c : Char) (tail : List Char) (starts : cs.map Char.toUpper = '0' :: c :: tail) :
        False := by
      obtain ⟨zero, rest, rfl, head, below⟩ := List.map_eq_cons_iff.mp starts
      obtain ⟨d, rest, rfl, -, -⟩ := List.map_eq_cons_iff.mp below
      exact noZero d rest (by rw [(Text.toUpper_eq_iff (by decide)).mp head])
    rw [numberLength?.eq_5 _ (Text.not_starts_map_toUpper (by decide) noDollar)
      (Text.not_starts_map_toUpper (by decide) noPercent)
      (Text.not_starts_map_toUpper (by decide) noAt) noZero', digitsAfter?_map_toUpper]
  | _ => exact digitsAfter?_map_toUpper ..

theorem quotedLength_map_toUpper {quote : Char} (plain : quote.isAlpha = false) (cs : List Char) :
    quotedLength quote (cs.map Char.toUpper) = quotedLength quote cs := by
  have inside (c : Char) : (c.toUpper != quote) = (c != quote) := by
    rw [bne, Text.toUpper_beq c plain, bne]
  have length : runLength (· != quote) (cs.map Char.toUpper) = runLength (· != quote) cs :=
    runLength_map_toUpper inside cs
  simp only [quotedLength, length, List.length_map]

/-- The longest token at the start of a text is found in either letter case. -/
theorem longest?_map_toUpper (cs : List Char) : longest? (cs.map Char.toUpper) = longest? cs := by
  cases cs with
  | nil => rfl
  | cons c cs =>
    have arrows : ((cs.map Char.toUpper).take 2 == ['>', '>']) = (cs.take 2 == ['>', '>']) := by
      rw [← List.map_take, Bool.eq_iff_iff, beq_iff_eq, beq_iff_eq,
        Text.map_toUpper_eq_iff (by decide)]
    have number : numberLength? (c.toUpper :: cs.map Char.toUpper) = numberLength? (c :: cs) :=
      numberLength?_map_toUpper (c :: cs)
    have quoted (quote : (c == Text.doubleQuote || c == Text.singleQuote) = true) :
        quotedLength c.toUpper (cs.map Char.toUpper) = quotedLength c cs := by
      rw [Bool.or_eq_true, beq_iff_eq, beq_iff_eq] at quote
      have same : c.toUpper = c ∧ c.isAlpha = false := by rcases quote with rfl | rfl <;> decide
      rw [same.1, quotedLength_map_toUpper same.2]
    simp (disch := decide) only [List.map_cons, longest?, isWordStart_toUpper,
      runLength_map_toUpper isWordPart_toUpper, Text.toUpper_beq, arrows, List.length_map,
      isOperatorChar_toUpper, number]
    by_cases quote : (c == Text.doubleQuote || c == Text.singleQuote) = true
    · rw [quoted quote]
    · simp only [if_neg quote]

/-- The piece in upper case. -/
def Piece.upper (piece : Piece) : Piece := { piece with text := piece.text.map Char.toUpper }

theorem pieces_map_toUpper (skip start : Nat) (cs : List Char) :
    pieces skip start (cs.map Char.toUpper) = (pieces skip start cs).map Piece.upper := by
  induction cs generalizing skip start with
  | nil => cases skip <;> rfl
  | cons c cs ih =>
    cases skip with
    | succ skip => exact ih skip (start + 1)
    | zero =>
      have longest := longest?_map_toUpper (c :: cs)
      rw [List.map_cons] at longest ⊢
      rw [pieces, longest, pieces]
      cases longest? (c :: cs) with
      | none => exact ih 0 (start + 1)
      | some found =>
        simp only [ih, ← List.map_take, ← List.map_cons]
        rfl

theorem lexeme_upper (piece : Piece) : piece.upper.lexeme = Text.upper piece.lexeme := by
  simp [Piece.lexeme, Piece.upper, Text.upper]

/-- A word is the same keyword in either letter case. -/
theorem ofKeyword?_upper (word : String) :
    TokenKind.ofKeyword? (Text.upper word) = TokenKind.ofKeyword? word := by
  simp only [TokenKind.ofKeyword?, Opcode.find?_upper, Directive.ofKeyword?, Text.upper_upper]

@[simp] theorem kind_upper (piece : Piece) : piece.upper.kind = piece.kind := by
  rw [Piece.kind, lexeme_upper, ofKeyword?_upper, Piece.kind]
  rfl

theorem firstKind_upper (piece : Piece) (rest : List Piece) :
    firstKind piece.upper (rest.map Piece.upper) = firstKind piece rest := by
  have next : (rest.map Piece.upper).find? (·.pattern == .word) =
      (rest.find? (·.pattern == .word)).map Piece.upper := List.find?_map ..
  rw [firstKind, next, Option.any_map, firstKind]
  simp only [kind_upper]
  rfl

/-- The tokens of a line in upper case are its tokens in upper case. -/
theorem contents_map_toUpper (number : Nat) (cs : List Char) :
    contents number (cs.map Char.toUpper) = (contents number cs).map Token.upper := by
  fun_cases contents number cs with
  | case1 rest =>
    have text : Text.upper (String.ofList ('*' :: rest)) =
        String.ofList ('*' :: rest.map Char.toUpper) := by simp [Text.upper]
    simp only [List.map_cons, List.map_nil, Token.upper, text]
    rfl
  | case2 _ none noStar =>
    rw [contents.eq_2 _ _ (Text.not_starts_map_toUpper (by decide) noStar), pieces_map_toUpper,
      none]
    rfl
  | case3 _ first rest found noStar =>
    rw [contents.eq_2 _ _ (Text.not_starts_map_toUpper (by decide) noStar), pieces_map_toUpper,
      found]
    simp only [List.map_cons, List.map_map, firstKind_upper, Function.comp_def, Token.upper,
      Piece.token, lexeme_upper, kind_upper]
    rfl

theorem lineTokens_upper (line : SourceLine) :
    lineTokens line.upper = (lineTokens line).map Token.upper := by
  rw [lineTokens, SourceLine.upper, Text.toList_upper, contents_map_toUpper, Text.length_upper,
    lineTokens, List.map_append]
  rfl

/-- **The tokens of a text in upper case are its tokens in upper case.** -/
theorem tokens_upper (source : String) :
    tokens (Text.upper source) = (tokens source).map Token.upper := by
  have last : endOf ((Source.lines source).map SourceLine.upper) = endOf (Source.lines source) := by
    rw [endOf, List.getLast?_map, Option.map_map]
    rfl
  rw [tokens, Source.lines_upper, tokensOfLines, last, List.flatMap_map, tokens, tokensOfLines,
    List.map_append, List.map_flatMap]
  simp only [lineTokens_upper]
  rfl

end Scan

/-! ### Texts that differ in letter case -/

/-- The characters of a text from a place on. -/
def Source.excerpt (source : String) (position : Position) (length : Nat) : List Char :=
  (((lineTexts source.toList)[position.line - 1]?.getD []).drop (position.column - 1)).take length

/-- The texts differ in nothing but the letter case outside the quoted strings of the first one. -/
structure SameButCase (source other : String) : Prop where
  upper : Text.upper source = Text.upper other
  quoted : ∀ token ∈ Scan.tokens source, token.kind = .string →
    Source.excerpt other token.position token.lexeme.length = token.lexeme.toList

/-- Letters are put into upper case, and strings are kept. -/
def folding : Respelling where
  position := id
  lexeme kind text := if kind = .string then text else Text.upper text
  upper_lexeme kind text := by
    split
    · rfl
    · exact Text.upper_upper text
  lexeme_string _ := if_pos rfl

/-- A token has the characters that stand at its place. -/
theorem Scan.excerpt_of_mem {source : String} {token : Token} (mem : token ∈ tokens source)
    (inner : token.kind.isEnd = false) :
    Source.excerpt source token.position token.lexeme.length = token.lexeme.toList := by
  obtain ⟨line, listed, mem⟩ := (mem_tokens_iff inner).mp mem
  obtain ⟨-, number, -, stands⟩ := standsOn_contents mem
  obtain ⟨⟨i, same, found⟩, -⟩ := Source.lineAt_of_mem listed
  rw [Source.excerpt, number, same, Nat.add_sub_cancel, found, Option.getD_some,
    ← String.length_toList]
  exact (List.prefix_iff_eq_take.mp stands.starts).symm

/-- Lists that agree item by item under one map do so under a coarser one. -/
theorem map_eq_map_of_imp {α β γ : Type} {f : α → β} {g : α → γ} {first second : List α}
    (same : first.map f = second.map f)
    (imp : ∀ item ∈ first, ∀ item' ∈ second, f item = f item' → g item = g item') :
    first.map g = second.map g := by
  induction first generalizing second with
  | nil => rw [List.map_eq_nil_iff.mp same.symm]
  | cons item first ih =>
    obtain ⟨item', second, rfl, here, rest⟩ := List.map_eq_cons_iff.mp same.symm
    rw [List.map_cons, List.map_cons, imp item (by simp) item' (by simp) here.symm]
    refine congrArg _ (ih rest.symm fun item mem item' mem' => ?_)
    exact imp item (by simp [mem]) item' (by simp [mem'])

namespace SameButCase

variable {source other : String}

theorem token_eq (same : SameButCase source other) {token token' : Token}
    (mem : token ∈ Scan.tokens source) (mem' : token' ∈ Scan.tokens other)
    (upper : token.upper = token'.upper) : folding.token token = folding.token token' := by
  simp only [Token.upper, Token.mk.injEq] at upper
  obtain ⟨kind, lexeme, position⟩ := upper
  have kept : folding.lexeme token.kind token.lexeme =
      folding.lexeme token'.kind token'.lexeme := by
    by_cases string : token.kind = .string
    · have length : token.lexeme.length = token'.lexeme.length := by
        rw [← Text.length_upper, lexeme, Text.length_upper]
      have here := Scan.excerpt_of_mem mem' (by rw [← kind, string]; rfl)
      rw [← position, ← length, same.quoted token mem string] at here
      rw [kind, String.toList_inj.mp here]
    · simp only [folding, if_neg string, ← kind, lexeme]
  rw [Respelling.token, Respelling.token, kept, kind, position]

/-- The texts have the same tokens, with letters put into upper case. -/
theorem tokens_eq (same : SameButCase source other) :
    folding.tokens (Scan.tokens source) = folding.tokens (Scan.tokens other) := by
  have upper : (Scan.tokens source).map Token.upper = (Scan.tokens other).map Token.upper := by
    rw [← Scan.tokens_upper, ← Scan.tokens_upper, same.upper]
  exact map_eq_map_of_imp upper fun token mem token' mem' => same.token_eq mem mem'

/-- The texts have the same statements, with letters put into upper case. -/
theorem statements_eq (same : SameButCase source other) :
    (Statement.ofSource source).map (Statement.respelled folding) =
      (Statement.ofSource other).map (Statement.respelled folding) := by
  rw [Statement.ofSource, Statement.ofSource, ← Statement.ofTokens_respelled,
    ← Statement.ofTokens_respelled, same.tokens_eq]

/-- Neither text includes a file if the first does not. -/
theorem not_includes (same : SameButCase source other)
    (alone : ∀ statement ∈ Statement.ofSource source, statement.directive? ≠ some .includeFile) :
    ∀ statement ∈ Statement.ofSource other, statement.directive? ≠ some .includeFile := by
  intro statement mem
  have listed : statement.respelled folding ∈
      (Statement.ofSource source).map (Statement.respelled folding) := by
    rw [same.statements_eq]
    exact List.mem_map_of_mem mem
  obtain ⟨statement', mem', folded⟩ := List.mem_map.mp listed
  rw [← statement.directive?_respelled folding, ← folded, Statement.directive?_respelled]
  exact alone statement' mem'

end SameButCase

/-! ### Macro definitions -/

namespace Macro

theorem uncommented_map_toUpper (line : List Char) :
    uncommented (line.map Char.toUpper) = (uncommented line).map Char.toUpper := by
  refine Text.takeWhile_map_toUpper (fun c => ?_) line
  rw [bne, Text.toUpper_beq c (by decide), bne]

theorem nextWord?_map_toUpper (cs : List Char) :
    Text.nextWord? (cs.map Char.toUpper) =
      (Text.nextWord? cs).map (Prod.map (List.map Char.toUpper) (List.map Char.toUpper)) := by
  rw [Text.nextWord?, Text.trimStart_map_toUpper, Text.nextWord?]
  cases Text.trimStart cs with
  | nil => rfl
  | cons c rest =>
    have blind (c : Char) : (!Text.isBlank c.toUpper) = !Text.isBlank c := by simp
    simp only [List.map_cons, Option.map_some, List.span_eq_takeWhile_dropWhile, Prod.map]
    rw [← List.map_cons, Text.takeWhile_map_toUpper blind, Text.dropWhile_map_toUpper blind]

theorem upperWord_map_toUpper (word : List Char) :
    Text.upperWord (word.map Char.toUpper) = Text.upperWord word := by
  simp [Text.upperWord, Function.comp_def]

/-- A line opens a definition in either letter case. -/
theorem opens?_map_toUpper (line : List Char) : opens? (line.map Char.toUpper) = opens? line := by
  have first : startsInColumnOne (line.map Char.toUpper) = startsInColumnOne line := by
    cases line <;> simp [startsInColumnOne]
  have comment : isCommentLine (line.map Char.toUpper) = isCommentLine line := by
    cases line with
    | nil => rfl
    | cons c line => simp [isCommentLine, Text.toUpper_eq_iff]
  rw [opens?, first, comment, uncommented_map_toUpper, nextWord?_map_toUpper, opens?]
  split
  · rfl
  · cases Text.nextWord? (uncommented line) with
    | none => rfl
    | some word =>
      obtain ⟨name, rest⟩ := word
      simp only [Option.map_some, Prod.map, Option.bind_eq_bind, Option.bind_some, Text.firstWord?,
        nextWord?_map_toUpper, Option.map_map]
      cases Text.nextWord? rest with
      | none => rfl
      | some word => simp [upperWord_map_toUpper]

/-- Texts that differ in letter case define macros in the same lines. -/
theorem not_opens_of_upper {source other : String} (upper : Text.upper source = Text.upper other)
    (plain : ∀ line ∈ Source.lines source, opens? line.text.toList = none) :
    ∀ line ∈ Source.lines other, opens? line.text.toList = none := by
  intro line mem
  have listed : line.upper ∈ (Source.lines source).map SourceLine.upper := by
    rw [← Source.lines_upper, upper, Source.lines_upper]
    exact List.mem_map_of_mem mem
  obtain ⟨line', mem', same⟩ := List.mem_map.mp listed
  have texts : Text.upper line'.text = Text.upper line.text := congrArg SourceLine.text same
  rw [← opens?_map_toUpper, ← Text.toList_upper, ← texts, Text.toList_upper, opens?_map_toUpper,
    plain line' mem']

end Macro

/-! ### Steps -/

/-- The diagnostic without the details of its cause. -/
def Diagnostic.summary (diagnostic : Diagnostic) : Severity × DiagnosticKind × Option Position :=
  (diagnostic.severity, diagnostic.kind, diagnostic.position)

namespace Assembly

/-- The report without the listing and the details of diagnostics. -/
def Report.summary (report : Report) : Option Layout × List UInt8 × List Relocation ×
    List (Severity × DiagnosticKind × Option Position) :=
  (report.layout, report.bytes, report.relocations, report.diagnostics.map Diagnostic.summary)

variable (options : Options) (pass : Pass) (state : State) (statement : Statement)
  (decided : Option Layout)

theorem effectOf_folded :
    (effectOf options pass state statement decided).Agrees
      (effectOf options pass state (statement.respelled folding) decided) := by
  have seen : state.seen (statement.respelled folding) = state.seen statement := by
    rw [State.seen, State.seen, labelBinding_eq, labelBinding_eq,
      Statement.locationLabel?_respelled]
    rfl
  rw [effectOf, effectOf, seen]
  exact Effect.ofStatement_respelled folding statement _ decided

/-- Causes without their details are reported as diagnostics without details. -/
theorem found_folded {causes causes' : List Cause}
    (same : causes'.map Cause.summary = causes.map Cause.summary) :
    (found pass (statement.respelled folding) causes').map Diagnostic.summary =
      (found pass statement causes).map Diagnostic.summary := by
  cases pass with
  | one => rfl
  | two =>
    have placed := congrArg
      (List.map fun summary => (summary.1, summary.2, some statement.position)) same
    rw [List.map_map, List.map_map] at placed
    rw [found, List.map_map, found, List.map_map]
    exact placed

theorem assembled_folded :
    (assembled options pass state (statement.respelled folding) decided).1 =
        (assembled options pass state statement decided).1 ∧
      (assembled options pass state (statement.respelled folding) decided).2.summary =
        (assembled options pass state statement decided).2.summary := by
  obtain ⟨rest, problems⟩ := effectOf_folded options pass state statement decided
  have given : state.given pass (statement.respelled folding) = state.given pass statement := by
    simp only [State.given, Statement.equate?_respelled, labelBinding_eq,
      Statement.locationLabel?_respelled]
  have layout := congrArg Effect.layout rest
  have bytes := congrArg Effect.bytes rest
  have fixups := congrArg Effect.fixups rest
  rw [assembled_eq, assembled_eq, given]
  constructor
  · rw [rest]
    rfl
  · simp only [Report.summary, layout, bytes, fixups, List.map_append,
      found_folded pass statement problems]
    rfl

/-- **A step does not depend on the letter case**, but for the texts that it shows. -/
theorem step_folded :
    (step options pass state (statement.respelled folding, decided)).1 =
        (step options pass state (statement, decided)).1 ∧
      (step options pass state (statement.respelled folding, decided)).2.summary =
        (step options pass state (statement, decided)).2.summary := by
  rw [step_eq, step_eq, Statement.role_respelled]
  cases statement.role with
  | opens test operand => exact ⟨rfl, rfl⟩
  | turns => exact ⟨rfl, rfl⟩
  | closes => exact ⟨rfl, rfl⟩
  | plain =>
    simp only
    split
    · exact assembled_folded options pass state statement decided
    · exact ⟨rfl, rfl⟩

/-! ### Runs -/

/-- Runs of statements that differ in letter case go through the same states, and report the same
but for the texts that they show. -/
theorem lockstep_folded : Lockstep options options Eq
    (fun statement statement' => statement.respelled folding = statement'.respelled folding)
    fun _ report report' => report.summary = report'.summary where
  start := rfl
  restart := by
    rintro first second rfl
    rfl
  step := by
    rintro pass state _ statement statement' decided rfl same
    obtain ⟨next, report⟩ := step_folded options pass state statement decided
    obtain ⟨next', report'⟩ := step_folded options pass state statement' decided
    rw [← same] at next' report'
    exact ⟨next.symm.trans next', report.symm.trans report'⟩
  layout same := congrArg Prod.fst same

variable {statements statements' : List Statement}

/-- **Statements that differ in letter case assemble to the same program.** -/
theorem run_folded (same : statements.map (Statement.respelled folding) =
      statements'.map (Statement.respelled folding)) :
    (run options statements).SameProgram (run options statements') ∧
      (run options statements).diagnostics.map Diagnostic.summary =
        (run options statements').diagnostics.map Diagnostic.summary := by
  have lock := lockstep_folded options
  have pairs := Lockstep.pairs_of_map_eq same
  have states := lock.outcome pairs .two
  have diagnostics (pass : Pass) :
      ((outcome options statements pass).2.flatMap (·.diagnostics)).map Diagnostic.summary =
        ((outcome options statements' pass).2.flatMap (·.diagnostics)).map Diagnostic.summary := by
    rw [List.map_flatMap, List.map_flatMap]
    exact lock.flatMap_reports pairs (fun same => congrArg (·.2.2.2) same) pass
  constructor
  · exact sameProgram_of_outcomes states
      (lock.flatMap_reports pairs (fun same => congrArg (·.2.1) same) .two)
      (lock.flatMap_reports pairs (fun same => congrArg (·.2.2.1) same) .two)
  · simp only [diagnostics_run, List.map_append, diagnostics, states]

end Assembly

/-- A text without macro definitions and include statements assembles to what its statements
assemble to. -/
theorem assemble_of_plain {source : String}
    (plain : ∀ line ∈ Source.lines source, Macro.opens? line.text.toList = none)
    (alone : ∀ statement ∈ Statement.ofSource source, statement.directive? ≠ some .includeFile)
    (options : Options) (setting : Setting) :
    assemble options setting source = Assembly.run options (Statement.ofSource source) := by
  have statements : Statement.ofLines (Source.lines source) = Statement.ofSource source := rfl
  simp only [assemble, Macro.expand_of_not_opens plain, statements,
    Include.expand_of_ne _ _ _ alone, List.nil_append]

/-- **The source language ignores letter case.** Two texts without macro definitions and include
statements that differ in nothing but the letter case outside quoted strings assemble to the same
bytes, symbols, relocations, external and entry names, and to diagnostics that are the same in
number, order, severity, kind and position. -/
theorem assemble_of_sameButCase (options : Options) (setting : Setting) (source other : String)
    (same : SameButCase source other)
    (plain : ∀ line ∈ Source.lines source, Macro.opens? line.text.toList = none)
    (alone : ∀ statement ∈ Statement.ofSource source, statement.directive? ≠ some .includeFile) :
    let first := assemble options setting source
    let second := assemble options setting other
    first.SameProgram second ∧
      first.diagnostics.map Diagnostic.summary = second.diagnostics.map Diagnostic.summary := by
  rw [assemble_of_plain plain alone,
    assemble_of_plain (Macro.not_opens_of_upper same.upper plain) (same.not_includes alone)]
  exact Assembly.run_folded options same.statements_eq

/-- A program in small letters, with a capital in a string and a name that is not defined:

  ptr   equ $3a
  start lda #$fe ; first
        sta (ptr),y
        asc "Hi"
        hex ab
        jmp nowhere
-/
def smallLetters : String :=
  "ptr equ $3a\nstart lda #$fe ; first\n sta (ptr),y\n asc \"Hi\"\n hex ab\n jmp nowhere\n"

/-- The same program in other letters. -/
def otherLetters : String :=
  "PTR EQU $3A\nStart LDA #$fE ; First\n STA (Ptr),Y\n ASC \"Hi\"\n HEX aB\n JMP NoWhere\n"

/-- Both spellings assemble to the same bytes, and the missing name is reported for both. -/
theorem assemble_of_sameButCase_smallLetters :
    SameButCase smallLetters otherLetters ∧
      (∀ line ∈ Source.lines smallLetters, Macro.opens? line.text.toList = none) ∧
      (∀ statement ∈ Statement.ofSource smallLetters,
        statement.directive? ≠ some .includeFile) ∧
      (assemble {} {} smallLetters).SameProgram (assemble {} {} otherLetters) ∧
      (assemble {} {} otherLetters).bytes =
        [0xA9, 0xFE, 0x91, 0x3A, 0x48, 0x69, 0xAB, 0x4C, 0x00, 0x00] ∧
      (assemble {} {} otherLetters).diagnostics.map Diagnostic.summary =
        [(.error, .undefinedSymbol, some ⟨6, 2⟩)] := by
  have same : SameButCase smallLetters otherLetters := ⟨by decide +kernel, by decide +kernel⟩
  have plain : ∀ line ∈ Source.lines smallLetters, Macro.opens? line.text.toList = none := by
    decide +kernel
  have alone : ∀ statement ∈ Statement.ofSource smallLetters,
      statement.directive? ≠ some .includeFile := by decide +kernel
  obtain ⟨program, diagnostics⟩ :=
    assemble_of_sameButCase {} {} smallLetters otherLetters same plain alone
  refine ⟨same, plain, alone, program, ?_⟩
  rw [← program.bytes, ← diagnostics]
  decide +kernel

end Asm6502
