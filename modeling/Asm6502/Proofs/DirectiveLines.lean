import Asm6502.Proofs.LetterCase
import Asm6502.Proofs.Readback

/-!
# Lines with a directive

A line that holds blanks, the keyword of a directive, one more blank and an operand, and neither a
label nor a comment. The keyword scans as one word, so the tokens of the line are the keyword and
the pieces of the operand (`Scan.contents_directiveLine`), and they read as a statement with the
directive and nothing else. Such a line opens no macro definition, so that a text of such lines
assembles to what these statements assemble to (`DirectiveLines.assemble_eq`).
-/

namespace Asm6502

/-! ### From lines to statements -/

namespace Statement

theorem filterMap_splitOnP_lines (lines : List SourceLine) {last : Token}
    (ends : last.kind.isEnd = true) :
    ((lines.flatMap Scan.lineTokens ++ [last]).splitOnP (·.kind.isEnd)).filterMap ofLine? =
      lines.filterMap fun line => ofLine? (Scan.contents line.number line.text.toList) := by
  induction lines with
  | nil =>
    have empty : [last].splitOnP (·.kind.isEnd) = [[], []] := by
      simp [List.splitOnP_cons_eq_if_modifyHead, ends]
    rw [List.flatMap_nil, List.nil_append, empty]
    rfl
  | cons line lines ih =>
    have inner : ∀ token ∈ Scan.contents line.number line.text.toList,
        token.kind.isEnd = false := by
      intro token mem
      rcases Scan.contents_cases line.number line.text.toList with ⟨-, comment⟩ | ⟨-, inner⟩
      · rw [comment, List.mem_singleton] at mem
        rw [mem]
        rfl
      · exact inner token mem
    rw [List.flatMap_cons, Scan.lineTokens, List.append_assoc, List.append_assoc,
      List.singleton_append, List.splitOnP_append_cons_of_forall_mem inner _ rfl,
      List.filterMap_cons, List.filterMap_cons, ih]

/-- Statements are read line by line. -/
theorem ofLines_eq (lines : List SourceLine) :
    ofLines lines =
      lines.filterMap fun line => ofLine? (Scan.contents line.number line.text.toList) :=
  filterMap_splitOnP_lines lines rfl

end Statement

/-! ### The tokens of a line -/

namespace Source

/-- A line with a keyword and an operand, behind `indent` blanks. -/
def directiveLine (indent : Nat) (keyword : String) (operand : List Char) : String :=
  String.ofList (List.replicate indent ' ' ++ (keyword.toList ++ ' ' :: operand))

@[simp] theorem toList_directiveLine (indent : Nat) (keyword : String) (operand : List Char) :
    (directiveLine indent keyword operand).toList =
      List.replicate indent ' ' ++ (keyword.toList ++ ' ' :: operand) := by
  simp [directiveLine]

end Source

namespace Scan

/-- The characters are a word of letters, digits, underscores and points. -/
def isWord (cs : List Char) : Bool := cs.head?.any isWordStart && cs.all isWordPart

/-- A word that is a keyword of a directive. -/
structure IsKeyword (keyword : String) (directive : Directive) : Prop where
  word : isWord keyword.toList = true
  known : TokenKind.ofKeyword? keyword = some (.directive directive)

theorem exists_of_isWord {cs : List Char} (word : isWord cs = true) :
    ∃ c rest, cs = c :: rest ∧ isWordStart c = true ∧ ∀ c ∈ cs, isWordPart c = true := by
  cases cs with
  | nil => cases word
  | cons c rest =>
    simp only [isWord, List.head?_cons, Option.any_some, Bool.and_eq_true, List.all_eq_true] at word
    exact ⟨c, rest, rfl, word.1, word.2⟩

/-- No token starts at a blank. -/
theorem pieces_blanks (start indent : Nat) (cs : List Char) :
    pieces 0 start (List.replicate indent ' ' ++ cs) = pieces 0 (start + indent) cs := by
  induction indent generalizing start with
  | zero => rfl
  | succ indent ih =>
    have blank : pieces 0 start (' ' :: (List.replicate indent ' ' ++ cs)) =
        pieces 0 (start + 1) (List.replicate indent ' ' ++ cs) := rfl
    rw [List.replicate_succ, List.cons_append, blank, ih, Nat.add_assoc, Nat.add_comm 1]

variable {keyword : String} {directive : Directive}

/-- The first piece of the line is the keyword, and the others are those of the operand. -/
theorem pieces_directiveLine (word : isWord keyword.toList = true) (indent : Nat)
    (operand : List Char) :
    pieces 0 0 (Source.directiveLine indent keyword operand).toList =
      ⟨.word, keyword.toList, indent⟩ ::
        pieces 0 (indent + keyword.toList.length + 1) operand := by
  obtain ⟨c, rest, same, start, parts⟩ := exists_of_isWord word
  rw [same, List.forall_mem_cons] at parts
  have stop : ∀ c ∈ (' ' :: operand).head?, isWordPart c = false := by
    intro c mem
    cases mem
    rfl
  have found := longest?_word_of_stop start parts.2 stop
  rw [← same] at found
  have blank (start : Nat) : pieces 0 start (' ' :: operand) = pieces 0 (start + 1) operand := rfl
  rw [Source.toList_directiveLine, pieces_blanks, Nat.zero_add,
    pieces_of_longest? indent (by simp [same]) found, blank]

theorem kind_of_isKeyword (isKeyword : IsKeyword keyword directive) (start : Nat) :
    Piece.kind ⟨.word, keyword.toList, start⟩ = .directive directive := by
  simp [Piece.kind, Piece.lexeme, isKeyword.known]

/-- The tokens of a line with a directive. A keyword in column one is a label if a keyword follows
on the line; here no word follows, or the keyword is not in column one. -/
theorem contents_directiveLine (isKeyword : IsKeyword keyword directive) (number : Nat)
    {indent : Nat} {operand : List Char}
    (alone : indent = 0 → ∀ piece ∈ pieces 0 (indent + keyword.toList.length + 1) operand,
      piece.pattern ≠ .word) :
    contents number (Source.directiveLine indent keyword operand).toList =
      ⟨.directive directive, keyword, ⟨number, indent + 1⟩⟩ ::
        (pieces 0 (indent + keyword.toList.length + 1) operand).map fun piece =>
          piece.token number piece.kind := by
  have cut := pieces_directiveLine isKeyword.word indent operand
  have kind := kind_of_isKeyword isKeyword indent
  have first : firstKind ⟨.word, keyword.toList, indent⟩
      (pieces 0 (indent + keyword.toList.length + 1) operand) = .directive directive := by
    unfold firstKind
    split
    · rename_i column
      have next : (pieces 0 (indent + keyword.toList.length + 1) operand).find?
          (·.pattern == .word) = none := by
        apply List.find?_eq_none.mpr
        intro piece mem
        simpa using alone column.1 piece mem
      simp [next, kind, TokenKind.isKeyword]
    · exact kind
  rw [contents, cut]
  · simp only [first, Piece.token, Piece.lexeme, String.ofList_toList]
  · -- neither a blank nor a letter is an asterisk
    intro rest star
    obtain ⟨c, parts, same, start, -⟩ := exists_of_isWord isKeyword.word
    rw [Source.toList_directiveLine, same] at star
    cases indent with
    | zero =>
      obtain rfl : c = '*' := by simpa using congrArg List.head? star
      exact absurd start (by decide)
    | succ indent => simp [List.replicate_succ] at star

end Scan

/-! ### The statement of a line -/

namespace Statement

/-- The statement of a keyword and the tokens after it. -/
def ofDirective (keyword : Token) (directive : Directive) (operand : List Token) : Statement :=
  { position := keyword.position
    operation := some (.directive directive (Expr.parse? operand))
    operandTokens := operand
    tokens := keyword :: operand }

theorem ofLine?_directive {keyword : Token} {directive : Directive} {operand : List Token}
    (kind : keyword.kind = .directive directive)
    (uncommented : ∀ token ∈ operand, token.kind ≠ .comment) :
    ofLine? (keyword :: operand) = some (ofDirective keyword directive operand) := by
  have body : ∀ token ∈ keyword :: operand, token.kind ≠ .comment :=
    List.forall_mem_cons.mpr ⟨by simp [kind], uncommented⟩
  have split := splitComment_append body .none
  rw [List.append_nil] at split
  have label : readLabel (keyword :: operand) = (none, keyword :: operand) := by
    simp [readLabel, kind]
  have operation : readOperation (keyword :: operand) =
      some (.directive directive (Expr.parse? operand)) := by simp [readOperation, kind]
  have rest : afterOperation (keyword :: operand) = operand :=
    afterOperation_append .none (by simp [kind, TokenKind.isLabelPart]) operand
  simp [ofLine?, split, label, operation, rest, ofDirective]

end Statement

/-! ### Lines and macros -/

namespace Text

/-- A word up to a blank is found again. -/
theorem nextWord?_append {word rest : List Char} (present : word ≠ [])
    (solid : ∀ c ∈ word, isBlank c = false) (stop : ∀ c ∈ rest.head?, isBlank c = true) :
    nextWord? (word ++ rest) = some (word, rest) := by
  obtain ⟨c, cs, rfl⟩ := List.exists_cons_of_ne_nil present
  have first : isBlank c = false := solid c List.mem_cons_self
  have trimmed : trimStart (c :: cs ++ rest) = c :: (cs ++ rest) := by
    rw [trimStart, List.cons_append, List.dropWhile_cons_of_neg (by simp [first])]
  have none : rest.takeWhile (!isBlank ·) = [] ∧ rest.dropWhile (!isBlank ·) = rest := by
    cases rest with
    | nil => exact ⟨rfl, rfl⟩
    | cons c rest => simp [stop c rfl]
  have each : ∀ d ∈ c :: cs, (!isBlank d) = true := fun d mem => by simp [solid d mem]
  rw [nextWord?, trimmed]
  show some ((c :: cs ++ rest).span (!isBlank ·)) = _
  rw [List.span_eq_takeWhile_dropWhile, List.takeWhile_append_of_pos each,
    List.dropWhile_append_of_pos each, none.1, none.2, List.append_nil]

end Text

namespace Macro

/-- A character of a word is neither a blank nor the start of a comment. -/
theorem solid_of_isWordPart {c : Char} (part : Scan.isWordPart c = true) :
    Text.isBlank c = false ∧ (c != ';') = true := by
  have bounds : 46 ≤ c.val.toNat ∧ c.val.toNat ≤ 122 ∧ c.val.toNat ≠ 59 := by
    have part : (decide (65 ≤ c.val ∧ c.val ≤ 90) ||
        (decide (97 ≤ c.val) && decide (c.val ≤ 122)) ||
        (decide (48 ≤ c.val) && decide (c.val ≤ 57)) || c == '_' || c == '.') = true := part
    simp only [Bool.or_eq_true, Bool.and_eq_true, decide_eq_true_eq, beq_iff_eq,
      UInt32.le_iff_toNat_le, UInt32.reduceToNat] at part
    rcases part with (((upper | lower) | digit) | rfl) | rfl
    · omega
    · omega
    · omega
    · decide
    · decide
  constructor
  · have code : c.toNat = c.val.toNat := rfl
    simp only [Text.isBlank, Bool.or_eq_false_iff, Bool.and_eq_false_iff, decide_eq_false_iff_not,
      beq_eq_false_iff_ne]
    omega
  · apply bne_iff_ne.mpr
    rintro rfl
    exact bounds.2.2 rfl

theorem opens?_of_blank (cs : List Char) : opens? (' ' :: cs) = none := rfl

/-- The word after a keyword and a blank is no keyword of a definition if it starts with a quote. -/
theorem opens?_of_quote {word : List Char} (present : word ≠ [])
    (parts : ∀ c ∈ word, Scan.isWordPart c = true) (text : List Char) :
    opens? (word ++ ' ' :: Text.doubleQuote :: text) = none := by
  have solid (c : Char) (mem : c ∈ word) := solid_of_isWordPart (parts c mem)
  have kept : uncommented (word ++ ' ' :: Text.doubleQuote :: text) =
      word ++ ' ' :: Text.doubleQuote :: uncommented text := by
    rw [uncommented, List.takeWhile_append_of_pos fun c mem => (solid c mem).2]
    rfl
  have first : Text.nextWord? (word ++ ' ' :: Text.doubleQuote :: uncommented text) =
      some (word, ' ' :: Text.doubleQuote :: uncommented text) :=
    Text.nextWord?_append present (fun c mem => (solid c mem).1) (by simp [Text.isBlank])
  have second : ∃ rest, Text.firstWord? (' ' :: Text.doubleQuote :: uncommented text) =
      some (Text.doubleQuote :: rest) := by
    have trimmed : Text.trimStart (' ' :: Text.doubleQuote :: uncommented text) =
      Text.doubleQuote :: uncommented text := rfl
    rw [Text.firstWord?, Text.nextWord?, trimmed]
    simp only [List.span_eq_takeWhile_dropWhile]
    exact ⟨_, rfl⟩
  obtain ⟨rest, second⟩ := second
  have other (keyword : String) (letter : keyword.toList.head? ≠ some Text.doubleQuote) :
      (Text.upperWord (Text.doubleQuote :: rest) == keyword) = false := by
    apply beq_false_of_ne
    rintro rfl
    rw [Text.toList_upperWord] at letter
    exact letter rfl
  unfold opens?
  split
  · rfl
  · rw [kept, first]
    simp only [Option.bind_eq_bind, Option.bind_some, second]
    rw [other "MACRO" (by decide), other "MAC" (by decide)]
    rfl

/-- A line with a directive opens no macro definition if a blank stands before the keyword, or a
quote after it. -/
theorem opens?_directiveLine {keyword : String} (word : Scan.isWord keyword.toList = true)
    {indent : Nat} {operand : List Char}
    (quoted : indent = 0 → operand.head? = some Text.doubleQuote) :
    opens? (Source.directiveLine indent keyword operand).toList = none := by
  rw [Source.toList_directiveLine]
  cases indent with
  | succ indent => exact opens?_of_blank _
  | zero =>
    obtain ⟨c, rest, same, -, parts⟩ := Scan.exists_of_isWord word
    obtain ⟨text, rfl⟩ := List.head?_eq_some_iff.mp (quoted rfl)
    exact opens?_of_quote (by simp [same]) parts text

end Macro

/-! ### Texts of such lines -/

/-- The statement of the line with the given number, with a keyword and an operand behind `indent`
blanks. -/
def Statement.ofOperand (directive : Directive) (indent : Nat) (keyword : String)
    (operand : List Char) (number : Nat) : Statement :=
  ofDirective ⟨.directive directive, keyword, ⟨number, indent + 1⟩⟩ directive
    ((Scan.pieces 0 (indent + keyword.toList.length + 1) operand).map fun piece =>
      piece.token number piece.kind)

@[simp] theorem Statement.directive?_ofOperand (directive : Directive) (indent : Nat)
    (keyword : String) (operand : List Char) (number : Nat) :
    (ofOperand directive indent keyword operand number).directive? = some directive := rfl

theorem Source.not_mem_directiveLine {keyword : String} (word : Scan.isWord keyword.toList = true)
    (indent : Nat) {operand : List Char} {c : Char} (blank : c ≠ ' ')
    (other : Scan.isWordPart c = false) (free : c ∉ operand) :
    c ∉ (directiveLine indent keyword operand).toList := by
  obtain ⟨-, -, -, -, parts⟩ := Scan.exists_of_isWord word
  have inside : c ∉ keyword.toList := by
    intro mem
    rw [parts c mem] at other
    cases other
  simp [List.mem_replicate, blank, inside, free]

/-- Lines that are written down with newlines are read again, with their numbers. -/
theorem Source.lines_ofTexts {texts : List String} (unbroken : ∀ text ∈ texts, '\n' ∉ text.toList)
    (bare : ∀ text ∈ texts, text.toList.getLast? ≠ some '\r') :
    lines (ofTexts texts) = number (texts.map String.toList) := by
  rw [lines, toList_ofTexts, lineTexts_flatMap]
  · simpa using unbroken
  · simpa using bare

/-- The text is made of lines with one directive and the given operands. In column one the keyword
might be taken for a label or for the name of a macro; it is not if a quote and no word follows. -/
structure DirectiveLines (source : String) (directive : Directive) (indent : Nat)
    (keyword : String) (operands : List (List Char)) : Prop where
  isKeyword : Scan.IsKeyword keyword directive
  lines : Source.lines source = Source.number (operands.map fun operand =>
    (Source.directiveLine indent keyword operand).toList)
  quoted : indent = 0 → ∀ operand ∈ operands, operand.head? = some Text.doubleQuote
  alone : indent = 0 → ∀ operand ∈ operands, ∀ start, ∀ piece ∈ Scan.pieces 0 start operand,
    piece.pattern ≠ .word
  uncommented : ∀ operand ∈ operands, ∀ start, ∀ piece ∈ Scan.pieces 0 start operand,
    piece.kind ≠ .comment

namespace DirectiveLines

variable {source keyword : String} {directive : Directive} {indent : Nat}
  {operands : List (List Char)}

/-- Lines with one directive read as statements with that directive, in the order of the lines. -/
theorem ofSource_eq (lines : DirectiveLines source directive indent keyword operands) :
    Statement.ofSource source = (operands.zipIdx 1).map fun item =>
      .ofOperand directive indent keyword item.1 item.2 := by
  have each (operand : List Char) (listed : operand ∈ operands) (number : Nat) :
      Statement.ofLine?
          (Scan.contents number (Source.directiveLine indent keyword operand).toList) =
        some (.ofOperand directive indent keyword operand number) := by
    rw [Scan.contents_directiveLine lines.isKeyword number fun column piece =>
      lines.alone column operand listed _ piece]
    apply Statement.ofLine?_directive rfl
    intro token mem
    obtain ⟨piece, inside, rfl⟩ := List.mem_map.mp mem
    exact lines.uncommented operand listed _ piece inside
  show Statement.ofLines (Source.lines source) = _
  rw [Statement.ofLines_eq, lines.lines, Source.number, List.zipIdx_map, List.map_map,
    List.filterMap_map, ← List.filterMap_eq_map]
  apply List.filterMap_congr
  intro item mem
  simpa using each item.1 (List.fst_mem_of_mem_zipIdx mem) item.2

theorem not_opens (lines : DirectiveLines source directive indent keyword operands) :
    ∀ line ∈ Source.lines source, Macro.opens? line.text.toList = none := by
  intro line mem
  have text : line.text ∈ (Source.lines source).map (·.text) := List.mem_map_of_mem mem
  rw [lines.lines, Source.map_text_number, List.map_map] at text
  obtain ⟨operand, listed, same⟩ := List.mem_map.mp text
  rw [← same, Function.comp_apply, String.ofList_toList]
  exact Macro.opens?_directiveLine lines.isKeyword.word fun column =>
    lines.quoted column operand listed

/-- A text of lines with one directive assembles to what the statements of the lines assemble
to. -/
theorem assemble_eq (lines : DirectiveLines source directive indent keyword operands)
    (other : directive ≠ .includeFile) (options : Options) (setting : Setting) :
    assemble options setting source =
      Assembly.run options ((operands.zipIdx 1).map fun item =>
        .ofOperand directive indent keyword item.1 item.2) := by
  have alone : ∀ statement ∈ Statement.ofSource source,
      statement.directive? ≠ some .includeFile := by
    rw [lines.ofSource_eq]
    intro statement mem
    obtain ⟨item, -, rfl⟩ := List.mem_map.mp mem
    simpa using other
  rw [assemble_of_plain lines.not_opens alone, lines.ofSource_eq]

end DirectiveLines

end Asm6502
