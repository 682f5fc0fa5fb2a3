import Asm6502.Proofs.DirectiveLines
import Asm6502.Proofs.Location

/-!
# Statements that spell out a text

The bytes of a string directive and of a hexadecimal directive are spelled out by their operand
alone (`Statement.spelledBytes`). `step_text` says all that such a statement does to a state in
which it is assembled: its label is bound, the location counter moves, and the bytes and what is
wrong with the text are reported. Two things follow. The counter, which counts bytes modulo 65536,
moves by 65535 and no more however long the text is, so that it follows the bytes of a text exactly
if these are at most 65535, or one less than a multiple of 65536 (`here_step_text`). And a program
of such statements without labels puts out what they spell, in order (`run_texts`).
-/

namespace Asm6502

namespace Statement

/-- The bytes that a text spells out, given the top bit of text bytes. -/
def spelledBytes (statement : Statement) (msb : Bool) : List UInt8 :=
  match statement.directive? with
  | some (.string style) => (statement.string?.map (style.bytes msb)).getD []
  | some .hex => Hex.bytes (Effect.hexText statement)
  | _ => []

/-- What is wrong with a text. -/
def spellingProblems (statement : Statement) : List Cause :=
  match statement.directive? with
  | some (.string style) =>
    match statement.string? with
    | some text => style.problems text
    | none => [.stringMissing (.string style)]
  | some .hex =>
    if (Effect.hexText statement).isEmpty then [.hexMissing]
    else (Hex.problem? (Effect.hexText statement)).toList
  | _ => []

theorem exists_of_isText {statement : Statement} (text : statement.isText = true) :
    ∃ directive operand, statement.operation = some (.directive directive operand) ∧
      ((∃ style, directive = .string style) ∨ directive = .hex) := by
  unfold isText at text
  split at text
  · rename_i style named
    obtain ⟨operand, operation⟩ := operation_of_directive? named
    exact ⟨_, operand, operation, .inl ⟨style, rfl⟩⟩
  · rename_i named
    obtain ⟨operand, operation⟩ := operation_of_directive? named
    exact ⟨_, operand, operation, .inr rfl⟩
  · cases text

end Statement

/-- The effect of a text is one run of bytes. -/
theorem Effect.ofStatement_text {statement : Statement} (text : statement.isText = true) (env : Env)
    (decided : Option Layout) :
    ofStatement env decided statement =
      { chunk (statement.spelledBytes env.msb) with problems := statement.spellingProblems } := by
  obtain ⟨directive, operand, operation, ⟨style, rfl⟩ | rfl⟩ := Statement.exists_of_isText text
  · simp only [ofStatement, Effect.directive, string, Statement.spelledBytes,
      Statement.spellingProblems, Statement.directive?, operation]
    cases statement.string? <;> rfl
  · simp only [ofStatement, Effect.directive, hex, Statement.spelledBytes,
      Statement.spellingProblems, Statement.directive?, operation]
    split
    · rename_i empty
      have none : hexText statement = "" := by simpa using empty
      rw [none]
      rfl
    · rfl

/-! ### Lines with a string -/

/-- A text between double quotes. -/
def Text.quoted (text : String) : List Char := doubleQuote :: (text.toList ++ [doubleQuote])

/-- The text can stand between double quotes on a line. -/
structure Text.Quotable (text : String) : Prop where
  free : doubleQuote ∉ text.toList
  unbroken : '\n' ∉ text.toList

theorem Scan.pieces_quoted {text : String} (quotable : Text.Quotable text) (start : Nat) :
    pieces 0 start (Text.quoted text) = [⟨.quoted, Text.quoted text, start⟩] := by
  have cut := pieces_of_longest? start (by simp) (longest?_quoted quotable.free [])
  rwa [List.append_nil, pieces] at cut

/-- A text of as many letters. -/
def Text.letters (count : Nat) : String := String.ofList (List.replicate count 'A')

theorem Text.quotable_letters (count : Nat) : Quotable (letters count) := by
  constructor <;> simp [letters, List.mem_replicate, doubleQuote]

theorem length_textBytes_letters (count : Nat) :
    (textBytes (Text.letters count)).length = count := by
  have single : 'A'.utf8Size = 1 := by decide
  simp [textBytes, Text.letters, single]

section Strings

variable {style : StringStyle} {indent : Nat} {keyword text : String}

/-- What stands between the quotes of the operand is the string of the statement. -/
theorem Statement.string?_ofOperand (quotable : Text.Quotable text) (number : Nat) :
    (ofOperand (.string style) indent keyword (Text.quoted text) number).string? = some text := by
  have inside : Text.unquoteChars (Text.quoted text) = text.toList := Text.unquoteChars_quoted
  rw [ofOperand, Scan.pieces_quoted quotable]
  simp [ofDirective, string?, Scan.Piece.token, Scan.Piece.kind, Scan.Piece.lexeme, Text.unquote,
    inside]

theorem Statement.spells_ofOperand (quotable : Text.Quotable text) (number : Nat) :
    let statement := ofOperand (.string style) indent keyword (Text.quoted text) number
    (∀ msb, statement.spelledBytes msb = style.bytes msb text) ∧
      statement.spellingProblems = style.problems text := by
  intro statement
  have string : statement.string? = some text := string?_ofOperand quotable number
  have directive : statement.directive? = some (.string style) := rfl
  refine ⟨fun msb => ?_, ?_⟩
  · simp only [spelledBytes, directive, string, Option.map_some, Option.getD_some]
  · simp only [spellingProblems, directive, string]

/-- The text with one line for each of the strings. -/
def Source.ofStrings (indent : Nat) (keyword : String) (texts : List String) : String :=
  ofTexts (texts.map fun text => directiveLine indent keyword (Text.quoted text))

theorem directiveLines_ofStrings {texts : List String}
    (isKeyword : Scan.IsKeyword keyword (.string style))
    (quotable : ∀ text ∈ texts, Text.Quotable text) (indent : Nat) :
    DirectiveLines (Source.ofStrings indent keyword texts) (.string style) indent keyword
      (texts.map Text.quoted) where
  isKeyword := isKeyword
  lines := by
    rw [Source.ofStrings, Source.lines_ofTexts, List.map_map, List.map_map]
    · rfl
    · intro line mem
      obtain ⟨text, listed, rfl⟩ := List.mem_map.mp mem
      have unbroken := (quotable text listed).unbroken
      apply Source.not_mem_directiveLine isKeyword.word indent (by decide) (by decide)
      simp [Text.quoted, Text.doubleQuote, unbroken]
    · intro line mem
      obtain ⟨text, listed, rfl⟩ := List.mem_map.mp mem
      simp [Text.quoted, Text.doubleQuote, List.getLast?_cons]
  quoted := by
    rintro - operand mem
    obtain ⟨text, -, rfl⟩ := List.mem_map.mp mem
    rfl
  alone := by
    rintro - operand mem start piece inside
    obtain ⟨text, listed, rfl⟩ := List.mem_map.mp mem
    rw [Scan.pieces_quoted (quotable text listed), List.mem_singleton] at inside
    simp [inside]
  uncommented := by
    rintro operand mem start piece inside
    obtain ⟨text, listed, rfl⟩ := List.mem_map.mp mem
    rw [Scan.pieces_quoted (quotable text listed), List.mem_singleton] at inside
    simp [inside, Scan.Piece.kind]

end Strings

namespace Assembly

section Step

variable {options : Options} {pass : Pass} {state : State} {statement : Statement}
  {decided : Option Layout}

/-- **A text**: its label is bound, the counter moves, and the bytes and problems are reported. -/
theorem step_text (text : statement.isText = true) (enabled : state.conditions.enabled = true) :
    let bytes := statement.spelledBytes state.msb
    let given := statement.label.map (·, state.here)
    let next := step options pass state (statement, decided)
    next.1 =
        { state with
          here := state.here + UInt16.ofNat (min bytes.length 65535)
          symbols := state.symbols.give statement.position given } ∧
      next.2.bytes = (if pass = .two ∧ state.inDsect = false then bytes else []) ∧
      next.2.diagnostics =
        (state.bind? pass statement.position given).2 ++
          found pass statement statement.spellingProblems := by
  intro bytes given next
  obtain ⟨directive, operand, operation, isText⟩ := Statement.exists_of_isText text
  have assembles : state.Assembles statement := by
    refine ⟨?_, enabled⟩
    obtain ⟨style, rfl⟩ | rfl := isText <;> simp only [Statement.role, operation]
  have bound : state.given pass statement = given := by
    obtain ⟨style, rfl⟩ | rfl := isText <;>
      simp [State.given, Statement.equate?, labelBinding, Statement.directive?, operation, given]
  have effect : effectOf options pass state statement decided =
      { Effect.chunk bytes with problems := statement.spellingProblems } :=
    Effect.ofStatement_text text _ decided
  have whole : next = assembled options pass state statement decided := step_of_assembles assembles
  rw [whole, assembled_eq, effect, bound]
  refine ⟨?_, ?_, rfl⟩
  · simp [State.apply, Effect.chunk, addNames]
  · simp [Effect.chunk]

/-- **The location counter follows the bytes of a text up to 65535.** In either pass, inside a
dummy section and outside, a text in an enabled block moves the counter by the number of the bytes
that it spells, but by 65535 if there are more. -/
theorem here_step_text (options : Options) (pass : Pass) (state : State) (statement : Statement)
    (decided : Option Layout) (text : statement.isText = true)
    (enabled : state.conditions.enabled = true) :
    let bytes := statement.spelledBytes state.msb
    let next := step options pass state (statement, decided)
    next.1.here = state.here + UInt16.ofNat (min bytes.length 65535) ∧
      (next.1.here.toNat = (state.here.toNat + bytes.length) % 65536 ↔
        bytes.length ≤ 65535 ∨ bytes.length % 65536 = 65535) ∧
      next.2.bytes = (if pass = .two ∧ state.inDsect = false then bytes else []) := by
  intro bytes next
  obtain ⟨state', output, -⟩ := @step_text options pass state statement decided text enabled
  have here : next.1.here = state.here + UInt16.ofNat (min bytes.length 65535) := by
    rw [state']
  refine ⟨here, ?_, output⟩
  have bound := state.here.toNat_lt
  rw [here, UInt16.toNat_add, UInt16.toNat_ofNat']
  omega

/-- Three bytes in a dummy section, across the end of the address space: the counter goes from
65535 to 2. -/
theorem here_step_text_wrapped :
    let statement := Statement.ofOperand .hex 1 "HEX" "0A,1B2c".toList 1
    let state : State := { here := 0xFFFF, inDsect := true }
    statement.isText = true ∧ state.conditions.enabled = true ∧
      statement.spelledBytes state.msb = [0x0A, 0x1B, 0x2C] ∧
      (step {} .one state (statement, none)).1.here = 2 := by
  intro statement state
  have bytes : statement.spelledBytes state.msb = [0x0A, 0x1B, 0x2C] := by decide +kernel
  have moves := (here_step_text {} .one state statement none rfl rfl).1
  refine ⟨rfl, rfl, bytes, ?_⟩
  rw [moves, bytes]
  decide

theorem exists_statement_letters (count : Nat) :
    ∃ statement, Statement.ofSource (" ASC \"" ++ Text.letters count ++ "\"\n") = [statement] ∧
      statement.isText = true ∧ ∀ msb, (statement.spelledBytes msb).length = count := by
  have source : " ASC \"" ++ Text.letters count ++ "\"\n" =
      Source.ofStrings 1 "ASC" [Text.letters count] := by
    apply String.toList_inj.mp
    simp [Source.ofStrings, Source.toList_ofTexts, Text.quoted, Text.doubleQuote]
  have isKeyword : Scan.IsKeyword "ASC" (.string .plain) := ⟨by decide +kernel, by decide +kernel⟩
  have lines := directiveLines_ofStrings isKeyword
    (List.forall_mem_singleton.mpr (Text.quotable_letters count)) 1
  let statement := Statement.ofOperand (.string .plain) 1 "ASC" (Text.quoted (Text.letters count)) 1
  refine ⟨statement, source ▸ lines.ofSource_eq, rfl, fun msb => ?_⟩
  have bytes : statement.spelledBytes msb = StringStyle.plain.bytes msb (Text.letters count) :=
    (Statement.spells_ofOperand (Text.quotable_letters count) 1).1 msb
  simp only [bytes, StringStyle.bytes, List.length_map, length_textBytes_letters]

/-- **A text of 65536 bytes should leave the counter where it is**, but moves it to 65535. -/
theorem longText_moves_counter :
    ∃ statement, Statement.ofSource (" ASC \"" ++ Text.letters 65536 ++ "\"\n") = [statement] ∧
      statement.isText = true ∧ (statement.spelledBytes false).length = 65536 ∧
      ∀ options pass,
        let next := step options pass {} (statement, none)
        next.1.here = 65535 ∧ next.1.here.toNat ≠ (0 + 65536) % 65536 := by
  obtain ⟨statement, source, text, length⟩ := exists_statement_letters 65536
  refine ⟨statement, source, text, length false, ?_⟩
  intro options pass next
  have here : next.1.here = 65535 := by
    rw [(step_text text rfl).1, length]
    rfl
  exact ⟨here, by rw [here]; decide⟩

end Step

/-! ### Programs of texts -/

section Passes

variable {options : Options} {statements : List Statement}

/-- The settings of a state are those that a pass starts with. -/
structure Unset (options : Options) (state : State) : Prop where
  conditions : state.conditions = {}
  outside : state.inDsect = false
  msb : state.msb = options.msb
  entries : state.entries = []

theorem Unset.enabled {state : State} (unset : Unset options state) :
    state.conditions.enabled = true := by
  rw [unset.conditions]

/-- Statements that spell out texts leave the settings alone. -/
theorem unset_before (texts : ∀ statement ∈ statements, statement.isText = true) (pass : Pass)
    (i : Nat) : Unset options (before options statements pass i) := by
  refine before_induction ?_ (fun i statement found unset => ?_) i
  · cases pass <;> exact ⟨rfl, rfl, rfl, rfl⟩
  · rw [visit, (step_text (texts statement (List.mem_of_getElem? found)) unset.enabled).1]
    exact ⟨unset.conditions, unset.outside, unset.msb, unset.entries⟩

/-- What all visits of a pass report, if each reports what its statement tells. -/
theorem flatMap_reports_eq {β : Type} {pass : Pass} {part : Report → List β}
    {tells : Statement → List β}
    (each : ∀ i statement, statements[i]? = some statement →
      part (visit options statements pass i statement).2 = tells statement) :
    (outcome options statements pass).2.flatMap part = statements.flatMap tells := by
  have visits : (outcome options statements pass).2.flatMap part =
      (statements.zipIdx.map (·.1)).flatMap tells := by
    rw [reports_eq, List.flatMap_map, List.flatMap_map]
    apply List.flatMap_congr
    intro item mem
    exact each item.2 item.1 (List.mk_mem_zipIdx_iff_getElem?.mp mem)
  rw [visits, List.zipIdx_map_fst]

/-- **A program of texts** without labels puts out what they spell, in order, and reports what is
wrong with each of them. -/
theorem run_texts (options : Options)
    (texts : ∀ statement ∈ statements, statement.isText = true ∧ statement.label = none) :
    (run options statements).bytes = statements.flatMap (·.spelledBytes options.msb) ∧
      (run options statements).diagnostics = statements.flatMap fun statement =>
        statement.spellingProblems.map fun cause => ⟨cause, some statement.position⟩ := by
  have unset (pass : Pass) (i : Nat) : Unset options (before options statements pass i) :=
    unset_before (fun statement mem => (texts statement mem).1) pass i
  have visited (pass : Pass) (i : Nat) (statement : Statement)
      (found : statements[i]? = some statement) :
      (visit options statements pass i statement).2.bytes =
          (if pass = .two then statement.spelledBytes options.msb else []) ∧
        (visit options statements pass i statement).2.diagnostics =
          Assembly.found pass statement statement.spellingProblems := by
    obtain ⟨text, bare⟩ := texts statement (List.mem_of_getElem? found)
    have here := unset pass i
    obtain ⟨-, bytes, diagnostics⟩ := @step_text options pass _ statement
      (decided options statements pass i) text here.enabled
    rw [visit, bytes, diagnostics, here.outside, here.msb, bare]
    simp [State.bind?]
  constructor
  · exact flatMap_reports_eq fun i statement found => (visited .two i statement found).1
  · have last := unset .two statements.length
    rw [before_length] at last
    have shut : ({} : Conditions).depth = 0 := rfl
    have silent : closing (outcome options statements .two).1 = [] := by
      simp [closing, last.conditions, last.entries, shut]
    rw [diagnostics_run, silent, List.append_nil,
      flatMap_reports_eq fun i statement found => (visited .one i statement found).2,
      flatMap_reports_eq fun i statement found => (visited .two i statement found).2]
    simp [found]

end Passes

end Assembly

end Asm6502
