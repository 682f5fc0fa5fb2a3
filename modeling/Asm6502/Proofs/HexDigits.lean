import Asm6502.Proofs.Rows
import Asm6502.Proofs.Texts

/-!
# Hexadecimal directives

The operand of `HEX` is cut like any other: its digits become numbers, words, mnemonics and keywords
of directives, as it happens. But a hexadecimal digit always starts a number or a word, and neither
of them has a comma in it. So the pieces leave no gap, the commas are pieces of their own, and what
is joined again is the operand without its commas (`Effect.toList_hexText`). It follows that every
spelling of a list of bytes assembles to these bytes (`assemble_hex`).
-/

namespace Asm6502

/-! ### Digits -/

namespace Hex

/-- The hexadecimal digits, in either case. -/
def digitChars : List Char := "0123456789ABCDEFabcdef".toList

theorem isSome_digit?_iff (c : Char) : (Text.digit? c).isSome = true ↔ c ∈ digitChars := by
  have codes : ∀ n < 103, 48 ≤ n ∧ n ≤ 57 ∨ 65 ≤ n ∧ n ≤ 70 ∨ 97 ≤ n ∧ n ≤ 102 →
      Char.ofNat n ∈ digitChars := by decide +kernel
  have digits : digitChars.all (fun c => (Text.digit? c).isSome) = true := by decide
  constructor
  · intro digit
    have bounds : 48 ≤ c.toNat ∧ c.toNat ≤ 57 ∨ 65 ≤ c.toNat ∧ c.toNat ≤ 70 ∨
        97 ≤ c.toNat ∧ c.toNat ≤ 102 := by
      unfold Text.digit? at digit
      split at digit
      · rename_i decimal
        exact .inl decimal
      split at digit
      · rename_i capital
        exact .inr (.inl capital)
      split at digit
      · rename_i small
        exact .inr (.inr small)
      · cases digit
    have listed := codes c.toNat (by omega) bounds
    rwa [Char.ofNat_toNat] at listed
  · exact List.all_eq_true.mp digits c

/-- A digit, or a comma between digits. -/
def IsPart (c : Char) : Prop := c = ',' ∨ c ∈ digitChars

instance (c : Char) : Decidable (IsPart c) := inferInstanceAs (Decidable (_ ∨ _))

/-- The characters spell the bytes: two digits for each byte, in either case, and commas. -/
def Spells (text : List Char) (bytes : List UInt8) : Prop :=
  (text.filter (· != ',')).map Char.toUpper = bytes.flatMap Text.hexByte

instance (text : List Char) (bytes : List UInt8) : Decidable (Spells text bytes) :=
  inferInstanceAs (Decidable (_ = _))

theorem filterMap_hexByte (b : UInt8) :
    (Text.hexByte b).filterMap Text.digit? = [b.toNat / 16, b.toNat % 16] := by
  have bound := b.toNat_lt
  simp only [Text.hexByte, List.filterMap_cons, List.filterMap_nil]
  rw [Text.digit?_hexDigit (by omega), Text.digit?_hexDigit (by omega)]

theorem isSome_digit?_of_mem {b : UInt8} {c : Char} (mem : c ∈ Text.hexByte b) :
    (Text.digit? c).isSome = true := by
  have bound := b.toNat_lt
  simp only [Text.hexByte, List.mem_cons, List.not_mem_nil, or_false] at mem
  rcases mem with rfl | rfl
  · rw [Text.digit?_hexDigit (by omega)]
    rfl
  · rw [Text.digit?_hexDigit (by omega)]
    rfl

theorem length_pairs (digits : List Nat) : (pairs digits).length = digits.length / 2 := by
  fun_induction pairs digits with
  | case1 high low rest ih =>
    rw [List.length_cons, ih, List.length_cons, List.length_cons]
    omega
  | case2 digits short =>
    rcases digits with _ | ⟨high, _ | ⟨low, rest⟩⟩
    · rfl
    · simp
    · exact absurd rfl (short high low rest)

theorem pairs_flatMap (bytes : List UInt8) :
    pairs (bytes.flatMap fun b => [b.toNat / 16, b.toNat % 16]) = bytes := by
  induction bytes with
  | nil => rfl
  | cons b bytes ih =>
    have whole : UInt8.ofNat (16 * (b.toNat / 16) + b.toNat % 16) = b := by
      rw [Nat.div_add_mod, UInt8.ofNat_toNat]
    rw [List.flatMap_cons, List.cons_append, List.cons_append, List.nil_append, pairs, whole, ih]

theorem length_digits (text : String) :
    (digits text).length = text.toList.countP digitChars.contains := by
  rw [digits, List.length_filterMap_eq_countP]
  apply List.countP_congr
  intro c mem
  rw [isSome_digit?_iff, List.contains_iff_mem]

/-- Something is wrong with a text exactly if it has a character that is no digit, or an odd number
of digits. -/
theorem isSome_problem?_iff (text : String) :
    (problem? text).isSome = true ↔
      (∃ c ∈ text.toList, c ∉ digitChars) ∨ text.toList.countP digitChars.contains % 2 = 1 := by
  have other (c : Char) : (Text.digit? c).isNone = true ↔ c ∉ digitChars := by
    rw [← isSome_digit?_iff, Option.not_isSome_iff_eq_none, Option.isNone_iff_eq_none]
  rw [← length_digits, problem?]
  cases found : text.toList.find? fun c => (Text.digit? c).isNone with
  | some c =>
    have none : (Text.digit? c).isNone = true := by simpa using List.find?_some found
    have strange : ∃ c ∈ text.toList, c ∉ digitChars :=
      ⟨c, List.mem_of_find?_eq_some found, (other c).mp none⟩
    exact ⟨fun _ => .inl strange, fun _ => rfl⟩
  | none =>
    have each : ¬ ∃ c ∈ text.toList, c ∉ digitChars := by
      rintro ⟨c, mem, strange⟩
      exact List.find?_eq_none.mp found c mem ((other c).mpr strange)
    rw [or_iff_right each]
    by_cases odd : (digits text).length % 2 = 1
    · simp [odd]
    · simp [odd]

namespace Spells

variable {cs : List Char} {bytes : List UInt8} (spells : Spells cs bytes)

include spells

/-- A text that spells bytes has nothing but digits and commas in it. -/
theorem each : ∀ c ∈ cs, IsPart c := by
  intro c mem
  by_cases comma : c = ','
  · exact .inl comma
  · have kept : c.toUpper ∈ (cs.filter (· != ',')).map Char.toUpper :=
      List.mem_map_of_mem (List.mem_filter.mpr ⟨mem, bne_iff_ne.mpr comma⟩)
    rw [spells] at kept
    obtain ⟨b, -, digit⟩ := List.mem_flatMap.mp kept
    refine .inr ((isSome_digit?_iff c).mp ?_)
    rw [← Text.digit?_toUpper]
    exact isSome_digit?_of_mem digit

/-- Two digits for each byte read as the bytes, and nothing is wrong with them. -/
theorem bytes_eq {text : String} (joined : text.toList = cs.filter (· != ',')) :
    Hex.bytes text = bytes ∧ problem? text = none := by
  have read : digits text = bytes.flatMap fun b => [b.toNat / 16, b.toNat % 16] := by
    rw [← digits_upper, digits, Text.toList_upper, joined, spells, List.filterMap_flatMap]
    simp only [filterMap_hexByte]
  constructor
  · rw [Hex.bytes, read, pairs_flatMap]
  · have even : (digits text).length % 2 = 0 := by
      rw [read]
      simp [List.length_flatMap]
    rw [← Option.not_isSome_iff_eq_none, isSome_problem?_iff, ← length_digits]
    rintro (⟨c, mem, strange⟩ | odd)
    · rw [joined, List.mem_filter] at mem
      exact (spells.each c mem.1).elim (bne_iff_ne.mp mem.2) strange
    · omega

end Spells

end Hex

/-! ### Pieces of digits -/

namespace Scan

/-- The piece is a comma, or a word or a number without a comma in it. -/
def Piece.IsHex (piece : Piece) : Prop :=
  (piece.pattern = .comma ∧ piece.text = [',']) ∨
    ((piece.pattern = .word ∨ piece.pattern = .number) ∧ ',' ∉ piece.text)

theorem Accepts.isHex {pattern : Pattern} {text : List Char} (accepts : Accepts pattern text)
    (each : ∀ c ∈ text, Hex.IsPart c) (start : Nat) : Piece.IsHex ⟨pattern, text, start⟩ := by
  -- no other piece starts with a digit or a comma
  have starts {c : Char} {cs : List Char} (same : text = c :: cs) (other : ¬ Hex.IsPart c) :
      False :=
    other (each c (same ▸ List.mem_cons_self))
  cases accepts with
  | @word c cs start parts =>
    refine .inr ⟨.inl rfl, fun comma => ?_⟩
    rcases List.mem_cons.mp comma with rfl | inside
    · exact absurd start (by decide)
    · exact absurd (parts _ inside) (by decide)
  | @number mark digits radix marked present valued =>
    have marks : leads.all (fun marked => !marked.1.contains ',') = true := by decide
    have free := List.all_eq_true.mp marks _ marked
    refine .inr ⟨.inr rfl, fun comma => ?_⟩
    rcases List.mem_append.mp comma with inside | inside
    · simp [inside] at free
    · have digit := valued _ inside
      simp [Text.isDigitIn, Text.digitIn?, Text.digit?] at digit
  | comma => exact .inl ⟨rfl, rfl⟩
  | arrows => exact (starts rfl (by decide)).elim
  | @closed quote inside opens free =>
    rcases opens with rfl | rfl <;> exact (starts rfl (by decide)).elim
  | @unclosed quote inside opens free =>
    rcases opens with rfl | rfl <;> exact (starts rfl (by decide)).elim
  | comment cs => exact (starts rfl (by decide)).elim
  | colon => exact (starts rfl (by decide)).elim
  | leftParen => exact (starts rfl (by decide)).elim
  | rightParen => exact (starts rfl (by decide)).elim
  | @operator c listed =>
    have others : "-+*/#<>=&|^!".toList.all (fun c => !decide (Hex.IsPart c)) = true := by decide
    have other := List.all_eq_true.mp others c (List.contains_iff_mem.mp listed)
    exact (starts rfl (by simpa using other)).elim

/-- At a digit or a comma some pattern matches. -/
theorem exists_longest?_of_digit {c : Char} (part : Hex.IsPart c) (cs : List Char) :
    ∃ pattern n, longest? (c :: cs) = some (pattern, n) := by
  have first : [c] <+: c :: cs := ⟨cs, rfl⟩
  have found {pattern : Pattern} (accepts : Accepts pattern [c]) :
      ∃ pattern n, longest? (c :: cs) = some (pattern, n) := by
    obtain ⟨other, n, found, -⟩ := exists_longest? ⟨first, accepts⟩
    exact ⟨other, n, found⟩
  rcases part with rfl | digit
  · exact found .comma
  · have split : Hex.digitChars.all (fun c => Text.isDigitIn 10 c || isWordStart c) = true := by
      decide
    rcases Bool.or_eq_true_iff.mp (List.all_eq_true.mp split c digit) with decimal | letter
    · exact found (@Accepts.number [] [c] 10 (by decide) (List.cons_ne_nil _ _)
        (by simpa using decimal))
    · exact found (.word letter (by simp))

/-- Digits and commas are cut without gaps; a comma is a piece of its own. -/
theorem pieces_of_digits {cs : List Char} (each : ∀ c ∈ cs, Hex.IsPart c) (start : Nat) :
    (pieces 0 start cs).flatMap (·.text) = cs ∧ ∀ piece ∈ pieces 0 start cs, piece.IsHex := by
  induction length : cs.length using Nat.strongRecOn generalizing cs start with
  | ind length' ih =>
    cases cs with
    | nil => exact ⟨rfl, by simp [pieces]⟩
    | cons c cs =>
      obtain ⟨pattern, n, found⟩ := exists_longest?_of_digit (each c List.mem_cons_self) cs
      obtain ⟨fits, accepts⟩ := accepts_longest? found
      have whole := List.take_append_drop n (c :: cs)
      have count : ((c :: cs).take n).length = n := List.length_take_of_le fits
      have positive := List.length_pos_iff.mpr accepts.ne_nil
      have cut : pieces 0 start (c :: cs) = ⟨pattern, (c :: cs).take n, start⟩ ::
          pieces 0 (start + n) ((c :: cs).drop n) := by
        have first := pieces_of_longest? start accepts.ne_nil (by rwa [whole, count])
        rwa [whole, count] at first
      have shorter : ((c :: cs).drop n).length < length' := by
        rw [List.length_drop]
        omega
      obtain ⟨joined, others⟩ := ih _ shorter
        (fun c mem => each c (List.mem_of_mem_drop mem)) (start + n) rfl
      rw [cut, List.flatMap_cons, joined, List.forall_mem_cons]
      exact ⟨whole, accepts.isHex (fun c mem => each c (List.mem_of_mem_take mem)) start, others⟩

theorem Piece.IsHex.kind {piece : Piece} (isHex : piece.IsHex) :
    (piece.kind = .comma ↔ piece.pattern = .comma) ∧ piece.kind ≠ .comment := by
  rcases isHex with ⟨comma, -⟩ | ⟨word | number, -⟩
  · simp [Piece.kind, comma]
  · have symbol : piece.kind = (TokenKind.ofKeyword? piece.lexeme).getD .symbol := by
      simp [Piece.kind, word]
    rw [symbol, TokenKind.ofKeyword?, word]
    cases Opcode.find? piece.lexeme with
    | some opcode => simp
    | none => cases Directive.ofKeyword? piece.lexeme <;> simp
  · simp [Piece.kind, number]

/-- The tokens of such pieces, joined without the commas. -/
theorem toList_joined_of_isHex (number : Nat) {pieces : List Piece}
    (each : ∀ piece ∈ pieces, piece.IsHex) :
    (Token.joined ((pieces.map fun piece => piece.token number piece.kind).filter
        (·.kind != .comma))).toList =
      (pieces.flatMap (·.text)).filter (· != ',') := by
  induction pieces with
  | nil => rfl
  | cons piece pieces ih =>
    rw [List.forall_mem_cons] at each
    have rest := ih each.2
    have kind := each.1.kind.1
    rw [List.map_cons, List.flatMap_cons, List.filter_append, ← rest]
    rcases each.1 with ⟨comma, text⟩ | ⟨other, free⟩
    · simp [Piece.token, kind.mpr comma, text]
    · have different : piece.kind ≠ .comma := by
        intro same
        rw [kind.mp same] at other
        simp at other
      have whole : piece.text.filter (· != ',') = piece.text :=
        List.filter_eq_self.mpr (bne_of_not_mem free)
      simp [Piece.token, different, whole, Token.joined, String.toList_join, Piece.lexeme]

end Scan

/-! ### The operand of a hexadecimal directive -/

/-- What is joined of the operand is the operand without its commas. -/
theorem Effect.toList_hexText {text : List Char} (each : ∀ c ∈ text, Hex.IsPart c) (indent : Nat)
    (keyword : String) (number : Nat) :
    (hexText (.ofOperand .hex indent keyword text number)).toList = text.filter (· != ',') := by
  obtain ⟨joined, isHex⟩ := Scan.pieces_of_digits each (indent + keyword.toList.length + 1)
  have tokens := Scan.toList_joined_of_isHex number isHex
  rwa [joined] at tokens

/-- A line with digits is a line with a directive, with a newline after it or without. -/
theorem directiveLines_hex {text : List Char} (each : ∀ c ∈ text, Hex.IsPart c)
    {ending : String} (ends : ending = "" ∨ ending = "\n") :
    DirectiveLines (" HEX " ++ String.ofList text ++ ending) .hex 1 "HEX" [text] where
  isKeyword := ⟨by decide +kernel, by decide +kernel⟩
  lines := by
    have line : " HEX " ++ String.ofList text = Source.directiveLine 1 "HEX" text := by
      apply String.toList_inj.mp
      simp
    have free (c : Char) (other : ¬ Hex.IsPart c) : c ∉ text := fun mem => other (each c mem)
    have unbroken : '\n' ∉ (Source.directiveLine 1 "HEX" text).toList :=
      Source.not_mem_directiveLine (by decide) 1 (by decide) (by decide) (free _ (by decide))
    have bare : '\r' ∉ (Source.directiveLine 1 "HEX" text).toList :=
      Source.not_mem_directiveLine (by decide) 1 (by decide) (by decide) (free _ (by decide))
    rcases ends with rfl | rfl
    · rw [String.append_empty, line, Source.lines_of_unbroken _ unbroken]
      · have single : Source.number [(Source.directiveLine 1 "HEX" text).toList] =
            [⟨1, String.ofList (Source.directiveLine 1 "HEX" text).toList⟩] := rfl
        rw [List.map_singleton, single, String.ofList_toList]
      · intro empty
        simpa using congrArg String.toList empty
    · have whole : Source.directiveLine 1 "HEX" text ++ "\n" =
          Source.ofTexts [Source.directiveLine 1 "HEX" text] := by
        simp [Source.ofTexts]
      rw [line, whole, Source.lines_ofTexts (List.forall_mem_singleton.mpr unbroken)
        (List.forall_mem_singleton.mpr fun last => bare (List.mem_of_getLast? last))]
      rfl
  quoted column := by cases column
  alone column := by cases column
  uncommented := by
    intro operand mem start piece inside
    rw [List.mem_singleton.mp mem] at inside
    exact ((Scan.pieces_of_digits each start).2 piece inside).kind.2

/-- **Hexadecimal directives read back.** A line with `HEX` and any spelling of bytes assembles to
these bytes, and nothing is reported. Any text has half as many bytes as digits, and something is
wrong with it exactly if it has a character that is no digit or an odd number of digits. -/
theorem assemble_hex (options : Options) (setting : Setting) :
    (∀ (bytes : List UInt8) (text : List Char) (ending : String), bytes ≠ [] →
        Hex.Spells text bytes → ending = "" ∨ ending = "\n" →
        let artifact := assemble options setting (" HEX " ++ String.ofList text ++ ending)
        artifact.bytes = bytes ∧ artifact.diagnostics = []) ∧
      ∀ text : String,
        let digits := text.toList.countP Hex.digitChars.contains
        (Hex.bytes text).length = digits / 2 ∧
          ((Hex.problem? text).isSome = true ↔
            (∃ c ∈ text.toList, c ∉ Hex.digitChars) ∨ digits % 2 = 1) := by
  refine ⟨?_, fun text => ⟨?_, Hex.isSome_problem?_iff text⟩⟩
  · intro bytes text ending present spells ends artifact
    have lines := directiveLines_hex spells.each ends
    let statement := Statement.ofOperand .hex 1 "HEX" text 1
    have joined : (Effect.hexText statement).toList = text.filter (· != ',') :=
      Effect.toList_hexText spells.each 1 "HEX" 1
    obtain ⟨read, clean⟩ := spells.bytes_eq joined
    have filled : (Effect.hexText statement).isEmpty = false := by
      apply Bool.eq_false_iff.mpr
      intro empty
      have none : Effect.hexText statement = "" := by simpa using empty
      rw [none] at read
      exact present read.symm
    have directive : statement.directive? = some .hex := rfl
    have spelled : statement.spelledBytes options.msb = bytes := by
      simp only [Statement.spelledBytes, directive, read]
    have problems : statement.spellingProblems = [] := by
      simp [Statement.spellingProblems, directive, filled, clean]
    have run : artifact = Assembly.run options [statement] :=
      lines.assemble_eq (by simp) options setting
    obtain ⟨output, reported⟩ := @Assembly.run_texts [statement] options
      (List.forall_mem_singleton.mpr ⟨rfl, rfl⟩)
    rw [run, output, reported]
    simp [spelled, problems]
  · rw [Hex.bytes, Hex.length_pairs, Hex.length_digits]

/-- Four bytes in digits that are cut into a binary number, a mnemonic and the keyword of another
directive. -/
theorem assemble_hex_mixedWords :
    let bytes : List UInt8 := [0x0B, 0x1D, 0xEC, 0xDB]
    let text := "0b1,,dEc,Db".toList
    (Scan.pieces 0 5 text).map (fun piece => (piece.lexeme, piece.kind)) =
        [("0b1", .number), (",", .comma), (",", .comma), ("dEc", .mnemonic), (",", .comma),
          ("Db", .directive (.values .byte))] ∧
      bytes ≠ [] ∧ Hex.Spells text bytes ∧
      (assemble {} {} (" HEX " ++ String.ofList text ++ "")).bytes = bytes ∧
      (assemble {} {} (" HEX " ++ String.ofList text ++ "")).diagnostics = [] ∧
      (Hex.problem? "0x1").isSome = true := by
  intro bytes text
  have spells : Hex.Spells text bytes := by decide
  obtain ⟨assembled, law⟩ := assemble_hex {} {}
  obtain ⟨output, reported⟩ := assembled bytes text "" (by decide) spells (.inl rfl)
  exact ⟨by decide +kernel, by decide, spells, output, reported,
    (law "0x1").2.mpr (.inl ⟨'x', by decide, by decide⟩)⟩

end Asm6502
