import Asm6502.Proofs.Evaluation
import Asm6502.Proofs.LongestMatch
import Asm6502.Proofs.Numerals
import Asm6502.Proofs.OperandForms
import Asm6502.Proofs.Uppercase

/-!
# Displayed expressions read back

Messages show an expression without parentheses and without blanks. Where the tree needs no
parentheses (`Expr.isFlat`), what is shown is a source text of the expression: scanned and read, it
gives the same tree (`parse?_display`).

The printer, the scanner and the grammar meet in `Expr.Scans`: the characters of an expression are
cut into pieces that spell it, whatever stands after them, as long as that cannot continue the last
piece. This holds of atoms by a look at each kind of lexeme, of terms because a selector is no part
of the atom after it, and of chains by induction along the left side.
-/

namespace Asm6502

/-! ### Expressions without parentheses -/

namespace Name

/-- Characters that a name in upper case may start with. -/
def isStart (c : Char) : Bool := c.isUpper || c == '_'

/-- Characters that may continue a name in upper case. -/
def isPart (c : Char) : Bool := isStart c || c.isDigit || c == '.'

/-- The name is a word in upper case that is no keyword. -/
def isWritable (name : Name) : Bool :=
  name.text.toList.head?.any isStart && name.text.toList.all isPart &&
    (TokenKind.ofKeyword? name.text).isNone

end Name

namespace Expr

/-- A literal, a name, the location counter or a quoted text. -/
def isAtom : Expr → Bool
  | .literal _ | .symbol _ | .here | .quoted _ => true
  | .binary _ _ _ | .select _ _ => false

/-- An atom, or one byte of an atom. -/
def isTerm : Expr → Bool
  | .select _ inner => inner.isAtom
  | expr => expr.isAtom

/-- Selectors stand before atoms and operators before terms, so that the tree needs no
parentheses. -/
def isFlat : Expr → Bool
  | .binary _ left right => left.isFlat && right.isTerm
  | .select _ inner => inner.isAtom
  | .literal _ | .symbol _ | .here | .quoted _ => true

/-- The quoted texts of an expression. -/
def texts : Expr → List String
  | .quoted text => [text]
  | .literal _ | .symbol _ | .here => []
  | .binary _ left right => left.texts ++ right.texts
  | .select _ inner => inner.texts

/-- The tree needs no parentheses, and its names and texts can be written. -/
structure Displayable (expr : Expr) : Prop where
  flat : expr.isFlat = true
  names : ∀ name ∈ expr.reads, name.isWritable = true
  texts : ∀ text ∈ expr.texts, Text.doubleQuote ∉ text.toList ∧ '\n' ∉ text.toList

instance (expr : Expr) : Decidable expr.Displayable :=
  decidable_of_iff
    (expr.isFlat = true ∧ (∀ name ∈ expr.reads, name.isWritable = true) ∧
      ∀ text ∈ expr.texts, Text.doubleQuote ∉ text.toList ∧ '\n' ∉ text.toList)
    ⟨fun parts => ⟨parts.1, parts.2.1, parts.2.2⟩,
      fun displayable => ⟨displayable.flat, displayable.names, displayable.texts⟩⟩

end Expr

/-! ### Numerals -/

namespace Text

theorem digitIn?_hexDigit {n : Nat} (small : n < 16) : digitIn? 16 (hexDigit n) = some n := by
  have all : ∀ n < 16, digitIn? 16 (hexDigit n) = some n := by decide
  exact all n small

/-- A word has the value that its four digits are worth. -/
theorem numericValue_dollar (w : UInt16) : numericValue (dollar w) = w := by
  have bound := w.toNat_lt
  have digits : (hexWord w).filterMap (digitIn? 16) =
      [w.toNat / 4096, w.toNat / 256 % 16, w.toNat / 16 % 16, w.toNat % 16] := by
    simp only [hexWord, List.filterMap_cons, List.filterMap_nil]
    rw [digitIn?_hexDigit (by omega), digitIn?_hexDigit (by omega), digitIn?_hexDigit (by omega),
      digitIn?_hexDigit (by omega)]
  have announced : radixOf (dollar w).toList = (16, hexWord w) := by rw [toList_dollar, radixOf]
  apply UInt16.toNat_inj.mp
  rw [toNat_numericValue announced, digits, toNat_accumulate]
  simp only [List.reverse_cons, List.reverse_nil, List.nil_append, List.cons_append,
    Nat.ofDigits_cons, Nat.ofDigits_nil]
  omega

/-- A text is found again between double quotes. -/
theorem unquoteChars_quoted {text : List Char} :
    unquoteChars (doubleQuote :: (text ++ [doubleQuote])) = text := by
  have solid : trim (doubleQuote :: (text ++ [doubleQuote])) =
      doubleQuote :: (text ++ [doubleQuote]) := by
    have quote : isBlank doubleQuote = false := by decide
    simp [trim, trimStart, trimEnd, quote]
  rw [unquoteChars, solid]
  simp [dropClosing]

end Text

/-! ### Lexemes and what may follow them -/

namespace Scan

/-- A lexeme that is the longest match at its place is a piece. -/
theorem pieces_of_longest? {pattern : Pattern} {text rest : List Char} (start : Nat)
    (present : text ≠ []) (found : longest? (text ++ rest) = some (pattern, text.length)) :
    pieces 0 start (text ++ rest) =
      ⟨pattern, text, start⟩ :: pieces 0 (start + text.length) rest := by
  obtain ⟨c, cs, rfl⟩ := List.exists_cons_of_ne_nil present
  rw [List.cons_append] at found ⊢
  have after : pieces ((c :: cs).length - 1) (start + 1) (cs ++ rest) =
      pieces 0 (start + (c :: cs).length) rest := by
    rw [List.length_cons, Nat.add_sub_cancel, pieces_skip, List.drop_left, Nat.add_assoc,
      Nat.add_comm 1]
  rw [pieces, found]
  show ⟨pattern, (c :: (cs ++ rest)).take (c :: cs).length, start⟩ :: pieces _ _ _ = _
  rw [after, ← List.cons_append, List.take_left]

theorem runLength_append {p : Char → Bool} {text rest : List Char} (each : ∀ c ∈ text, p c = true)
    (stop : ∀ c ∈ rest.head?, p c = false) : runLength p (text ++ rest) = text.length := by
  have none : rest.takeWhile p = [] := by
    cases rest with
    | nil => rfl
    | cons c rest => exact List.takeWhile_cons_of_neg (by simp [stop c rfl])
  rw [runLength, List.takeWhile_append_of_pos each, none, List.append_nil]

/-- What follows an expression: nothing, or an operator. -/
def Stops (rest : List Char) : Prop := ∀ c ∈ rest.head?, ['+', '-', '*', '/'].contains c = true

theorem stops_nil : Stops [] := by
  intro c mem
  cases mem

theorem stops_operator (op : Operator) (rest : List Char) : Stops (op.symbol.toList ++ rest) := by
  intro c mem
  cases op <;> cases mem <;> rfl

/-- An operator character continues no word and no numeral. -/
theorem Stops.head {rest : List Char} (stops : Stops rest) :
    ∀ c ∈ rest.head?, isWordPart c = false ∧ Text.isDigitIn 16 c = false := by
  have all : ['+', '-', '*', '/'].all (fun c => !isWordPart c && !Text.isDigitIn 16 c) = true := by
    decide
  intro c mem
  have listed := List.contains_iff_mem.mp (stops c mem)
  simpa using List.all_eq_true.mp all c listed

theorem longest?_dollar (w : UInt16) {rest : List Char} (stops : Stops rest) :
    longest? (('$' :: Text.hexWord w) ++ rest) = some (.number, 5) := by
  have bound := w.toNat_lt
  have digit {n : Nat} (small : n < 16) : Text.isDigitIn 16 (Text.hexDigit n) = true := by
    rw [Text.isDigitIn, Text.digitIn?_hexDigit small]
    rfl
  have each : ∀ c ∈ Text.hexWord w, Text.isDigitIn 16 c = true := by
    intro c mem
    simp only [Text.hexWord, List.mem_cons, List.not_mem_nil, or_false] at mem
    rcases mem with rfl | rfl | rfl | rfl
    · exact digit (by omega)
    · exact digit (by omega)
    · exact digit (by omega)
    · exact digit (by omega)
  have run := runLength_append each fun c mem => (stops.head c mem).2
  rw [List.cons_append, longest?_of_numberStarts (by decide)]
  simp [numberLength?, digitsAfter?, run]

theorem longest?_word_of_stop {c : Char} {cs rest : List Char} (start : isWordStart c = true)
    (parts : ∀ c ∈ cs, isWordPart c = true) (stop : ∀ c ∈ rest.head?, isWordPart c = false) :
    longest? ((c :: cs) ++ rest) = some (.word, (c :: cs).length) := by
  have run := runLength_append parts stop
  simp [longest?, start, run, Nat.add_comm]

theorem longest?_word {c : Char} {cs rest : List Char} (start : isWordStart c = true)
    (parts : ∀ c ∈ cs, isWordPart c = true) (stops : Stops rest) :
    longest? ((c :: cs) ++ rest) = some (.word, (c :: cs).length) :=
  longest?_word_of_stop start parts fun c mem => (stops.head c mem).1

theorem longest?_quoted {text : List Char} (free : Text.doubleQuote ∉ text) (rest : List Char) :
    longest? ((Text.doubleQuote :: (text ++ [Text.doubleQuote])) ++ rest) =
      some (.quoted, (Text.doubleQuote :: (text ++ [Text.doubleQuote])).length) := by
  have closed := quotedLength_closed free rest
  have quote : isWordStart Text.doubleQuote = false ∧ (Text.doubleQuote == '>') = false := by
    decide
  simp [longest?, quote, closed, Nat.add_comm]

theorem longest?_operator (op : Operator) (rest : List Char) :
    longest? (op.symbol.toList ++ rest) = some (.operator, op.symbol.toList.length) := by
  cases op <;> rfl

/-- A selector is an operator unless it is one of the arrows of a keyword. -/
theorem longest?_select (part : ByteSelect) {rest : List Char} (other : rest.head? ≠ some '>') :
    longest? (part.symbol.toList ++ rest) = some (.operator, part.symbol.toList.length) := by
  cases part with
  | low => rfl
  | high =>
    have single : (rest.take 2 == ['>', '>']) = false := by
      cases rest with
      | nil => rfl
      | cons c rest =>
        have different : c ≠ '>' := by simpa using other
        simp [different]
    show longest? ('>' :: rest) = some (.operator, 1)
    have plain : isWordStart '>' = false := by decide
    have listed : isOperatorChar '>' = true := by decide
    simp [longest?, plain, listed, single, Text.doubleQuote, Text.singleQuote]

end Scan

/-! ### Names -/

namespace Name

theorem isWordStart_of_isStart {c : Char} (start : isStart c = true) :
    Scan.isWordStart c = true := by
  simp only [isStart, Bool.or_eq_true] at start
  show (c.isUpper || c.isLower || c == '_') = true
  simp only [Bool.or_eq_true]
  tauto

theorem isWordPart_of_isPart {c : Char} (part : isPart c = true) : Scan.isWordPart c = true := by
  simp only [isPart, isStart, Bool.or_eq_true] at part
  show (c.isUpper || c.isLower || c.isDigit || c == '_' || c == '.') = true
  simp only [Bool.or_eq_true]
  tauto

/-- The characters of a name in upper case have no other form. -/
theorem toUpper_of_isPart {c : Char} (part : isPart c = true) : c.toUpper = c := by
  have lower : Text.lowerLetters.all (fun c => !isPart c) = true := by decide
  rcases Text.toUpper_eq_or_mem c with same | letter
  · exact same
  · have other := List.all_eq_true.mp lower c letter
    simp [part] at other

/-- The characters of a name that can be written are a word, which is the name again and no
keyword. -/
theorem word_of_isWritable {name : Name} (writable : name.isWritable = true) :
    ∃ c cs, name.text.toList = c :: cs ∧ Scan.isWordStart c = true ∧
      (∀ c ∈ cs, Scan.isWordPart c = true) ∧ ofText name.text = name ∧
      TokenKind.ofKeyword? name.text = none := by
  simp only [isWritable, Bool.and_eq_true, List.all_eq_true, Option.isNone_iff_eq_none] at writable
  obtain ⟨⟨start, parts⟩, unknown⟩ := writable
  have same : ofText name.text = name := by
    have chars : name.text.toList.map Char.toUpper = name.text.toList := by
      rw [List.map_congr_left fun c mem => toUpper_of_isPart (parts c mem), List.map_id']
    rw [ofText, Text.upper, chars, String.ofList_toList]
  cases text : name.text.toList with
  | nil => simp [text] at start
  | cons c cs =>
    rw [text] at start parts
    refine ⟨c, cs, rfl, isWordStart_of_isStart start, ?_, same, unknown⟩
    intro d mem
    exact isWordPart_of_isPart (parts d (List.mem_cons_of_mem c mem))

end Name

/-! ### From characters to trees -/

namespace Expr

/-- The characters of the expression are cut into pieces that spell it, whatever stops after
them. -/
def Scans (spells : List Token → Expr → Prop) (expr : Expr) : Prop :=
  ∀ (start : Nat) (rest : List Char), Scan.Stops rest →
    ∃ cut : List Scan.Piece,
      Scan.pieces 0 start (expr.display.toList ++ rest) =
        cut ++ Scan.pieces 0 (start + expr.display.toList.length) rest ∧
      ∀ number, spells (cut.map fun piece => piece.token number piece.kind) expr

/-- An expression whose characters are one lexeme is scanned if the token of the lexeme spells
it. -/
theorem scans_of_lexeme {expr : Expr} (pattern : Scan.Pattern)
    (present : expr.display.toList ≠ [])
    (found : ∀ rest, Scan.Stops rest → Scan.longest? (expr.display.toList ++ rest) =
      some (pattern, expr.display.toList.length))
    (spelled : ∀ token : Token, token.lexeme = expr.display →
      token.kind = Scan.Piece.kind ⟨pattern, expr.display.toList, 0⟩ → SpellsAtom [token] expr) :
    Scans SpellsAtom expr := by
  intro start rest stops
  refine ⟨[⟨pattern, expr.display.toList, start⟩], ?_, ?_⟩
  · rw [Scan.pieces_of_longest? start present (found rest stops)]
    rfl
  · intro number
    exact spelled _ String.ofList_toList rfl

theorem scans_literal (value : UInt16) : Scans SpellsAtom (.literal value) := by
  apply scans_of_lexeme .number
  · simp [display]
  · intro rest stops
    simpa [display] using Scan.longest?_dollar value stops
  · intro token lexeme kind
    have spelled : SpellsAtom [token] (.literal (Text.numericValue token.lexeme)) := .number kind
    rwa [lexeme, display, Text.numericValue_dollar] at spelled

theorem scans_symbol {name : Name} (writable : name.isWritable = true) :
    Scans SpellsAtom (.symbol name) := by
  obtain ⟨c, cs, text, start, parts, same, unknown⟩ := Name.word_of_isWritable writable
  apply scans_of_lexeme .word
  · simp [display, text]
  · intro rest stops
    rw [display, text]
    exact Scan.longest?_word start parts stops
  · intro token lexeme kind
    have symbol : token.kind = .symbol := by
      rw [kind, display, Scan.Piece.kind, Scan.Piece.lexeme, String.ofList_toList, unknown]
      rfl
    have spelled : SpellsAtom [token] (.symbol (.ofText token.lexeme)) := .name (.inl symbol)
    rwa [lexeme, display, same] at spelled

theorem scans_here : Scans SpellsAtom .here := by
  apply scans_of_lexeme .operator
  · simp [display]
  · intro rest stops
    exact Scan.longest?_operator .mul rest
  · intro token lexeme kind
    exact .here (isOperator_iff.mpr ⟨kind, lexeme⟩)

theorem scans_quoted {text : String} (free : Text.doubleQuote ∉ text.toList) :
    Scans SpellsAtom (.quoted text) := by
  have chars : (display (.quoted text)).toList =
      Text.doubleQuote :: (text.toList ++ [Text.doubleQuote]) := by
    simp [display, Text.doubleQuote]
  apply scans_of_lexeme .quoted
  · simp [chars]
  · intro rest stops
    rw [chars]
    exact Scan.longest?_quoted free rest
  · intro token lexeme kind
    have spelled : SpellsAtom [token] (.quoted (Text.unquote token.lexeme)) := .string kind
    rwa [lexeme, Text.unquote, chars, Text.unquoteChars_quoted, String.ofList_toList] at spelled

/-! ### Parts of displayable expressions -/

theorem isFlat_of_isTerm {expr : Expr} (term : expr.isTerm = true) : expr.isFlat = true := by
  cases expr with
  | literal | symbol | here | quoted => rfl
  | binary => cases term
  | select part inner => exact term

theorem isTerm_of_isAtom {expr : Expr} (atom : expr.isAtom = true) : expr.isTerm = true := by
  cases expr with
  | literal | symbol | here | quoted => rfl
  | binary | select => cases atom

/-- The two sides of an operator are displayable, and the right one is a term. -/
theorem Displayable.sides {op : Operator} {left right : Expr}
    (displayable : (binary op left right).Displayable) :
    left.Displayable ∧ right.Displayable ∧ right.isTerm = true := by
  obtain ⟨flat, names, texts⟩ := displayable
  simp only [isFlat, Bool.and_eq_true] at flat
  simp only [reads, List.mem_append] at names
  simp only [Expr.texts, List.mem_append] at texts
  refine ⟨⟨flat.1, fun name mem => names name (.inl mem), fun text mem => texts text (.inl mem)⟩,
    ⟨isFlat_of_isTerm flat.2, fun name mem => names name (.inr mem),
      fun text mem => texts text (.inr mem)⟩, flat.2⟩

/-- What a selector stands before is displayable, and an atom. -/
theorem Displayable.inner {part : ByteSelect} {inner : Expr}
    (displayable : (select part inner).Displayable) :
    inner.Displayable ∧ inner.isAtom = true :=
  ⟨⟨isFlat_of_isTerm (isTerm_of_isAtom displayable.flat), displayable.names, displayable.texts⟩,
    displayable.flat⟩

/-! ### Atoms, terms and chains -/

theorem Displayable.scans_atom {expr : Expr} (displayable : expr.Displayable)
    (atom : expr.isAtom = true) : Scans SpellsAtom expr := by
  cases expr with
  | literal value => exact scans_literal value
  | symbol name => exact scans_symbol (displayable.names name (by simp [reads]))
  | here => exact scans_here
  | quoted text => exact scans_quoted (displayable.texts text (by simp [Expr.texts])).1
  | binary | select => cases atom

/-- The first character of an atom is no arrow. -/
theorem Displayable.head_ne {expr : Expr} (displayable : expr.Displayable)
    (atom : expr.isAtom = true) (rest : List Char) :
    (expr.display.toList ++ rest).head? ≠ some '>' := by
  cases expr with
  | literal value => simp [display]
  | symbol name =>
    obtain ⟨c, cs, text, start, -⟩ :=
      Name.word_of_isWritable (displayable.names name (by simp [reads]))
    rw [display, text]
    intro arrow
    obtain rfl : c = '>' := by simpa using arrow
    exact absurd start (by decide)
  | here => simp [display]
  | quoted text => simp [display]
  | binary | select => cases atom

/-- A selector is no part of the atom after it. -/
theorem Scans.select {inner : Expr} (part : ByteSelect) (scans : Scans SpellsAtom inner)
    (other : ∀ rest, (inner.display.toList ++ rest).head? ≠ some '>') :
    Scans SpellsTerm (.select part inner) := by
  intro start rest stops
  have chars : (display (.select part inner)).toList =
      part.symbol.toList ++ inner.display.toList := by
    rw [display, String.toList_append]
  have single : part.symbol.toList ≠ [] := by cases part <;> simp [ByteSelect.symbol]
  obtain ⟨cut, pieces, spelled⟩ := scans (start + part.symbol.toList.length) rest stops
  refine ⟨⟨.operator, part.symbol.toList, start⟩ :: cut, ?_, fun number => ?_⟩
  · rw [chars, List.append_assoc,
      Scan.pieces_of_longest? start single (Scan.longest?_select part (other rest)), pieces,
      List.length_append, ← Nat.add_assoc, List.cons_append]
  · exact .select (isOperator_iff.mpr ⟨rfl, String.ofList_toList⟩) (spelled number)

theorem Displayable.scans_term {expr : Expr} (displayable : expr.Displayable)
    (term : expr.isTerm = true) : Scans SpellsTerm expr := by
  have single (atom : expr.isAtom = true) : Scans SpellsTerm expr := by
    intro start rest stops
    obtain ⟨cut, pieces, spelled⟩ := displayable.scans_atom atom start rest stops
    exact ⟨cut, pieces, fun number => .atom (spelled number)⟩
  cases expr with
  | literal | symbol | here | quoted => exact single rfl
  | binary => cases term
  | select part inner =>
    obtain ⟨displayable, atom⟩ := displayable.inner
    exact (displayable.scans_atom atom).select part (displayable.head_ne atom)

/-- Operators and terms can be extended by one more of each. -/
theorem SpellsTail.concat {tokens more : List Token} {links : List (Operator × Expr)}
    {token : Token} {op : Operator} {right : Expr} (tail : SpellsTail tokens links)
    (operator : token.isOperator op.symbol = true) (term : SpellsTerm more right) :
    SpellsTail (tokens ++ token :: more) (links ++ [(op, right)]) := by
  match tail with
  | .nil =>
    have last : SpellsTail (token :: (more ++ [])) [(op, right)] := .cons operator term .nil
    rwa [List.append_nil] at last
  | @SpellsTail.cons first tokens others _ _ _ operator' term' tail =>
    have longer := SpellsTail.cons operator' term' (tail.concat operator term)
    simpa using longer

/-- A chain can be extended by an operator and a term. -/
theorem Spells.extend {tokens more : List Token} {left right : Expr} {token : Token}
    {op : Operator} (spelled : Spells tokens left) (operator : token.isOperator op.symbol = true)
    (term : SpellsTerm more right) : Spells (tokens ++ token :: more) (.binary op left right) := by
  match spelled with
  | @Spells.chain first others start links term' tail =>
    have longer := Spells.chain term' (tail.concat operator term)
    rwa [List.foldl_append, ← List.append_assoc] at longer

/-- A term after an operator extends what is scanned before. -/
theorem Scans.binary {left right : Expr} (op : Operator) (scans : Scans Spells left)
    (term : Scans SpellsTerm right) : Scans Spells (.binary op left right) := by
  intro start rest stops
  have chars : (display (.binary op left right)).toList =
      left.display.toList ++ (op.symbol.toList ++ right.display.toList) := by
    rw [display, String.toList_append, String.toList_append, List.append_assoc]
  have single : op.symbol.toList ≠ [] := by cases op <;> simp [Operator.symbol]
  obtain ⟨cut, pieces, spelled⟩ := scans start
    (op.symbol.toList ++ (right.display.toList ++ rest)) (Scan.stops_operator op _)
  obtain ⟨cut', pieces', spelled'⟩ :=
    term (start + left.display.toList.length + op.symbol.toList.length) rest stops
  refine ⟨cut ++ ⟨.operator, op.symbol.toList, start + left.display.toList.length⟩ :: cut', ?_,
    fun number => ?_⟩
  · rw [chars, List.append_assoc, List.append_assoc, pieces,
      Scan.pieces_of_longest? _ single (Scan.longest?_operator op _), pieces', List.length_append,
      List.length_append]
    simp only [List.append_assoc, List.cons_append, Nat.add_assoc]
  · rw [List.map_append, List.map_cons]
    exact (spelled number).extend (isOperator_iff.mpr ⟨rfl, String.ofList_toList⟩) (spelled' number)

theorem Displayable.scans_of_isTerm {expr : Expr} (displayable : expr.Displayable)
    (term : expr.isTerm = true) : Scans Spells expr := by
  intro start rest stops
  obtain ⟨cut, pieces, spelled⟩ := displayable.scans_term term start rest stops
  refine ⟨cut, pieces, fun number => ?_⟩
  have chain := Spells.chain (spelled number) .nil
  rwa [List.append_nil] at chain

/-- **The scanner inverts the printer**: the characters of a displayable expression are cut into
tokens that spell it. -/
theorem Displayable.scans {expr : Expr} (displayable : expr.Displayable) : Scans Spells expr := by
  induction expr with
  | literal | symbol | here | quoted => exact displayable.scans_of_isTerm rfl
  | select part inner => exact displayable.scans_of_isTerm displayable.flat
  | binary op left right ih =>
    obtain ⟨first, second, term⟩ := displayable.sides
    exact (ih first).binary op (second.scans_term term)

/-- What is displayed stands on one line. -/
theorem Displayable.unbroken {expr : Expr} (displayable : expr.Displayable) :
    '\n' ∉ expr.display.toList := by
  induction expr with
  | literal value =>
    have bound := value.toNat_lt
    have digit {n : Nat} (small : n < 16) : '\n' ≠ Text.hexDigit n := by
      have all : ∀ n < 16, '\n' ≠ Text.hexDigit n := by decide
      exact all n small
    simp only [display, Text.toList_dollar, Text.hexWord, List.mem_cons, List.not_mem_nil,
      or_false, not_or]
    exact ⟨by decide, digit (by omega), digit (by omega), digit (by omega), digit (by omega)⟩
  | symbol name =>
    obtain ⟨c, cs, text, start, parts, -⟩ :=
      Name.word_of_isWritable (displayable.names name (by simp [reads]))
    rw [display, text]
    intro mem
    rcases List.mem_cons.mp mem with rfl | mem
    · exact absurd start (by decide)
    · exact absurd (parts _ mem) (by decide)
  | here => simp [display]
  | quoted text => simpa [display] using (displayable.texts text (by simp [Expr.texts])).2
  | select part inner ih =>
    have symbol : '\n' ∉ part.symbol.toList := by cases part <;> simp [ByteSelect.symbol]
    rw [display, String.toList_append, List.mem_append, not_or]
    exact ⟨symbol, ih displayable.inner.1⟩
  | binary op left right ih ih' =>
    have symbol : '\n' ∉ op.symbol.toList := by cases op <;> simp [Operator.symbol]
    obtain ⟨first, second, -⟩ := displayable.sides
    simp only [display, String.toList_append, List.mem_append, not_or]
    exact ⟨⟨ih first, symbol⟩, ih' second⟩

end Expr

/-! ### One line of source -/

/-- A text without a newline is one line. -/
theorem Source.lines_of_unbroken {source : String} (present : source ≠ "")
    (unbroken : '\n' ∉ source.toList) : lines source = [⟨1, source⟩] := by
  have filled : source.toList ≠ [] := fun none => present (String.toList_eq_nil_iff.mp none)
  have texts : lineTexts source.toList = [source.toList] := by
    simp [lineTexts, List.splitOn_eq_singleton unbroken, filled]
  simp [lines, texts, number]

namespace Scan

/-- After a blank no piece stands in column one, so that each token is what its piece is. -/
theorem contents_of_blank (number : Nat) (cs : List Char) :
    contents number (' ' :: cs) =
      (pieces 0 1 cs).map fun piece => piece.token number piece.kind := by
  have blank : pieces 0 0 (' ' :: cs) = pieces 0 1 cs := rfl
  have starts : ∀ piece ∈ pieces 0 1 cs, 1 ≤ piece.start :=
    (cut_pieces (' ' :: cs) (Nat.le_add_left 1 _)).start_le
  rw [contents, blank]
  · cases found : pieces 0 1 cs with
    | nil => rfl
    | cons first rest =>
      have inside : first.start ≠ 0 := by
        have least := starts first (by simp [found])
        omega
      have kind : firstKind first rest = first.kind := if_neg fun column => inside column.1
      show first.token number (firstKind first rest) :: _ = _
      rw [kind, List.map_cons]
  · intro rest star
    cases star

/-- The tokens of a line that starts with a blank. -/
theorem tokens_of_blank {text : String} (unbroken : '\n' ∉ text.toList) :
    ∃ last : List Token, (∀ token ∈ last, token.kind.isEnd = true) ∧
      tokens (" " ++ text) =
        (pieces 0 1 text.toList).map (fun piece => piece.token 1 piece.kind) ++ last := by
  have chars : (" " ++ text).toList = ' ' :: text.toList := by simp
  have line : Source.lines (" " ++ text) = [⟨1, " " ++ text⟩] := by
    apply Source.lines_of_unbroken
    · intro none
      simp [none] at chars
    · simpa [chars] using unbroken
  refine ⟨[⟨.endOfLine, "", ⟨1, (" " ++ text).length + 1⟩⟩, ⟨.endOfText, "", ⟨2, 1⟩⟩], ?_, ?_⟩
  · simp [TokenKind.isEnd]
  · rw [tokens, line, tokensOfLines, List.flatMap_singleton, lineTokens, chars, contents_of_blank,
      List.append_assoc]
    rfl

end Scan

namespace Expr

/-- **Displayed expressions read back**: an expression that needs no parentheses, whose names can be
written and whose texts have no quotes and no newlines in them, is what its display reads as. -/
theorem parse?_display (expr : Expr) (displayable : expr.Displayable) :
    parse? (Scan.tokens (" " ++ expr.display)) = some expr := by
  obtain ⟨last, ends, tokens⟩ := Scan.tokens_of_blank displayable.unbroken
  obtain ⟨cut, pieces, spelled⟩ := displayable.scans 1 [] Scan.stops_nil
  have all : Scan.pieces 0 1 expr.display.toList = cut := by
    simpa [Scan.pieces] using pieces
  have stop : ∀ token ∈ last.head?, operator? token = none := by
    intro token mem
    apply operator?_of_kind
    intro kind
    have ended := ends token (List.mem_of_mem_head? mem)
    rw [kind] at ended
    cases ended
  rw [tokens, all, parse?, (spelled 1).read_of_stop stop]
  rfl

/-- In `**>*-">>>"/_A.1` the asterisks are the location counter, a product and the location counter
again, and the arrows in quotes are no keyword. -/
theorem parse?_display_counters :
    let expr : Expr :=
      .binary .div (.binary .sub (.binary .mul .here (.select .high .here)) (.quoted ">>>"))
        (.symbol ⟨"_A.1"⟩)
    expr.display = "**>*-\">>>\"/_A.1" ∧ expr.Displayable ∧
      parse? (Scan.tokens (" " ++ expr.display)) = some expr := by
  intro expr
  have displayable : expr.Displayable := by decide +kernel
  exact ⟨by decide, displayable, parse?_display expr displayable⟩

end Expr

end Asm6502
