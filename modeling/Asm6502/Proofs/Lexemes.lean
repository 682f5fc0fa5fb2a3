import Asm6502.Proofs.LongestMatch

/-!
# The tokens of a text

The tokens of a text say where everything stands: `Faithful` collects what holds of them. Every line
has one end, and the text has one; places increase from token to token; a token has the characters
that stand at its place, the longest that a pattern matches there; tokens do not overlap; and a
character that is in no token starts none. Lines are scanned one by one, so the tokens of a text
that is put together from two are those of the parts, the second with higher line numbers
(`tokens_faithful`).
-/

namespace Asm6502

/-- The place comes before another one. -/
def Position.Precedes (first second : Position) : Prop :=
  first.line < second.line ∨ (first.line = second.line ∧ first.column < second.column)

/-- The token, `count` lines further down. -/
def Token.lowered (count : Nat) (token : Token) : Token :=
  { token with position := ⟨token.position.line + count, token.position.column⟩ }

/-- The line, `count` lines further down. -/
def SourceLine.lowered (count : Nat) (line : SourceLine) : SourceLine :=
  { line with number := line.number + count }

namespace Scan

/-! ### The tokens of a line -/

/-- The text of a token stands at index `i` of a line: it is the longest match there, or the line is
one comment. -/
structure StandsOn (line : List Char) (i : Nat) (text : List Char) : Prop where
  present : text ≠ []
  starts : text <+: line.drop i
  longest : (∃ pattern, Longest (line.drop i) pattern text) ∨
    (line.head? = some '*' ∧ i = 0 ∧ text = line)

theorem isEnd_kind (piece : Piece) : piece.kind.isEnd = false := by
  unfold Piece.kind
  cases piece.pattern with
  | word =>
    simp only [TokenKind.ofKeyword?]
    cases Opcode.find? piece.lexeme with
    | some opcode => rfl
    | none => cases Directive.ofKeyword? piece.lexeme <;> rfl
  | _ => rfl

theorem isEnd_firstKind (piece : Piece) (rest : List Piece) :
    (firstKind piece rest).isEnd = false := by
  simp only [firstKind]
  split
  · split
    · exact isEnd_kind piece
    · rfl
  · exact isEnd_kind piece

/-- A line is one comment, or its tokens have the places and the texts of its pieces. -/
theorem contents_cases (number : Nat) (line : List Char) :
    (line.head? = some '*' ∧ contents number line = [⟨.comment, String.ofList line, ⟨number, 1⟩⟩]) ∨
      ((contents number line).map (fun token => (token.position, token.lexeme)) =
          (pieces 0 0 line).map fun piece => (⟨number, piece.start + 1⟩, piece.lexeme)) ∧
        ∀ token ∈ contents number line, token.kind.isEnd = false := by
  unfold contents
  split
  · exact .inl ⟨rfl, rfl⟩
  · refine .inr ?_
    cases pieces 0 0 line with
    | nil => exact ⟨rfl, by simp⟩
    | cons first rest =>
      constructor
      · simp [Piece.token, Function.comp_def]
      · intro token mem
        rcases List.mem_cons.mp mem with rfl | mem
        · exact isEnd_firstKind first rest
        · obtain ⟨piece, -, rfl⟩ := List.mem_map.mp mem
          exact isEnd_kind piece

theorem standsOn_piece {line : List Char} {piece : Piece} (mem : piece ∈ pieces 0 0 line) :
    StandsOn line piece.start piece.text := by
  have longest := (cut_pieces line (Nat.zero_le _)).longest piece mem
  exact ⟨longest.fits.2.ne_nil, longest.fits.1, .inl ⟨_, longest⟩⟩

/-- A token has the characters that stand at its place. -/
theorem standsOn_contents {number : Nat} {line : List Char} {token : Token}
    (mem : token ∈ contents number line) :
    token.kind.isEnd = false ∧ token.position.line = number ∧ 1 ≤ token.position.column ∧
      StandsOn line (token.position.column - 1) token.lexeme.toList := by
  rcases contents_cases number line with ⟨star, whole⟩ | ⟨places, kinds⟩
  · rw [whole, List.mem_singleton] at mem
    subst mem
    refine ⟨rfl, rfl, Nat.le_refl _, ?_⟩
    rw [String.toList_ofList]
    refine ⟨?_, List.prefix_rfl, .inr ⟨star, rfl, rfl⟩⟩
    rintro rfl
    cases star
  · have placed : (token.position, token.lexeme) ∈
        (pieces 0 0 line).map fun piece => (⟨number, piece.start + 1⟩, piece.lexeme) :=
      places ▸ List.mem_map_of_mem mem
    obtain ⟨piece, listed, same⟩ := List.mem_map.mp placed
    obtain ⟨position, lexeme⟩ := Prod.mk.inj same
    rw [← position, ← lexeme, Piece.lexeme, String.toList_ofList]
    exact ⟨kinds token mem, rfl, Nat.le_add_left .., standsOn_piece listed⟩

/-- What stands at a place has its column, counted from its byte offset in the line. -/
theorem StandsOn.column {line text : List Char} {i : Nat} (stands : StandsOn line i text) :
    Source.column (String.ofList line) (String.ofList (line.take i)).utf8ByteSize =
      min (i + 1) Source.lastColumn := by
  have inside : i < line.length := by
    have length := stands.starts.length_le
    have positive := List.length_pos_iff.mpr stands.present
    rw [List.length_drop] at length
    omega
  have counted := Source.column_append (String.ofList (line.take i)) (String.ofList (line.drop i))
  rwa [← String.ofList_append, List.take_append_drop, String.length_ofList, List.length_take,
    Nat.min_eq_left (Nat.le_of_lt inside)] at counted

/-- The tokens of a line do not overlap. -/
theorem apart_contents (number : Nat) (line : List Char) :
    (contents number line).Pairwise fun first second =>
      first.position.column + first.lexeme.length ≤ second.position.column := by
  rcases contents_cases number line with ⟨-, whole⟩ | ⟨places, -⟩
  · rw [whole]
    exact List.pairwise_singleton ..
  · have apart : ((contents number line).map fun token => (token.position, token.lexeme)).Pairwise
        fun first second => first.1.column + first.2.length ≤ second.1.column := by
      rw [places, List.pairwise_map]
      refine (cut_pieces line (Nat.zero_le _)).pairwise.imp ?_
      intro first second apart
      rw [Piece.lexeme, String.length_ofList]
      show first.start + 1 + first.text.length ≤ second.start + 1
      omega
    exact List.pairwise_map.mp apart

/-- A character of a line is in a token, or no pattern matches at it. -/
theorem covers_contents (number : Nat) {line : List Char} {i : Nat} (inside : i < line.length) :
    (∃ token ∈ contents number line, token.position.column ≤ i + 1 ∧
        i + 1 < token.position.column + token.lexeme.length) ∨
      ∀ pattern text, ¬ Matches (line.drop i) pattern text := by
  rcases contents_cases number line with ⟨-, whole⟩ | ⟨places, -⟩
  · refine .inl ⟨_, whole ▸ List.mem_singleton_self _, Nat.le_add_left 1 i, ?_⟩
    show i + 1 < 1 + (String.ofList line).length
    rw [String.length_ofList]
    omega
  · rcases (cut_pieces line (Nat.zero_le _)).covers (Nat.zero_le i) inside with
      ⟨piece, listed, covers⟩ | free
    · have placed : ((⟨number, piece.start + 1⟩ : Position), piece.lexeme) ∈
          (contents number line).map fun token => (token.position, token.lexeme) :=
        places ▸ List.mem_map_of_mem listed
      obtain ⟨token, mem, same⟩ := List.mem_map.mp placed
      obtain ⟨position, lexeme⟩ := Prod.mk.inj same
      refine .inl ⟨token, mem, ?_⟩
      rw [position, lexeme, Piece.lexeme, String.length_ofList]
      show piece.start + 1 ≤ i + 1 ∧ i + 1 < piece.start + 1 + piece.text.length
      omega
    · exact .inr free

/-! ### The order of tokens -/

/-- A token comes before another one, without overlap if they are on one line. -/
def Before (first second : Token) : Prop :=
  first.position.Precedes second.position ∧
    (first.position.line = second.position.line →
      first.position.column + first.lexeme.length ≤ second.position.column)

theorem line_of_mem_lineTokens {line : SourceLine} {token : Token}
    (mem : token ∈ lineTokens line) : token.position.line = line.number := by
  rcases List.mem_append.mp mem with mem | mem
  · exact (standsOn_contents mem).2.1
  · rw [List.mem_singleton] at mem
    rw [mem]

/-- A token with characters comes before one on its line that starts where it ends, or later. -/
theorem before_of_apart {first second : Token} (filled : 0 < first.lexeme.length)
    (line : first.position.line = second.position.line)
    (apart : first.position.column + first.lexeme.length ≤ second.position.column) :
    Before first second :=
  ⟨.inr ⟨line, by omega⟩, fun _ => apart⟩

/-- The tokens of a line are in order, its end last. -/
theorem pairwise_lineTokens (line : SourceLine) : (lineTokens line).Pairwise Before := by
  have filled {token : Token} (mem : token ∈ contents line.number line.text.toList) :
      0 < token.lexeme.length := by
    rw [← String.length_toList]
    exact List.length_pos_iff.mpr (standsOn_contents mem).2.2.2.present
  rw [lineTokens, List.pairwise_append]
  refine ⟨?_, List.pairwise_singleton .., ?_⟩
  · refine (apart_contents line.number line.text.toList).imp_of_mem ?_
    intro first second mem mem' apart
    have same : first.position.line = second.position.line :=
      (standsOn_contents mem).2.1.trans (standsOn_contents mem').2.1.symm
    exact before_of_apart (filled mem) same apart
  · intro token mem last single
    rw [List.mem_singleton] at single
    subst single
    obtain ⟨-, number, column, stands⟩ := standsOn_contents mem
    refine before_of_apart (filled mem) number ?_
    -- the characters of the token are among those of the line
    have length := stands.starts.length_le
    rw [List.length_drop, String.length_toList, String.length_toList] at length
    have positive := filled mem
    show token.position.column + token.lexeme.length ≤ line.text.length + 1
    omega

end Scan

namespace Source

/-! ### The lines of a text -/

theorem getElem?_number (texts : List (List Char)) (i : Nat) :
    (number texts)[i]? = texts[i]?.map fun text => ⟨i + 1, String.ofList text⟩ := by
  simp [number, List.getElem?_zipIdx, Nat.add_comm, Function.comp_def]

theorem pairwise_number (texts : List (List Char)) :
    (number texts).Pairwise fun first second => first.number < second.number := by
  have numbers : (number texts).map (·.number) = List.range' 1 texts.length := by
    rw [number, List.map_map, ← List.zipIdx_map_snd]
    rfl
  exact List.pairwise_map.mp (numbers ▸ List.pairwise_lt_range')

/-- The characters of the line with a number, if the text has so many lines. -/
def LineAt (source : String) (number : Nat) (line : List Char) : Prop :=
  ∃ i, number = i + 1 ∧ (lineTexts source.toList)[i]? = some line

variable {source : String}

theorem length_number (texts : List (List Char)) : (number texts).length = texts.length := by
  simp [number]

theorem lineAt_of_mem {line : SourceLine} (mem : line ∈ lines source) :
    LineAt source line.number line.text.toList ∧ line.number ≤ (lines source).length := by
  obtain ⟨i, found⟩ := List.mem_iff_getElem?.mp mem
  have inside : i < (lines source).length := (List.getElem?_eq_some_iff.mp found).1
  rw [lines, getElem?_number, Option.map_eq_some_iff] at found
  obtain ⟨text, found, rfl⟩ := found
  refine ⟨⟨i, rfl, ?_⟩, inside⟩
  rw [String.toList_ofList]
  exact found

theorem mem_of_lineAt {n : Nat} {line : List Char} (placed : LineAt source n line) :
    ⟨n, String.ofList line⟩ ∈ lines source := by
  obtain ⟨i, rfl, found⟩ := placed
  have numbered : (lines source)[i]? = some ⟨i + 1, String.ofList line⟩ := by
    rw [lines, getElem?_number, found, Option.map_some]
  exact List.mem_of_getElem? numbered

theorem endOf_lines (source : String) :
    Scan.endOf (lines source) = ⟨(lines source).length + 1, 1⟩ := by
  have last : (lines source).getLast? = (lines source)[(lines source).length - 1]? :=
    List.getLast?_eq_getElem?
  rw [Scan.endOf, last]
  generalize count : (lines source).length = n
  cases n with
  | zero =>
    rw [List.length_eq_zero_iff] at count
    rw [count]
    rfl
  | succ n =>
    rw [lines, length_number] at count
    have inside : n < (lineTexts source.toList).length := by omega
    rw [lines, getElem?_number, Nat.add_sub_cancel, List.getElem?_eq_getElem inside]
    rfl

end Source

namespace Scan

/-- The tokens of a text are in order. -/
theorem pairwise_tokens (source : String) : (tokens source).Pairwise Before := by
  rw [tokens, tokensOfLines, List.pairwise_append, List.pairwise_flatMap]
  refine ⟨⟨fun line _ => pairwise_lineTokens line, ?_⟩, List.pairwise_singleton .., ?_⟩
  · refine (Source.pairwise_number _).imp ?_
    intro line below further first mem second mem'
    have number := line_of_mem_lineTokens mem
    have number' := line_of_mem_lineTokens mem'
    exact ⟨.inl (by omega), fun same => by omega⟩
  · intro token mem last single
    obtain ⟨line, listed, mem⟩ := List.mem_flatMap.mp mem
    have number := line_of_mem_lineTokens mem
    have bound := (Source.lineAt_of_mem listed).2
    have lower : token.position.line < last.position.line := by
      rw [List.mem_singleton] at single
      rw [single, Source.endOf_lines]
      show token.position.line < (Source.lines source).length + 1
      omega
    exact ⟨.inl lower, fun same => by omega⟩

/-! ### Where everything stands -/

/-- What the tokens of a text say about it. -/
structure Faithful (source : String) (tokens : List Token) : Prop where
  /-- Each line has one end, behind its last character. -/
  lineEnds : (tokens.filter (·.kind == .endOfLine)).map (·.position) =
    (Source.lines source).map fun line => ⟨line.number, line.text.length + 1⟩
  /-- The text has one end, which is the last token. -/
  textEnd : ∃ front last, tokens = front ++ [last] ∧ last.kind = .endOfText ∧
    ∀ token ∈ front, token.kind ≠ .endOfText
  /-- Places increase. -/
  ordered : tokens.Pairwise fun first second => first.position.Precedes second.position
  /-- Any other token has the characters that stand at its place, and its column is that of the byte
  at which they start. -/
  placed : ∀ token ∈ tokens, token.kind.isEnd = false →
    ∃ line, Source.LineAt source token.position.line line ∧ 1 ≤ token.position.column ∧
      StandsOn line (token.position.column - 1) token.lexeme.toList ∧
      Source.column (String.ofList line)
          (String.ofList (line.take (token.position.column - 1))).utf8ByteSize =
        min token.position.column Source.lastColumn
  /-- Tokens on one line do not overlap. -/
  apart : tokens.Pairwise fun first second => first.position.line = second.position.line →
    first.position.column + first.lexeme.length ≤ second.position.column
  /-- At a character that is in no token no pattern matches. -/
  covered : ∀ number line, Source.LineAt source number line → ∀ i < line.length,
    (∃ token ∈ tokens, token.position.line = number ∧ token.position.column ≤ i + 1 ∧
        i + 1 < token.position.column + token.lexeme.length) ∨
      ∀ pattern text, ¬ Matches (line.drop i) pattern text

/-- The tokens other than ends are those of the lines. -/
theorem mem_tokens_iff {source : String} {token : Token} (inner : token.kind.isEnd = false) :
    token ∈ tokens source ↔
      ∃ line ∈ Source.lines source, token ∈ contents line.number line.text.toList := by
  have other {last : Token} (ends : last.kind.isEnd = true) : token ∉ [last] := by
    intro mem
    rw [List.mem_singleton.mp mem, ends] at inner
    cases inner
  constructor
  · intro mem
    have mem := (List.mem_append.mp mem).resolve_right (other rfl)
    obtain ⟨line, listed, mem⟩ := List.mem_flatMap.mp mem
    exact ⟨line, listed, (List.mem_append.mp mem).resolve_right (other rfl)⟩
  · rintro ⟨line, listed, mem⟩
    exact List.mem_append_left _ (List.mem_flatMap.mpr ⟨line, listed, List.mem_append_left _ mem⟩)

theorem filter_lineTokens (line : SourceLine) :
    (lineTokens line).filter (·.kind == .endOfLine) =
      [⟨.endOfLine, "", ⟨line.number, line.text.length + 1⟩⟩] := by
  have none : (contents line.number line.text.toList).filter (·.kind == .endOfLine) = [] := by
    rw [List.filter_eq_nil_iff]
    intro token mem ends
    have inner := (standsOn_contents mem).1
    rw [beq_iff_eq.mp ends] at inner
    cases inner
  rw [lineTokens, List.filter_append, none]
  rfl

/-- Each line has one end. -/
theorem lineEnds_tokens (source : String) :
    ((tokens source).filter (·.kind == .endOfLine)).map (·.position) =
      (Source.lines source).map fun line => ⟨line.number, line.text.length + 1⟩ := by
  have last : ([⟨.endOfText, "", endOf (Source.lines source)⟩] : List Token).filter
      (·.kind == .endOfLine) = [] := rfl
  rw [tokens, tokensOfLines, List.filter_append, last, List.append_nil, List.filter_flatMap]
  simp only [filter_lineTokens, List.map_flatMap, List.map_cons, List.map_nil]
  exact List.map_eq_flatMap.symm

/-- No token of a line is the end of the text. -/
theorem ne_endOfText_of_mem {lines : List SourceLine} {token : Token}
    (mem : token ∈ lines.flatMap lineTokens) : token.kind ≠ .endOfText := by
  obtain ⟨line, -, mem⟩ := List.mem_flatMap.mp mem
  rcases List.mem_append.mp mem with mem | mem
  · intro ends
    have inner := (standsOn_contents mem).1
    rw [ends] at inner
    cases inner
  · rw [List.mem_singleton.mp mem]
    simp

/-- A character of a line is in a token of the text, or no pattern matches at it. -/
theorem covers_tokens {source : String} {number i : Nat} {line : List Char}
    (placed : Source.LineAt source number line) (inside : i < line.length) :
    (∃ token ∈ tokens source, token.position.line = number ∧ token.position.column ≤ i + 1 ∧
        i + 1 < token.position.column + token.lexeme.length) ∨
      ∀ pattern text, ¬ Matches (line.drop i) pattern text := by
  rcases covers_contents number inside with ⟨token, mem, covers⟩ | free
  · obtain ⟨inner, same, -, -⟩ := standsOn_contents mem
    have listed : token ∈ tokens source := by
      refine (mem_tokens_iff inner).mpr ⟨_, Source.mem_of_lineAt placed, ?_⟩
      rwa [String.toList_ofList]
    exact .inl ⟨token, listed, same, covers⟩
  · exact .inr free

end Scan

/-! ### Texts put together -/

namespace Source

/-- A text that is empty or ends in a newline keeps its lines when another one follows. -/
theorem lineTexts_append {cs : List Char} (ends : cs = [] ∨ cs.getLast? = some '\n')
    (below : List Char) : lineTexts (cs ++ below) = lineTexts cs ++ lineTexts below := by
  rcases ends with rfl | last
  · rfl
  · obtain ⟨front, rfl⟩ := List.getLast?_eq_some_iff.mp last
    have before (below : List Char) : lineTexts (front ++ '\n' :: below) =
        (front.splitOn '\n').map dropReturn ++ lineTexts below := by
      obtain ⟨start, last, pieces⟩ : ∃ start last, below.splitOn '\n' = start ++ [last] :=
        ⟨_, _, (List.dropLast_concat_getLast (List.splitOn_ne_nil '\n' below)).symm⟩
      simp only [lineTexts, List.splitOn_append_cons_self, pieces, ← List.append_assoc,
        List.dropLast_concat, List.getLast?_concat, List.map_append]
    rw [List.append_assoc, List.singleton_append, before, before [], lineTexts_nil, List.append_nil]

theorem number_append (above below : List (List Char)) :
    number (above ++ below) =
      number above ++ (number below).map (SourceLine.lowered above.length) := by
  rw [number, number, number, List.zipIdx_append, List.map_append, Nat.add_comm 1,
    ← List.map_snd_add_zipIdx_eq_zipIdx, List.map_map, List.map_map]
  rfl

theorem lines_append {source : String} (ends : source = "" ∨ source.toList.getLast? = some '\n')
    (below : String) :
    lines (source ++ below) =
      lines source ++ (lines below).map (SourceLine.lowered (lines source).length) := by
  have ends' : source.toList = [] ∨ source.toList.getLast? = some '\n' :=
    ends.imp_left fun empty => by rw [empty]; rfl
  rw [lines, String.toList_append, lineTexts_append ends', number_append, ← length_number]
  rfl

end Source

namespace Scan

theorem lineTokens_lowered (count : Nat) (line : SourceLine) :
    lineTokens (line.lowered count) = (lineTokens line).map (Token.lowered count) := by
  have inner : contents (line.number + count) line.text.toList =
      (contents line.number line.text.toList).map (Token.lowered count) := by
    unfold contents
    split
    · rfl
    · cases pieces 0 0 line.text.toList with
      | nil => rfl
      | cons first rest =>
        rw [List.map_cons, List.map_map]
        rfl
  rw [lineTokens, lineTokens, List.map_append, ← inner]
  rfl

/-- The tokens of a text that is put together are those of its parts. -/
theorem tokens_append {source : String} (ends : source = "" ∨ source.toList.getLast? = some '\n')
    (below : String) :
    tokens (source ++ below) =
      (tokens source).dropLast ++
        (tokens below).map (Token.lowered (Source.lines source).length) := by
  have last : endOf (Source.lines (source ++ below)) =
      ⟨(endOf (Source.lines below)).line + (Source.lines source).length, 1⟩ := by
    rw [Source.endOf_lines, Source.endOf_lines, Source.lines_append ends, List.length_append,
      List.length_map]
    simp only [Position.mk.injEq, and_true]
    omega
  have lower : ((Source.lines below).map
        (SourceLine.lowered (Source.lines source).length)).flatMap lineTokens =
      ((Source.lines below).flatMap lineTokens).map
        (Token.lowered (Source.lines source).length) := by
    rw [List.flatMap_map, List.map_flatMap]
    simp only [lineTokens_lowered]
  rw [tokens, tokensOfLines, last, Source.lines_append ends, List.flatMap_append, lower, tokens,
    tokensOfLines, List.dropLast_concat, tokens, tokensOfLines, List.map_append, List.append_assoc]
  rfl

/-- **The scanner loses and misplaces nothing**: the tokens of a text say where everything stands,
and the tokens of a text that another one follows, after a newline, are followed by the tokens of
the other, as many lines further down as the first text has. -/
theorem tokens_faithful (source : String) :
    Faithful source (tokens source) ∧
      ∀ below : String, (source = "" ∨ source.toList.getLast? = some '\n') →
        tokens (source ++ below) =
          (tokens source).dropLast ++
            (tokens below).map (Token.lowered (Source.lines source).length) := by
  refine ⟨⟨lineEnds_tokens source, ?_, (pairwise_tokens source).imp And.left, ?_,
    (pairwise_tokens source).imp And.right, ?_⟩, fun below ends => tokens_append ends below⟩
  · exact ⟨_, _, rfl, rfl, fun _ mem => ne_endOfText_of_mem mem⟩
  · intro token mem inner
    obtain ⟨line, listed, mem⟩ := (mem_tokens_iff inner).mp mem
    obtain ⟨-, number, column, stands⟩ := standsOn_contents mem
    refine ⟨_, number ▸ (Source.lineAt_of_mem listed).1, column, stands, ?_⟩
    rw [stands.column, Nat.sub_add_cancel column]
  · intro number line placed i inside
    exact covers_tokens placed inside

/-- A line with a character of two bytes, a zero that is no mark of a radix and a string that is not
closed, before a comment and a keyword of arrows. -/
theorem tokens_faithful_unclosedString :
    let source := "é LDA 0xG \x27A\n"
    let below := "* X\nB >>>1"
    source.toList.getLast? = some '\n' ∧ Faithful source (tokens source) ∧
      tokens (source ++ below) =
        (tokens source).dropLast ++ (tokens below).map (Token.lowered 1) ∧
      (tokens (source ++ below)).map (fun token => (token.lexeme, token.position)) = [
        ("LDA", ⟨1, 3⟩), ("0", ⟨1, 7⟩), ("xG", ⟨1, 8⟩), ("\x27A", ⟨1, 11⟩), ("", ⟨1, 13⟩),
        ("* X", ⟨2, 1⟩), ("", ⟨2, 4⟩), ("B", ⟨3, 1⟩), (">>>", ⟨3, 3⟩), ("1", ⟨3, 6⟩),
        ("", ⟨3, 7⟩), ("", ⟨4, 1⟩)] := by
  intro source below
  have ends : source.toList.getLast? = some '\n' := by decide +kernel
  have count : (Source.lines source).length = 1 := by decide +kernel
  obtain ⟨faithful, append⟩ := tokens_faithful source
  refine ⟨ends, faithful, ?_, by decide +kernel⟩
  rw [append below (.inr ends), count]

end Scan

end Asm6502
