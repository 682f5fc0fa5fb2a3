import Asm6502.Proofs.Numerals
import Asm6502.Token.Scan

/-!
# The longest match

`Accepts pattern text` says which texts a pattern of tokens stands for, without regard to what
follows them. The scanner takes, at each place of a line, the longest text that some pattern accepts
there, and passes over a character only if no pattern accepts a text that starts at it
(`longest?_eq_some`, `longest?_eq_none`). So it cuts a line into pieces and gaps (`Cut`,
`cut_pieces`), from which follow the facts about pieces: each is the text at its place, they are in
order and do not overlap, and what they leave out starts no token.
-/

namespace Asm6502.Scan

/-! ### Patterns -/

/-- What may stand before the digits of a number, with the radix of the digits: the mark of a radix,
or nothing before decimal digits. -/
def leads : List (List Char × Nat) :=
  (Text.radixMarks.map fun entry => (entry.1.toList, entry.2)) ++ [([], 10)]

theorem leads_eq :
    leads = [(['$'], 16), (['0', 'x'], 16), (['0', 'X'], 16), (['%'], 2), (['0', 'b'], 2),
      (['0', 'B'], 2), (['@'], 8), ([], 10)] := by decide

/-- The texts that a pattern stands for. -/
inductive Accepts : Pattern → List Char → Prop where
  /-- A letter or an underscore, then letters, digits, underscores and points. -/
  | word {c : Char} {cs : List Char} (start : isWordStart c = true)
      (parts : ∀ c ∈ cs, isWordPart c = true) : Accepts .word (c :: cs)
  /-- The keyword that is written with arrows. -/
  | arrows : Accepts .word ['>', '>', '>']
  /-- Digits, with the mark of their radix before them. -/
  | number {mark digits : List Char} {radix : Nat} (marked : (mark, radix) ∈ leads)
      (present : digits ≠ []) (each : ∀ c ∈ digits, Text.isDigitIn radix c = true) :
      Accepts .number (mark ++ digits)
  /-- Characters between two quotes. -/
  | closed {quote : Char} {inside : List Char}
      (opens : quote = Text.doubleQuote ∨ quote = Text.singleQuote) (free : quote ∉ inside) :
      Accepts .quoted (quote :: inside ++ [quote])
  /-- Characters after a quote that is not closed. -/
  | unclosed {quote : Char} {inside : List Char}
      (opens : quote = Text.doubleQuote ∨ quote = Text.singleQuote) (free : quote ∉ inside) :
      Accepts .quoted (quote :: inside)
  /-- Any characters after a semicolon. -/
  | comment (cs : List Char) : Accepts .comment (';' :: cs)
  | comma : Accepts .comma [',']
  | colon : Accepts .colon [':']
  | leftParen : Accepts .leftParen ['(']
  | rightParen : Accepts .rightParen [')']
  | operator {c : Char} (listed : isOperatorChar c = true) : Accepts .operator [c]

theorem Accepts.ne_nil {pattern : Pattern} {text : List Char} (accepts : Accepts pattern text) :
    text ≠ [] := by
  cases accepts with
  | number _ present _ =>
    intro empty
    exact present (List.append_eq_nil_iff.mp empty).2
  | _ => simp

/-- A pattern accepts a text that the characters start with. -/
def Matches (cs : List Char) (pattern : Pattern) (text : List Char) : Prop :=
  text <+: cs ∧ Accepts pattern text

/-- A pattern accepts a text that the characters start with, and no pattern accepts a longer one. -/
structure Longest (cs : List Char) (pattern : Pattern) (text : List Char) : Prop where
  fits : Matches cs pattern text
  longest : ∀ other longer, Matches cs other longer → longer.length ≤ text.length

/-! ### Runs of characters -/

theorem take_runLength (p : Char → Bool) (cs : List Char) :
    cs.take (runLength p cs) = cs.takeWhile p :=
  (List.prefix_iff_eq_take.mp (List.takeWhile_prefix p)).symm

theorem runLength_le (p : Char → Bool) (cs : List Char) : runLength p cs ≤ cs.length :=
  (List.takeWhile_prefix p).length_le

/-- A run is at least as long as any text of such characters at the start. -/
theorem length_le_runLength {p : Char → Bool} {text cs : List Char} (starts : text <+: cs)
    (each : ∀ c ∈ text, p c = true) : text.length ≤ runLength p cs := by
  obtain ⟨rest, rfl⟩ := starts
  rw [runLength, List.takeWhile_append_of_pos each, List.length_append]
  exact Nat.le_add_right ..

theorem all_takeWhile {p : Char → Bool} {cs : List Char} : ∀ c ∈ cs.takeWhile p, p c = true :=
  List.all_eq_true.mp List.all_takeWhile

/-! ### Numbers -/

theorem digitsAfter?_eq_some {lead radix n : Nat} {cs : List Char}
    (found : digitsAfter? lead radix cs = some n) :
    ∃ digits, digits <+: cs ∧ digits ≠ [] ∧ (∀ c ∈ digits, Text.isDigitIn radix c = true) ∧
      n = lead + digits.length := by
  simp only [digitsAfter?] at found
  split at found
  · cases found
  · rename_i present
    refine ⟨cs.takeWhile (Text.isDigitIn radix), List.takeWhile_prefix _, ?_, all_takeWhile, ?_⟩
    · exact fun empty => present (by rw [runLength, empty]; rfl)
    · exact (Option.some.inj found).symm

theorem exists_digitsAfter? {radix : Nat} {digits cs : List Char} (lead : Nat)
    (starts : digits <+: cs) (present : digits ≠ [])
    (each : ∀ c ∈ digits, Text.isDigitIn radix c = true) :
    ∃ n, digitsAfter? lead radix cs = some n ∧ lead + digits.length ≤ n := by
  have length := length_le_runLength starts each
  have positive := List.length_pos_iff.mpr present
  refine ⟨lead + runLength (Text.isDigitIn radix) cs, ?_, by omega⟩
  rw [digitsAfter?, if_neg (by omega)]

/-- A mark and the digits after it are a number. -/
theorem accepts_digitsAfter? {cs : List Char} {n : Nat} (mark : List Char) (radix : Nat)
    (marked : (mark, radix) ∈ leads)
    (found : digitsAfter? mark.length radix cs = some n) :
    n ≤ (mark ++ cs).length ∧ Accepts .number ((mark ++ cs).take n) := by
  obtain ⟨digits, ⟨rest, rfl⟩, present, each, rfl⟩ := digitsAfter?_eq_some found
  have written :
      (mark ++ (digits ++ rest)).take (mark.length + digits.length) = mark ++ digits := by
    rw [← List.append_assoc, ← List.length_append, List.take_left]
  refine ⟨by simp, ?_⟩
  rw [written]
  exact .number marked present each

/-- A zero and a letter before digits are the mark of a radix. -/
theorem exists_mark {c : Char} {cs : List Char} {n : Nat}
    (found : (if c == 'x' || c == 'X' then digitsAfter? 2 16 cs
      else if c == 'b' || c == 'B' then digitsAfter? 2 2 cs else none) = some n) :
    ∃ radix, (['0', c], radix) ∈ leads ∧ digitsAfter? 2 radix cs = some n := by
  split at found
  · rename_i letter
    simp only [Bool.or_eq_true, beq_iff_eq] at letter
    refine ⟨16, ?_, found⟩
    rcases letter with rfl | rfl <;> decide
  · split at found
    · rename_i letter
      simp only [Bool.or_eq_true, beq_iff_eq] at letter
      refine ⟨2, ?_, found⟩
      rcases letter with rfl | rfl <;> decide
    · cases found

/-- The length of a number is that of a text which is a number. -/
theorem accepts_numberLength? {cs : List Char} {n : Nat} (found : numberLength? cs = some n) :
    n ≤ cs.length ∧ Accepts .number (cs.take n) := by
  unfold numberLength? at found
  split at found
  · exact accepts_digitsAfter? ['$'] 16 (by decide) found
  · exact accepts_digitsAfter? ['%'] 2 (by decide) found
  · exact accepts_digitsAfter? ['@'] 8 (by decide) found
  · rename_i c cs
    simp only [Option.orElse_eq_orElse, Option.orElse_eq_or, Option.or_eq_some_iff] at found
    rcases found with marked | ⟨-, plain⟩
    · obtain ⟨radix, mark, found⟩ := exists_mark marked
      exact accepts_digitsAfter? ['0', c] radix mark found
    · exact accepts_digitsAfter? [] 10 (by decide) plain
  · exact accepts_digitsAfter? [] 10 (by decide) found

/-- Digits after a mark are found, whatever follows them. -/
theorem numberLength?_of_mark {mark cs : List Char} {radix n : Nat}
    (marked : (mark, radix) ∈ leads) (long : mark ≠ [])
    (found : digitsAfter? mark.length radix cs = some n) :
    numberLength? (mark ++ cs) = some n := by
  simp only [leads_eq, List.mem_cons, Prod.mk.injEq, List.not_mem_nil, long, false_and,
    or_false] at marked
  rcases marked with ⟨rfl, rfl⟩ | ⟨rfl, rfl⟩ | ⟨rfl, rfl⟩ | ⟨rfl, rfl⟩ | ⟨rfl, rfl⟩ | ⟨rfl, rfl⟩ |
    ⟨rfl, rfl⟩
  all_goals
    simp only [List.length_cons, List.length_nil, Nat.zero_add, Nat.reduceAdd] at found
    simp [numberLength?, found]

/-- Decimal digits are found, unless they are a zero that belongs to the mark of another radix. -/
theorem exists_numberLength?_of_digits {digits cs : List Char} (starts : digits <+: cs)
    (present : digits ≠ []) (each : ∀ c ∈ digits, Text.isDigitIn 10 c = true) :
    ∃ n, numberLength? cs = some n ∧ digits.length ≤ n := by
  obtain ⟨n, plain, length⟩ := exists_digitsAfter? 0 starts present each
  rw [Nat.zero_add] at length
  have head (c : Char) (rest : List Char) (same : cs = c :: rest) :
      Text.isDigitIn 10 c = true := by
    obtain ⟨digit, further, rfl⟩ := List.exists_cons_of_ne_nil present
    obtain ⟨after, rfl⟩ := starts
    exact (List.cons.inj same).1 ▸ each digit List.mem_cons_self
  unfold numberLength?
  split
  · exact absurd (head '$' _ rfl) (by decide)
  · exact absurd (head '%' _ rfl) (by decide)
  · exact absurd (head '@' _ rfl) (by decide)
  · rename_i c rest
    cases marked : (if c == 'x' || c == 'X' then digitsAfter? 2 16 rest
        else if c == 'b' || c == 'B' then digitsAfter? 2 2 rest else none) with
    | none => exact ⟨n, plain, length⟩
    | some m =>
      refine ⟨m, rfl, ?_⟩
      obtain ⟨radix, mark, found⟩ := exists_mark marked
      obtain ⟨_, _, _, _, rfl⟩ := digitsAfter?_eq_some found
      -- the letter is no decimal digit, so the zero before it is the only one
      have letter : Text.isDigitIn 10 c = false := by
        simp only [leads_eq, List.mem_cons, Prod.mk.injEq, List.cons.injEq, and_true, true_and,
          List.not_mem_nil, or_false, reduceCtorEq, and_false, false_and, false_or] at mark
        rcases mark with ⟨rfl, -⟩ | ⟨rfl, -⟩ | ⟨rfl, -⟩ | ⟨rfl, -⟩ <;> decide
      have run := length_le_runLength starts each
      rw [runLength, List.takeWhile_cons_of_pos (by decide),
        List.takeWhile_cons_of_neg (by simp [letter])] at run
      simp only [List.length_cons, List.length_nil] at run
      omega
  · exact ⟨n, plain, length⟩

/-- A text that starts with a number has a number at least as long at its start. -/
theorem exists_numberLength? {cs text : List Char} (starts : Matches cs .number text) :
    ∃ n, numberLength? cs = some n ∧ text.length ≤ n := by
  obtain ⟨⟨rest, rfl⟩, accepts⟩ := starts
  cases accepts with
  | @number mark digits radix marked present each =>
    by_cases bare : mark = []
    · subst bare
      have decimal : radix = 10 := by simpa [leads_eq] using marked
      subst decimal
      exact exists_numberLength?_of_digits (List.prefix_append digits rest) present each
    · obtain ⟨n, found, length⟩ :=
        exists_digitsAfter? mark.length (List.prefix_append digits rest) present each
      rw [List.append_assoc]
      exact ⟨n, numberLength?_of_mark marked bare found, by rwa [List.length_append]⟩

/-! ### Strings -/

theorem bne_of_not_mem {quote : Char} {inside : List Char} (free : quote ∉ inside) :
    ∀ c ∈ inside, (c != quote) = true := by
  intro c mem
  exact bne_iff_ne.mpr fun same => free (same ▸ mem)

/-- A string that is closed ends after the closing quote. -/
theorem quotedLength_closed {quote : Char} {inside : List Char} (free : quote ∉ inside)
    (rest : List Char) : quotedLength quote (inside ++ quote :: rest) = inside.length + 1 := by
  simp only [quotedLength, runLength, List.takeWhile_append_of_pos (bne_of_not_mem free)]
  simp

theorem quotedLength_unclosed {quote : Char} {cs : List Char} (free : quote ∉ cs) :
    quotedLength quote cs = cs.length := by
  have whole : (cs ++ []).takeWhile (· != quote) = cs ++ [] :=
    List.takeWhile_append_of_pos (bne_of_not_mem free)
  rw [List.append_nil] at whole
  simp [quotedLength, runLength, whole]

theorem length_le_quotedLength {quote : Char} {inside : List Char} (free : quote ∉ inside)
    (rest : List Char) : inside.length ≤ quotedLength quote (inside ++ rest) := by
  have run := length_le_runLength (List.prefix_append inside rest) (bne_of_not_mem free)
  simp only [quotedLength]
  split
  · exact Nat.le_succ_of_le run
  · exact run

/-- What a quote and a string after it make up is a string. -/
theorem accepts_quotedLength {quote : Char} (cs : List Char)
    (opens : quote = Text.doubleQuote ∨ quote = Text.singleQuote) :
    quotedLength quote cs ≤ cs.length ∧
      Accepts .quoted (quote :: cs.take (quotedLength quote cs)) := by
  by_cases closes : quote ∈ cs
  · obtain ⟨inside, rest, rfl, free⟩ := List.eq_append_cons_of_mem closes
    have written : (inside ++ quote :: rest).take (inside.length + 1) = inside ++ [quote] := by
      rw [List.take_length_add_append]
      rfl
    rw [quotedLength_closed free, written]
    exact ⟨by simp, .closed opens free⟩
  · rw [quotedLength_unclosed closes, List.take_length]
    exact ⟨Nat.le_refl _, .unclosed opens closes⟩

/-! ### All patterns -/

/-- What is found is accepted by the pattern. -/
theorem accepts_longest? {cs : List Char} {pattern : Pattern} {n : Nat}
    (found : longest? cs = some (pattern, n)) :
    n ≤ cs.length ∧ Accepts pattern (cs.take n) := by
  cases cs with
  | nil => cases found
  | cons c cs =>
    have first (length : Nat) (inside : length ≤ cs.length)
        (accepts : Accepts pattern (c :: cs.take length)) :
        1 + length ≤ (c :: cs).length ∧ Accepts pattern ((c :: cs).take (1 + length)) := by
      rw [Nat.add_comm, List.take_succ_cons]
      exact ⟨Nat.succ_le_succ inside, accepts⟩
    simp only [longest?] at found
    split at found
    · rename_i start
      cases found
      refine first _ (runLength_le _ _) ?_
      rw [take_runLength]
      exact .word start all_takeWhile
    split at found
    · rename_i arrows
      cases found
      simp only [Bool.and_eq_true, beq_iff_eq] at arrows
      obtain ⟨rfl, more⟩ := arrows
      have long := congrArg List.length more
      rw [List.length_take, List.length_cons, List.length_singleton] at long
      exact first 2 (by omega) (more ▸ .arrows)
    split at found
    · rename_i opens
      cases found
      simp only [Bool.or_eq_true, beq_iff_eq] at opens
      exact first _ (accepts_quotedLength cs opens).1 (accepts_quotedLength cs opens).2
    split at found
    · rename_i same
      cases found
      obtain rfl := beq_iff_eq.mp same
      exact first _ (Nat.le_refl _) (.comment _)
    split at found
    · rename_i same
      cases found
      obtain rfl := beq_iff_eq.mp same
      exact first 0 (Nat.zero_le _) .comma
    split at found
    · rename_i same
      cases found
      obtain rfl := beq_iff_eq.mp same
      exact first 0 (Nat.zero_le _) .colon
    split at found
    · rename_i same
      cases found
      obtain rfl := beq_iff_eq.mp same
      exact first 0 (Nat.zero_le _) .leftParen
    split at found
    · rename_i same
      cases found
      obtain rfl := beq_iff_eq.mp same
      exact first 0 (Nat.zero_le _) .rightParen
    split at found
    · rename_i listed
      cases found
      exact first 0 (Nat.zero_le _) (.operator listed)
    · rw [Option.map_eq_some_iff] at found
      obtain ⟨length, number, same⟩ := found
      cases same
      exact accepts_numberLength? number

/-- The characters that only a number starts with. -/
def numberStarts : List Char := "$%@0123456789".toList

theorem mem_numberStarts_of_digit {c : Char} (digit : Text.isDigitIn 10 c = true) :
    c ∈ numberStarts := by
  have all : ∀ n < 58, 48 ≤ n → Char.ofNat n ∈ numberStarts := by decide +kernel
  have bounds : 48 ≤ c.toNat ∧ c.toNat < 58 := by
    simp only [Text.isDigitIn, Text.digitIn?, Option.isSome_filter] at digit
    unfold Text.digit? at digit
    split at digit
    · rename_i decimal
      exact ⟨decimal.1, Nat.lt_succ_of_le decimal.2⟩
    -- the letters are worth ten and more
    split at digit
    · rename_i letter
      have low : 65 ≤ c.toNat := letter.1
      have value : c.toNat - 55 < 10 := of_decide_eq_true digit
      omega
    split at digit
    · rename_i letter
      have low : 97 ≤ c.toNat := letter.1
      have value : c.toNat - 87 < 10 := of_decide_eq_true digit
      omega
    · cases digit
  have listed := all c.toNat bounds.2 bounds.1
  rwa [Char.ofNat_toNat] at listed

/-- A number starts with a character that starts nothing else. -/
theorem mem_numberStarts {mark digits : List Char} {radix : Nat}
    (marked : (mark, radix) ∈ leads) (present : digits ≠ [])
    (each : ∀ c ∈ digits, Text.isDigitIn radix c = true) :
    ∃ c cs, mark ++ digits = c :: cs ∧ c ∈ numberStarts := by
  cases mark with
  | nil =>
    have decimal : radix = 10 := by simpa [leads_eq] using marked
    obtain ⟨digit, further, rfl⟩ := List.exists_cons_of_ne_nil present
    subst decimal
    exact ⟨digit, further, rfl, mem_numberStarts_of_digit (each digit List.mem_cons_self)⟩
  | cons c mark =>
    have heads :
        leads.all (fun marked => marked.1.head?.all numberStarts.contains) = true := by decide
    have listed : numberStarts.contains c = true := List.all_eq_true.mp heads _ marked
    exact ⟨c, mark ++ digits, rfl, List.contains_iff_mem.mp listed⟩

theorem longest?_of_numberStarts {c : Char} (starts : c ∈ numberStarts) (cs : List Char) :
    longest? (c :: cs) = (numberLength? (c :: cs)).map (.number, ·) := by
  have others : numberStarts.all (fun c => !isWordStart c && !isOperatorChar c &&
      !([Text.doubleQuote, Text.singleQuote, '>', ';', ',', ':', '(', ')'].contains c)) = true := by
    decide
  have other := List.all_eq_true.mp others c starts
  simp only [List.contains_cons, List.contains_nil, Bool.or_false, Bool.and_eq_true,
    Bool.not_eq_true', Bool.or_eq_false_iff] at other
  simp [longest?, other]

/-- An operator character starts an operator, or the keyword that is written with arrows. -/
theorem longest?_of_operator {c : Char} (listed : isOperatorChar c = true) (cs : List Char) :
    ∃ pattern n, longest? (c :: cs) = some (pattern, n) ∧ 1 ≤ n := by
  have others : "-+*/#<>=&|^!".toList.all (fun c => !isWordStart c &&
      !([Text.doubleQuote, Text.singleQuote, ';', ',', ':', '(', ')'].contains c)) = true := by
    decide
  have other := List.all_eq_true.mp others c (List.contains_iff_mem.mp listed)
  simp only [List.contains_cons, List.contains_nil, Bool.or_false, Bool.and_eq_true,
    Bool.not_eq_true', Bool.or_eq_false_iff] at other
  by_cases arrows : (c == '>' && cs.take 2 == ['>', '>']) = true
  · exact ⟨.word, 3, by simp only [longest?, other, arrows]; rfl, by decide⟩
  · exact ⟨.operator, 1, by simp [longest?, other, arrows, listed], Nat.le_refl _⟩

/-- What a pattern accepts is no longer than what is found. -/
theorem exists_longest? {cs : List Char} {pattern : Pattern} {text : List Char}
    (fits : Matches cs pattern text) :
    ∃ other n, longest? cs = some (other, n) ∧ text.length ≤ n := by
  obtain ⟨⟨rest, rfl⟩, accepts⟩ := fits
  cases accepts with
  | @word c cs start parts =>
    have run := length_le_runLength (List.prefix_append cs rest) parts
    refine ⟨.word, 1 + runLength isWordPart (cs ++ rest), by simp [longest?, start], ?_⟩
    simp only [List.length_cons]
    omega
  | arrows => exact ⟨.word, 3, rfl, Nat.le_refl _⟩
  | @number mark digits radix marked present each =>
    obtain ⟨n, number, length⟩ :=
      exists_numberLength? ⟨List.prefix_append _ rest, .number marked present each⟩
    obtain ⟨c, cs, same, starts⟩ := mem_numberStarts marked present each
    refine ⟨.number, n, ?_, length⟩
    rw [same, List.cons_append] at number ⊢
    rw [longest?_of_numberStarts starts, number]
    rfl
  | @closed quote inside opens free =>
    have after : quote :: inside ++ [quote] ++ rest = quote :: (inside ++ quote :: rest) := by simp
    refine ⟨.quoted, 1 + quotedLength quote (inside ++ quote :: rest), ?_, ?_⟩
    · rw [after]
      rcases opens with rfl | rfl <;> rfl
    · rw [quotedLength_closed free, List.length_append, List.length_cons, List.length_singleton]
      omega
  | @unclosed quote inside opens free =>
    refine ⟨.quoted, 1 + quotedLength quote (inside ++ rest), ?_, ?_⟩
    · rcases opens with rfl | rfl <;> rfl
    · have length := length_le_quotedLength free rest
      rw [List.length_cons]
      omega
  | comment cs =>
    refine ⟨.comment, 1 + (cs ++ rest).length, rfl, ?_⟩
    rw [List.length_cons, List.length_append]
    omega
  | comma => exact ⟨.comma, 1, rfl, Nat.le_refl _⟩
  | colon => exact ⟨.colon, 1, rfl, Nat.le_refl _⟩
  | leftParen => exact ⟨.leftParen, 1, rfl, Nat.le_refl _⟩
  | rightParen => exact ⟨.rightParen, 1, rfl, Nat.le_refl _⟩
  | @operator c listed =>
    obtain ⟨other, n, found, positive⟩ := longest?_of_operator listed rest
    exact ⟨other, n, found, positive⟩

/-- **What is found is the longest match.** -/
theorem longest?_eq_some {cs : List Char} {pattern : Pattern} {n : Nat}
    (found : longest? cs = some (pattern, n)) : Longest cs pattern (cs.take n) := by
  obtain ⟨inside, accepts⟩ := accepts_longest? found
  refine ⟨⟨List.take_prefix n cs, accepts⟩, ?_⟩
  intro other longer fits
  obtain ⟨pattern', n', found', length⟩ := exists_longest? fits
  rw [found, Option.some.injEq, Prod.mk.injEq] at found'
  rw [List.length_take]
  omega

/-- Where nothing is found, no pattern matches. -/
theorem longest?_eq_none {cs : List Char} (missing : longest? cs = none) (pattern : Pattern)
    (text : List Char) : ¬ Matches cs pattern text := by
  intro fits
  obtain ⟨other, n, found, -⟩ := exists_longest? fits
  rw [missing] at found
  cases found

/-! ### Pieces of a line -/

/-- `Cut line start pieces`: from index `start` on, the line is cut into the pieces and gaps between
them. A piece is the longest match at its place, and at no character of a gap does a pattern
match. -/
inductive Cut (line : List Char) : Nat → List Piece → Prop where
  | done : Cut line line.length []
  | gap {start : Nat} {pieces : List Piece} (inside : start < line.length)
      (free : ∀ pattern text, ¬ Matches (line.drop start) pattern text)
      (rest : Cut line (start + 1) pieces) : Cut line start pieces
  | piece {start : Nat} {pattern : Pattern} {text : List Char} {pieces : List Piece}
      (longest : Longest (line.drop start) pattern text)
      (rest : Cut line (start + text.length) pieces) :
      Cut line start (⟨pattern, text, start⟩ :: pieces)

theorem pieces_skip (skip start : Nat) (cs : List Char) :
    pieces skip start cs = pieces 0 (start + skip) (cs.drop skip) := by
  induction cs generalizing skip start with
  | nil => cases skip <;> rfl
  | cons c cs ih =>
    cases skip with
    | zero => rfl
    | succ skip =>
      rw [pieces, ih, List.drop_succ_cons, Nat.add_assoc, Nat.add_comm 1]

/-- **The scanner cuts a line into pieces and gaps.** -/
theorem cut_pieces (line : List Char) {start : Nat} (le : start ≤ line.length) :
    Cut line start (pieces 0 start (line.drop start)) := by
  induction left : line.length - start using Nat.strongRecOn generalizing start with
  | ind left ih =>
    cases chars : line.drop start with
    | nil =>
      have ends : start = line.length := by
        have short := List.drop_eq_nil_iff.mp chars
        omega
      rw [ends]
      exact .done
    | cons c cs =>
      have inside : start < line.length := by
        have length := congrArg List.length chars
        rw [List.length_drop, List.length_cons] at length
        omega
      have next : line.drop (start + 1) = cs := by
        rw [List.drop_eq_getElem_cons inside] at chars
        exact (List.cons.inj chars).2
      rw [pieces]
      cases found : longest? (c :: cs) with
      | none =>
        refine .gap inside ?_ ?_
        · rw [chars]
          exact longest?_eq_none found
        · rw [← next]
          exact ih _ (by omega) (by omega) rfl
      | some result =>
        obtain ⟨pattern, length⟩ := result
        have longest := longest?_eq_some found
        have fits := (accepts_longest? found).1
        have count : ((c :: cs).take length).length = length := List.length_take_of_le fits
        have positive : 0 < length := count ▸ List.length_pos_iff.mpr longest.fits.2.ne_nil
        refine .piece (chars ▸ longest) ?_
        have rest : pieces (length - 1) (start + 1) cs =
            pieces 0 (start + length) (line.drop (start + length)) := by
          rw [pieces_skip, ← next, List.drop_drop]
          have sum : start + 1 + (length - 1) = start + length := by omega
          rw [sum]
        rw [rest, count]
        have total := congrArg List.length chars
        rw [List.length_drop] at total
        exact ih _ (by omega) (by omega) rfl

namespace Cut

variable {line : List Char} {start : Nat} {pieces : List Piece}

theorem start_le (cut : Cut line start pieces) : ∀ piece ∈ pieces, start ≤ piece.start := by
  induction cut with
  | done => simp
  | gap _ _ _ ih => exact fun piece mem => Nat.le_of_succ_le (ih piece mem)
  | piece _ _ ih =>
    intro piece mem
    rcases List.mem_cons.mp mem with rfl | mem
    · exact Nat.le_refl _
    · exact Nat.le_trans (Nat.le_add_right ..) (ih piece mem)

/-- A piece is the longest match at its place. -/
theorem longest (cut : Cut line start pieces) :
    ∀ piece ∈ pieces, Longest (line.drop piece.start) piece.pattern piece.text := by
  induction cut with
  | done => simp
  | gap _ _ _ ih => exact ih
  | piece longest _ ih =>
    intro piece mem
    rcases List.mem_cons.mp mem with rfl | mem
    · exact longest
    · exact ih piece mem

/-- A piece ends before the next one starts. -/
theorem pairwise (cut : Cut line start pieces) :
    pieces.Pairwise fun first second => first.start + first.text.length ≤ second.start := by
  induction cut with
  | done => exact .nil
  | gap _ _ _ ih => exact ih
  | piece _ rest ih => exact .cons rest.start_le ih

/-- A character stands in a piece, or no pattern matches at it. -/
theorem covers (cut : Cut line start pieces) {i : Nat} (from_start : start ≤ i)
    (inside : i < line.length) :
    (∃ piece ∈ pieces, piece.start ≤ i ∧ i < piece.start + piece.text.length) ∨
      ∀ pattern text, ¬ Matches (line.drop i) pattern text := by
  induction cut with
  | done => omega
  | @gap start pieces _ free rest ih =>
    by_cases here : i = start
    · exact .inr (here ▸ free)
    · exact ih (by omega)
  | @piece start pattern text pieces _ rest ih =>
    by_cases here : i < start + text.length
    · exact .inl ⟨_, List.mem_cons_self, from_start, here⟩
    · rcases ih (by omega) with ⟨piece, mem, covers⟩ | free
      · exact .inl ⟨piece, List.mem_cons_of_mem _ mem, covers⟩
      · exact .inr free

end Cut

end Asm6502.Scan
