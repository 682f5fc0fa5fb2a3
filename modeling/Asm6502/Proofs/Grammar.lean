import Asm6502.Expr.Parse

/-!
# The grammar of expressions

An expression is written as a chain of terms with operators between them:

    expression := term (operator term)*
    operator   := + | - | * | /
    term       := < atom | > atom | - atom | atom
    atom       := number | name | string | * | ( expression )

`Spells tokens expr` says that the tokens are written by this grammar and stand for `expr`: a chain
is taken from left to right, `-a` is `0-a`, and an asterisk is the location counter where an atom
stands and a product where an operator stands.

The reader takes the first alternative that fits and never goes back on it. Still it returns the
tree of the longest part at the start of a token list that the grammar spells, and nothing if there
is no such part (`parse?_longest`): what is read is spelled (`sound_ofDepth`), and a part that is
spelled is read as a whole, after which the reader goes on (`Spells.read`). This also shows that no
token list has two trees (`Spells.unique`).
-/

namespace Asm6502

/-- What the reader takes off the start of a token list is spelled. -/
def Reader.Sound {α : Type} (reader : Reader α) (spells : List Token → α → Prop) : Prop :=
  ∀ ⦃tokens value rest⦄, reader tokens = some (value, rest) →
    ∃ part, tokens = part ++ rest ∧ spells part value

namespace Expr

/-! ### The grammar -/

/-- An expression with an operator and a term after it. -/
def extended (left : Expr) (link : Operator × Expr) : Expr := .binary link.1 left link.2

mutual

/-- The tokens spell an atom. -/
inductive SpellsAtom : List Token → Expr → Prop where
  /-- A number. -/
  | number {token : Token} (kind : token.kind = .number) :
      SpellsAtom [token] (.literal (Text.numericValue token.lexeme))
  /-- A name, in column one or elsewhere. -/
  | name {token : Token} (kind : token.kind = .symbol ∨ token.kind = .label) :
      SpellsAtom [token] (.symbol (.ofText token.lexeme))
  /-- A string. -/
  | string {token : Token} (kind : token.kind = .string) :
      SpellsAtom [token] (.quoted (Text.unquote token.lexeme))
  /-- The location counter. -/
  | here {token : Token} (asterisk : token.isOperator "*" = true) : SpellsAtom [token] .here
  /-- An expression in parentheses. -/
  | parens {left right : Token} {tokens : List Token} {expr : Expr}
      (opens : left.kind = .leftParen) (inner : Spells tokens expr)
      (closes : right.kind = .rightParen) : SpellsAtom (left :: (tokens ++ [right])) expr

/-- The tokens spell a term. -/
inductive SpellsTerm : List Token → Expr → Prop where
  /-- One byte of an atom. -/
  | select {token : Token} {tokens : List Token} {part : ByteSelect} {expr : Expr}
      (selector : token.isOperator part.symbol = true) (atom : SpellsAtom tokens expr) :
      SpellsTerm (token :: tokens) (.select part expr)
  /-- An atom with a minus sign. -/
  | negative {token : Token} {tokens : List Token} {expr : Expr}
      (minus : token.isOperator "-" = true) (atom : SpellsAtom tokens expr) :
      SpellsTerm (token :: tokens) (.binary .sub (.literal 0) expr)
  /-- An atom. -/
  | atom {tokens : List Token} {expr : Expr} (atom : SpellsAtom tokens expr) :
      SpellsTerm tokens expr

/-- The tokens spell operators, each with a term after it. -/
inductive SpellsTail : List Token → List (Operator × Expr) → Prop where
  /-- There is no operator. -/
  | nil : SpellsTail [] []
  /-- An operator and a term stand before others. -/
  | cons {token : Token} {tokens more : List Token} {op : Operator} {right : Expr}
      {links : List (Operator × Expr)} (operator : token.isOperator op.symbol = true)
      (term : SpellsTerm tokens right) (tail : SpellsTail more links) :
      SpellsTail (token :: (tokens ++ more)) ((op, right) :: links)

/-- The tokens spell an expression. -/
inductive Spells : List Token → Expr → Prop where
  /-- A chain of terms, taken from left to right. -/
  | chain {tokens more : List Token} {first : Expr} {links : List (Operator × Expr)}
      (term : SpellsTerm tokens first) (tail : SpellsTail more links) :
      Spells (tokens ++ more) (links.foldl extended first)

end

/-! ### Operators and selectors -/

theorem isOperator_iff {token : Token} {text : String} :
    token.isOperator text = true ↔ token.kind = .operator ∧ token.lexeme = text := by
  simp [Token.isOperator]

/-- A token is one operator only. -/
theorem operator?_eq_some_iff {token : Token} {op : Operator} :
    operator? token = some op ↔ token.isOperator op.symbol = true := by
  unfold operator? Token.isOperator
  by_cases kind : token.kind = .operator
  · cases op <;> grind [Operator.symbol]
  · simp [kind]

/-- A token is one selector only. -/
theorem select?_eq_some_iff {token : Token} {part : ByteSelect} :
    select? token = some part ↔ token.isOperator part.symbol = true := by
  unfold select? Token.isOperator
  by_cases kind : token.kind = .operator
  · cases part <;> grind [ByteSelect.symbol]
  · simp [kind]

/-! ### What is read is spelled -/

theorem skipKind?_eq_some {kind : TokenKind} {tokens rest : List Token}
    (skipped : skipKind? kind tokens = some rest) :
    ∃ token, tokens = token :: rest ∧ token.kind = kind := by
  cases tokens with
  | nil => cases skipped
  | cons token tokens =>
    simp only [skipKind?] at skipped
    split at skipped
    · rename_i same
      cases skipped
      exact ⟨token, rfl, same⟩
    · cases skipped

theorem sound_atom {inner : Reader Expr} (sound : inner.Sound Spells) :
    (atom inner).Sound SpellsAtom := by
  intro tokens expr rest read
  cases tokens with
  | nil => cases read
  | cons token tokens =>
    simp only [atom] at read
    split at read
    · rename_i kind
      cases read
      exact ⟨[token], rfl, .number kind⟩
    · rename_i kind
      cases read
      exact ⟨[token], rfl, .name (.inl kind)⟩
    · rename_i kind
      cases read
      exact ⟨[token], rfl, .name (.inr kind)⟩
    · rename_i kind
      cases read
      exact ⟨[token], rfl, .string kind⟩
    · rename_i kind
      split at read
      · rename_i asterisk
        cases read
        exact ⟨[token], rfl, .here (isOperator_iff.mpr ⟨kind, asterisk⟩)⟩
      · cases read
    · rename_i opens
      simp only [Option.bind_eq_bind, Option.bind_eq_some_iff, Option.some.injEq,
        Prod.mk.injEq] at read
      obtain ⟨⟨inside, after⟩, reads, skipped, closes, rfl, rfl⟩ := read
      obtain ⟨part, rfl, spelled⟩ := sound reads
      obtain ⟨right, rfl, kind⟩ := skipKind?_eq_some closes
      exact ⟨_, by simp, .parens opens spelled kind⟩
    · cases read

theorem sound_term {inner : Reader Expr} (sound : inner.Sound SpellsAtom) :
    (term inner).Sound SpellsTerm := by
  intro tokens expr rest read
  cases tokens with
  | nil => cases read
  | cons token tokens =>
    simp only [term] at read
    split at read
    · rename_i part selector
      obtain ⟨⟨atom, after⟩, reads, same⟩ := Option.map_eq_some_iff.mp read
      cases same
      obtain ⟨spelling, rfl, spelled⟩ := sound reads
      exact ⟨token :: spelling, rfl, .select (select?_eq_some_iff.mp selector) spelled⟩
    · split at read
      · rename_i minus
        obtain ⟨⟨atom, after⟩, reads, same⟩ := Option.map_eq_some_iff.mp read
        cases same
        obtain ⟨spelling, rfl, spelled⟩ := sound reads
        exact ⟨token :: spelling, rfl, .negative minus spelled⟩
      · obtain ⟨spelling, split, spelled⟩ := sound read
        exact ⟨spelling, split, .atom spelled⟩

/-- What extends an expression are operators and terms. -/
theorem sound_chainFrom {term : Reader Expr} (sound : term.Sound SpellsTerm) (limit : Nat)
    (left : Expr) (tokens : List Token) :
    ∃ part links, tokens = part ++ (chainFrom term limit left tokens).2 ∧ SpellsTail part links ∧
      (chainFrom term limit left tokens).1 = links.foldl extended left := by
  fun_induction chainFrom term limit left tokens with
  | case1 left tokens => exact ⟨[], [], rfl, .nil, rfl⟩
  | case2 limit left => exact ⟨[], [], rfl, .nil, rfl⟩
  | case3 limit left token tokens none => exact ⟨[], [], rfl, .nil, rfl⟩
  | case4 limit left token tokens op found none => exact ⟨[], [], rfl, .nil, rfl⟩
  | case5 limit left token tokens op found right rest read ih =>
    obtain ⟨first, rfl, spelled⟩ := sound read
    obtain ⟨part, links, split, tail, folded⟩ := ih
    refine ⟨token :: (first ++ part), (op, right) :: links, ?_,
      .cons (operator?_eq_some_iff.mp found) spelled tail, folded⟩
    rw [List.cons_append, List.append_assoc, ← split]

theorem sound_chain {term : Reader Expr} (sound : term.Sound SpellsTerm) :
    (chain term).Sound Spells := by
  intro tokens expr rest read
  obtain ⟨⟨first, after⟩, reads, extension⟩ := Option.map_eq_some_iff.mp read
  obtain ⟨part, rfl, spelled⟩ := sound reads
  obtain ⟨more, links, split, tail, folded⟩ := sound_chainFrom sound after.length first after
  simp only [extension] at split folded
  subst folded
  refine ⟨part ++ more, ?_, .chain spelled tail⟩
  rw [List.append_assoc, ← split]

/-- What is read at any depth is spelled. -/
theorem sound_ofDepth (depth : Nat) : (ofDepth depth).Sound Spells := by
  induction depth with
  | zero =>
    intro tokens expr rest read
    cases read
  | succ depth ih => exact sound_chain (sound_term (sound_atom ih))

/-! ### What is spelled is read -/

/-- The reader of terms at a depth. -/
abbrev termOfDepth (depth : Nat) : Reader Expr := term (atom (ofDepth depth))

theorem sound_termOfDepth (depth : Nat) : (termOfDepth depth).Sound SpellsTerm :=
  sound_term (sound_atom (sound_ofDepth depth))

/-- A token that starts an atom is no selector and no minus sign. -/
theorem SpellsAtom.head {tokens : List Token} {expr : Expr} (atom : SpellsAtom tokens expr) :
    ∃ token more, tokens = token :: more ∧ select? token = none ∧ token.isOperator "-" = false := by
  cases atom with
  | number kind => exact ⟨_, _, rfl, by simp [select?, Token.isOperator, kind]⟩
  | name kind =>
    refine ⟨_, _, rfl, ?_⟩
    rcases kind with kind | kind <;> simp [select?, Token.isOperator, kind]
  | string kind => exact ⟨_, _, rfl, by simp [select?, Token.isOperator, kind]⟩
  | here asterisk =>
    exact ⟨_, _, rfl, by simp [select?, Token.isOperator, isOperator_iff.mp asterisk]⟩
  | parens opens inner closes => exact ⟨_, _, rfl, by simp [select?, Token.isOperator, opens]⟩

theorem select?_eq_none_of_minus {token : Token} (minus : token.isOperator "-" = true) :
    select? token = none := by
  simp [select?, Token.isOperator, isOperator_iff.mp minus]

/-- A chain ends for lack of operators or terms, not because of the limit. -/
theorem chainFrom_eq_of_length_le {term : Reader Expr} (sound : term.Sound SpellsTerm)
    {limit limit' : Nat} (left : Expr) {tokens : List Token} (enough : tokens.length ≤ limit)
    (enough' : tokens.length ≤ limit') :
    chainFrom term limit left tokens = chainFrom term limit' left tokens := by
  induction limit generalizing limit' left tokens with
  | zero =>
    obtain rfl : tokens = [] := List.length_eq_zero_iff.mp (Nat.le_zero.mp enough)
    cases limit' <;> rfl
  | succ limit ih =>
    cases tokens with
    | nil => cases limit' <;> rfl
    | cons token tokens =>
      cases limit' with
      | zero => cases enough'
      | succ limit' =>
        simp only [chainFrom]
        cases operator? token with
        | none => rfl
        | some op =>
          cases read : term tokens with
          | none => rfl
          | some result =>
            obtain ⟨right, rest⟩ := result
            obtain ⟨part, rfl, -⟩ := sound read
            simp only [List.length_cons, List.length_append] at enough enough'
            exact ih _ (by omega) (by omega)

mutual

/-- An atom is read whatever stands after it. -/
theorem SpellsAtom.read {tokens : List Token} {expr : Expr} (atom : SpellsAtom tokens expr)
    (depth : Nat) (deep : tokens.length ≤ depth) (rest : List Token) :
    Expr.atom (ofDepth depth) (tokens ++ rest) = some (expr, rest) := by
  match atom with
  | .number kind => simp [Expr.atom, kind]
  | .name kind => rcases kind with kind | kind <;> simp [Expr.atom, kind]
  | .string kind => simp [Expr.atom, kind]
  | .here asterisk => simp [Expr.atom, isOperator_iff.mp asterisk]
  | @SpellsAtom.parens left right tokens expr opens inner closes =>
    cases depth with
    | zero => cases deep
    | succ depth =>
      -- the reader does not go on at the closing parenthesis, which is no operator
      have reads := inner.read depth (by simp at deep; omega) (right :: rest)
      simp [Expr.atom, opens, reads, chainFrom, operator?, Token.isOperator, closes, skipKind?]

/-- A term is read whatever stands after it. -/
theorem SpellsTerm.read {tokens : List Token} {expr : Expr} (term : SpellsTerm tokens expr)
    (depth : Nat) (deep : tokens.length ≤ depth) (rest : List Token) :
    termOfDepth depth (tokens ++ rest) = some (expr, rest) := by
  match term with
  | .select selector atom =>
    have reads := atom.read depth (Nat.le_of_succ_le deep) rest
    simp [termOfDepth, Expr.term, select?_eq_some_iff.mpr selector, reads]
  | .negative minus atom =>
    have reads := atom.read depth (Nat.le_of_succ_le deep) rest
    simp [termOfDepth, Expr.term, select?_eq_none_of_minus minus, minus, reads]
  | .atom atom =>
    have reads := atom.read depth deep rest
    obtain ⟨token, more, rfl, other, positive⟩ := atom.head
    simpa [termOfDepth, Expr.term, other, positive] using reads

/-- Operators and terms extend what stands before them. -/
theorem SpellsTail.read {tokens : List Token} {links : List (Operator × Expr)}
    (tail : SpellsTail tokens links) (depth : Nat) (deep : tokens.length ≤ depth) (left : Expr)
    (rest : List Token) {limit : Nat} (enough : tokens.length + rest.length ≤ limit) :
    chainFrom (termOfDepth depth) limit left (tokens ++ rest) =
      chainFrom (termOfDepth depth) rest.length (links.foldl extended left) rest := by
  match tail with
  | .nil =>
    exact chainFrom_eq_of_length_le (sound_termOfDepth depth) left (by simpa using enough)
      (Nat.le_refl _)
  | @SpellsTail.cons token tokens more op right links operator term tail =>
    simp only [List.length_cons, List.length_append] at deep enough
    cases limit with
    | zero => omega
    | succ limit =>
      have reads := term.read depth (by omega) (more ++ rest)
      simp only [List.cons_append, List.append_assoc, chainFrom,
        operator?_eq_some_iff.mpr operator, reads]
      exact tail.read depth (by omega) (extended left (op, right)) rest (by omega)

/-- **An expression is read as a whole**, and the reader goes on after it. -/
theorem Spells.read {tokens : List Token} {expr : Expr} (spelled : Spells tokens expr)
    (depth : Nat) (deep : tokens.length ≤ depth) (rest : List Token) :
    ofDepth (depth + 1) (tokens ++ rest) =
      some (chainFrom (termOfDepth depth) rest.length expr rest) := by
  match spelled with
  | @Spells.chain tokens more first links term tail =>
    rw [List.length_append] at deep
    have reads := term.read depth (by omega) (more ++ rest)
    have others := tail.read depth (by omega) first rest (Nat.le_of_eq List.length_append.symm)
    simp only [List.append_assoc, ofDepth, chain, reads, Option.map_some, others]

end

/-- Tokens spell at most one expression. -/
theorem Spells.unique {tokens : List Token} {expr expr' : Expr} (spelled : Spells tokens expr)
    (spelled' : Spells tokens expr') : expr = expr' := by
  have reads := spelled.read tokens.length (Nat.le_refl _) []
  have reads' := spelled'.read tokens.length (Nat.le_refl _) []
  simpa [chainFrom] using reads.symm.trans reads'

/-! ### The longest expression -/

/-- A part that is spelled at the start of a token list is read, perhaps with more after it. -/
theorem Spells.exists_read {part : List Token} {expr : Expr} (spelled : Spells part expr)
    (rest : List Token) :
    ∃ whole after, Expr.read (part ++ rest) = some (whole, after) ∧ after.length ≤ rest.length := by
  have deep : part.length ≤ (part ++ rest).length := by simp
  refine ⟨_, _, spelled.read _ deep rest, ?_⟩
  obtain ⟨more, -, split, -⟩ :=
    sound_chainFrom (sound_termOfDepth (part ++ rest).length) rest.length expr rest
  have total := congrArg List.length split
  rw [List.length_append] at total
  omega

/-- What is read is spelled, and nothing longer is. -/
theorem spells_of_read {tokens rest : List Token} {expr : Expr}
    (reads : read tokens = some (expr, rest)) :
    ∃ part, tokens = part ++ rest ∧ Spells part expr ∧
      ∀ other tree, other <+: tokens → Spells other tree → other.length ≤ part.length := by
  obtain ⟨part, rfl, spelled⟩ := sound_ofDepth _ reads
  refine ⟨part, rfl, spelled, ?_⟩
  rintro other tree ⟨remains, split⟩ spelled'
  obtain ⟨whole, after, reads', short⟩ := spelled'.exists_read remains
  rw [split, reads] at reads'
  cases reads'
  have total := congrArg List.length split
  simp only [List.length_append] at total
  omega

/-- **The reader follows the grammar**: it finds no expression exactly if the grammar spells none at
the start of the token list, and it finds a tree exactly if that is the tree of the longest part at
the start of the list that the grammar spells. -/
theorem parse?_longest (tokens : List Token) :
    (parse? tokens = none ↔ ∀ part expr, part <+: tokens → ¬ Spells part expr) ∧
      ∀ expr, parse? tokens = some expr ↔
        ∃ part, part <+: tokens ∧ Spells part expr ∧
          ∀ other tree, other <+: tokens → Spells other tree → other.length ≤ part.length := by
  constructor
  · constructor
    · rintro none part expr ⟨rest, rfl⟩ spelled
      obtain ⟨whole, after, reads, -⟩ := spelled.exists_read rest
      simp [parse?, reads] at none
    · intro unspelled
      cases reads : read tokens with
      | none => simp [parse?, reads]
      | some result =>
        obtain ⟨part, split, spelled, -⟩ := spells_of_read reads
        exact absurd spelled (unspelled part _ ⟨_, split.symm⟩)
  · intro expr
    constructor
    · intro parsed
      obtain ⟨⟨tree, rest⟩, reads, rfl⟩ := Option.map_eq_some_iff.mp parsed
      obtain ⟨part, split, spelled, longest⟩ := spells_of_read reads
      exact ⟨part, ⟨rest, split.symm⟩, spelled, longest⟩
    · rintro ⟨part, ⟨rest, rfl⟩, spelled, longest⟩
      obtain ⟨whole, after, reads, -⟩ := spelled.exists_read rest
      obtain ⟨other, split, spelled', longest'⟩ := spells_of_read reads
      have same : part = other := by
        have shorter := longest' part expr ⟨rest, rfl⟩ spelled
        have longer := longest other whole ⟨after, split.symm⟩ spelled'
        exact (List.append_inj split (by omega)).1
      subst same
      rw [parse?, reads, spelled.unique spelled']
      rfl

/-- The first asterisk of `**2+` is the location counter, the second a product; the operator without
a term after it is not taken. -/
example :
    let token (kind : TokenKind) (lexeme : String) : Token := ⟨kind, lexeme, ⟨1, 1⟩⟩
    parse? [token .operator "*", token .operator "*", token .number "2", token .operator "+"] =
      some (.binary .mul .here (.literal 2)) := by
  decide +kernel

end Expr

end Asm6502
