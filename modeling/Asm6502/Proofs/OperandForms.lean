import Asm6502.Proofs.Grammar
import Asm6502.Proofs.Instruction
import Asm6502.Statement.Parse

/-!
# The forms of operands

The operand of an instruction is an expression with marks around it:

    # e    # < e    # > e    ( e )    ( e , X )    ( e ) , Y    e    e , X    e , Y

where `e` does not start with a parenthesis in the last three. `Fits form tokens expr` says that the
tokens are written in one of these forms, with an expression that the grammar spells. Two forms
overlap with others: a selector after `#` could belong to the expression, and the name `A` alone is
an expression too. There the special form is meant (`Written`).

The reader tries the forms in an order, with what it read so far dropped when a form does not fit.
It takes the whole operand exactly if the operand is written in a form, and finds this form and its
expression (`Operand.read_eq_some_nil_iff`): what it reads is written (`Operand.sound_read`), and
what is written is read (`Operand.Written.read`). An instruction whose operand is not well formed is
reported and has no other effect (`Assembly.visit_of_unread`).
-/

namespace Asm6502

/-! ### Expressions before other tokens -/

namespace Expr

variable {tokens rest : List Token} {expr : Expr}

/-- An expression is read as a whole if no operator stands after it. -/
theorem Spells.read_of_stop (spelled : Spells tokens expr)
    (stop : ∀ token ∈ rest.head?, operator? token = none) :
    Expr.read (tokens ++ rest) = some (expr, rest) := by
  have deep : tokens.length ≤ (tokens ++ rest).length := by simp
  rw [Expr.read, spelled.read _ deep rest]
  cases rest with
  | nil => rfl
  | cons token rest => simp [chainFrom, stop token rfl]

theorem Spells.read_all (spelled : Spells tokens expr) : Expr.read tokens = some (expr, []) := by
  have whole : Expr.read (tokens ++ []) = some (expr, []) :=
    spelled.read_of_stop fun _ mem => by cases mem
  rwa [List.append_nil] at whole

theorem operator?_of_kind {token : Token} (kind : token.kind ≠ .operator) :
    operator? token = none := by
  simp [operator?, Token.isOperator, kind]

/-- An expression starts with a token, which is no `#`. -/
theorem Spells.head (spelled : Spells tokens expr) :
    ∃ token more, tokens = token :: more ∧ token.isOperator "#" = false := by
  obtain ⟨term, tail⟩ := spelled
  cases term with
  | @select token atom part inner selector spelled =>
    refine ⟨token, _, rfl, ?_⟩
    have other : token.lexeme = part.symbol := (isOperator_iff.mp selector).2
    cases part <;> simp [Token.isOperator, other, ByteSelect.symbol]
  | negative minus spelled =>
    exact ⟨_, _, rfl, by simp [Token.isOperator, (isOperator_iff.mp minus).2]⟩
  | atom spelled =>
    cases spelled with
    | number kind | string kind => exact ⟨_, _, rfl, by simp [Token.isOperator, kind]⟩
    | name kind =>
      refine ⟨_, _, rfl, ?_⟩
      rcases kind with kind | kind <;> simp [Token.isOperator, kind]
    | here asterisk =>
      exact ⟨_, _, rfl, by simp [Token.isOperator, (isOperator_iff.mp asterisk).2]⟩
    | parens opens inner closes => exact ⟨_, _, rfl, by simp [Token.isOperator, opens]⟩

/-- What stands after the selector at the start of an expression is an expression. -/
theorem Spells.of_selector {token : Token} {part : ByteSelect}
    (spelled : Spells (token :: tokens) expr) (selector : select? token = some part) :
    ∃ inner, Spells tokens inner := by
  generalize whole : token :: tokens = all at spelled
  obtain ⟨term, tail⟩ := spelled
  cases term with
  | select _ atom =>
    obtain ⟨rfl, rfl⟩ := List.cons.inj whole
    exact ⟨_, .chain (.atom atom) tail⟩
  | negative minus atom =>
    obtain ⟨rfl, -⟩ := List.cons.inj whole
    rw [select?_eq_none_of_minus minus] at selector
    cases selector
  | atom atom =>
    obtain ⟨first, more, rfl, other, -⟩ := atom.head
    obtain ⟨rfl, -⟩ := List.cons.inj whole
    rw [other] at selector
    cases selector

/-- A chain with a link is an operator with its two sides. -/
theorem foldl_extended_ne_symbol {first : Expr} {links : List (Operator × Expr)}
    (linked : links ≠ []) (name : Name) : links.foldl extended first ≠ .symbol name := by
  obtain ⟨links, link, rfl⟩ := (List.eq_nil_or_concat links).resolve_left linked
  rw [List.concat_eq_append, List.foldl_append]
  exact Expr.noConfusion

/-- A name is spelled by one token, or in parentheses. -/
theorem Spells.eq_singleton {name : Name} (spelled : Spells tokens (.symbol name))
    (bare : ∀ token ∈ tokens.head?, token.kind ≠ .leftParen) :
    ∃ token, tokens = [token] ∧ (token.kind = .symbol ∨ token.kind = .label) ∧
      Name.ofText token.lexeme = name := by
  generalize tree : Expr.symbol name = expr at spelled
  obtain ⟨term, tail⟩ := spelled
  cases tail with
  | cons => exact absurd tree.symm (foldl_extended_ne_symbol (List.cons_ne_nil _ _) name)
  | nil =>
    cases term with
    | select => cases tree
    | negative => cases tree
    | atom atom =>
      cases atom with
      | name kind => exact ⟨_, rfl, kind, (Expr.symbol.inj tree).symm⟩
      | parens opens => exact absurd opens (bare _ rfl)
      | number | string | here => cases tree

/-- Where an expression starts with a parenthesis, one stands in it. -/
theorem read_inside {left : Token} {result : Expr × List Token} (opens : left.kind = .leftParen)
    (reads : Expr.read (left :: tokens) = some result) :
    ∃ inner right after, Expr.read tokens = some (inner, right :: after) ∧
      right.kind = .rightParen := by
  obtain ⟨⟨first, extension⟩, term, -⟩ := Option.map_eq_some_iff.mp reads
  have plain : select? left = none ∧ left.isOperator "-" = false := by
    simp [select?, Token.isOperator, opens]
  -- the reader inside is that of one level less, which is the reader of the tokens inside
  have inside : (Expr.read tokens).bind (fun read =>
      (skipKind? .rightParen read.2).bind fun after => some (read.1, after)) =
        some (first, extension) := by
    simpa [Expr.term, plain, atom, opens, Expr.read] using term
  obtain ⟨⟨inner, after⟩, reads, skipped⟩ := Option.bind_eq_some_iff.mp inside
  obtain ⟨after', closes, -⟩ := Option.bind_eq_some_iff.mp skipped
  obtain ⟨right, rfl, kind⟩ := skipKind?_eq_some closes
  exact ⟨inner, right, after', reads, kind⟩

end Expr

/-! ### The forms -/

/-- The form that a special form is a case of. -/
def Form.general? : Form → Option Form
  | .accumulator => some .absolute
  | .immediateLow | .immediateHigh => some .immediate
  | _ => none

/-- Only two forms have special cases, which have none of their own. -/
theorem Form.eq_of_general? {special form : Form} (general : special.general? = some form) :
    (form = .absolute ∨ form = .immediate) ∧ special ≠ .absolute ∧ special ≠ .immediate := by
  cases special <;> cases general <;> decide

namespace Operand

/-- The tokens are a comma and the index register with the given name, in either letter case. -/
inductive IsIndex (register : String) : List Token → Prop where
  /-- A comma and a name. -/
  | mk {comma index : Token} (separates : comma.kind = .comma) (kind : index.kind = .symbol)
      (name : Text.upper index.lexeme = register) : IsIndex register [comma, index]

/-- The tokens do not start with a parenthesis. -/
def IsBare (tokens : List Token) : Prop := ∀ token ∈ tokens.head?, token.kind ≠ .leftParen

/-- The tokens are written in a form, with an expression. -/
inductive Fits : Form → List Token → Expr → Prop where
  /-- The name `A` alone, in either letter case. -/
  | accumulator {token : Token} (kind : token.kind = .symbol ∨ token.kind = .label)
      (name : Text.upper token.lexeme = "A") : Fits .accumulator [token] (.symbol ⟨"A"⟩)
  /-- `# e`. -/
  | immediate {hash : Token} {tokens : List Token} {expr : Expr}
      (marks : hash.isOperator "#" = true) (spelled : Expr.Spells tokens expr) :
      Fits .immediate (hash :: tokens) expr
  /-- `# < e`. -/
  | immediateLow {hash selector : Token} {tokens : List Token} {expr : Expr}
      (marks : hash.isOperator "#" = true) (low : selector.isOperator "<" = true)
      (spelled : Expr.Spells tokens expr) : Fits .immediateLow (hash :: selector :: tokens) expr
  /-- `# > e`. -/
  | immediateHigh {hash selector : Token} {tokens : List Token} {expr : Expr}
      (marks : hash.isOperator "#" = true) (high : selector.isOperator ">" = true)
      (spelled : Expr.Spells tokens expr) : Fits .immediateHigh (hash :: selector :: tokens) expr
  /-- `e`. -/
  | absolute {tokens : List Token} {expr : Expr} (bare : IsBare tokens)
      (spelled : Expr.Spells tokens expr) : Fits .absolute tokens expr
  /-- `e , X`. -/
  | absoluteX {tokens index : List Token} {expr : Expr} (bare : IsBare tokens)
      (spelled : Expr.Spells tokens expr) (indexed : IsIndex "X" index) :
      Fits .absoluteX (tokens ++ index) expr
  /-- `e , Y`. -/
  | absoluteY {tokens index : List Token} {expr : Expr} (bare : IsBare tokens)
      (spelled : Expr.Spells tokens expr) (indexed : IsIndex "Y" index) :
      Fits .absoluteY (tokens ++ index) expr
  /-- `( e )`. -/
  | indirect {left right : Token} {tokens : List Token} {expr : Expr}
      (opens : left.kind = .leftParen) (spelled : Expr.Spells tokens expr)
      (closes : right.kind = .rightParen) : Fits .indirect (left :: (tokens ++ [right])) expr
  /-- `( e , X )`. -/
  | indirectX {left right : Token} {tokens index : List Token} {expr : Expr}
      (opens : left.kind = .leftParen) (spelled : Expr.Spells tokens expr)
      (indexed : IsIndex "X" index) (closes : right.kind = .rightParen) :
      Fits .indirectX (left :: (tokens ++ (index ++ [right]))) expr
  /-- `( e ) , Y`. -/
  | indirectY {left right : Token} {tokens index : List Token} {expr : Expr}
      (opens : left.kind = .leftParen) (spelled : Expr.Spells tokens expr)
      (closes : right.kind = .rightParen) (indexed : IsIndex "Y" index) :
      Fits .indirectY (left :: (tokens ++ right :: index)) expr

/-- The tokens are written in some form. -/
def WellFormed (tokens : List Token) : Prop := ∃ form expr, Fits form tokens expr

/-- The tokens are written as an operand: they fit its form, and no special form that is a case of
it. -/
def Written (tokens : List Token) (operand : Operand) : Prop :=
  Fits operand.form tokens operand.expr ∧
    ∀ special expr, special.general? = some operand.form → ¬ Fits special tokens expr

/-- A form without special cases is the one that is meant. -/
theorem Fits.written {tokens : List Token} {form : Form} {expr : Expr}
    (fits : Fits form tokens expr) (plain : form ≠ .absolute ∧ form ≠ .immediate) :
    Written tokens ⟨form, expr⟩ := by
  refine ⟨fits, fun special _ general => ?_⟩
  rcases (Form.eq_of_general? general).1 with same | same
  · exact absurd same plain.1
  · exact absurd same plain.2

/-- What is written in some form is written as an operand. -/
theorem wellFormed_iff {tokens : List Token} :
    WellFormed tokens ↔ ∃ operand, Written tokens operand := by
  constructor
  · rintro ⟨form, expr, fits⟩
    by_cases special : ∃ special expr, special.general? = some form ∧ Fits special tokens expr
    · obtain ⟨special, expr, general, fits⟩ := special
      exact ⟨⟨special, expr⟩, fits.written (Form.eq_of_general? general).2⟩
    · refine ⟨⟨form, expr⟩, fits, fun other tree general fits' => ?_⟩
      exact special ⟨other, tree, general, fits'⟩
  · rintro ⟨operand, fits, -⟩
    exact ⟨operand.form, operand.expr, fits⟩

/-! ### What is read is written -/

theorem skipIndex?_eq_some {register : String} {tokens rest : List Token}
    (skipped : skipIndex? register tokens = some rest) :
    ∃ index, tokens = index ++ rest ∧ IsIndex register index := by
  unfold skipIndex? at skipped
  split at skipped
  · rename_i comma index tokens
    split at skipped
    · rename_i indexed
      cases skipped
      exact ⟨[comma, index], rfl, .mk indexed.1 indexed.2.1 indexed.2.2⟩
    · cases skipped
  · cases skipped

/-- An expression that is read and put into a form is spelled. -/
theorem spells_of_map {form : Form} {tokens rest : List Token} {operand : Operand}
    (reads : (Expr.read tokens).map (fun (expr, rest) => (⟨form, expr⟩, rest)) =
      some (operand, rest)) :
    ∃ part expr, tokens = part ++ rest ∧ Expr.Spells part expr ∧ operand = ⟨form, expr⟩ := by
  obtain ⟨⟨expr, after⟩, reads', same⟩ := Option.map_eq_some_iff.mp reads
  cases same
  obtain ⟨part, split, spelled⟩ := Expr.sound_ofDepth _ reads'
  exact ⟨part, expr, split, spelled, rfl⟩

theorem sound_readImmediate : Reader.Sound readImmediate Written := by
  intro tokens operand rest reads
  cases tokens with
  | nil => cases reads
  | cons hash tokens =>
    simp only [readImmediate] at reads
    split at reads
    · rename_i marks
      cases selected : tokens.head?.bind Expr.select? with
      | some part =>
        obtain ⟨selector, first, chosen⟩ := Option.bind_eq_some_iff.mp selected
        obtain ⟨tail, rfl⟩ := List.head?_eq_some_iff.mp first
        rw [Expr.select?_eq_some_iff] at chosen
        rw [selected] at reads
        cases part with
        | low =>
          obtain ⟨spelling, expr, rfl, spelled, rfl⟩ := spells_of_map reads
          exact ⟨hash :: selector :: spelling, rfl,
            (Fits.immediateLow marks chosen spelled).written (by decide)⟩
        | high =>
          obtain ⟨spelling, expr, rfl, spelled, rfl⟩ := spells_of_map reads
          exact ⟨hash :: selector :: spelling, rfl,
            (Fits.immediateHigh marks chosen spelled).written (by decide)⟩
      | none =>
        rw [selected] at reads
        obtain ⟨spelling, expr, rfl, spelled, rfl⟩ := spells_of_map reads
        obtain ⟨first, more, rfl, -⟩ := spelled.head
        refine ⟨hash :: first :: more, rfl, .immediate marks spelled, ?_⟩
        -- a special form would have a selector after the mark
        have unselected (part : ByteSelect) : ¬ first.isOperator part.symbol = true := by
          rw [← Expr.select?_eq_some_iff, show Expr.select? first = none from selected]
          simp
        intro special tree general fits
        cases special with
        | immediateLow => cases fits with | immediateLow _ low => exact unselected .low low
        | immediateHigh => cases fits with | immediateHigh _ high => exact unselected .high high
        | _ => cases general
    · cases reads

theorem sound_readIndirect : Reader.Sound readIndirect Written := by
  intro tokens operand rest reads
  simp only [readIndirect, Option.bind_eq_bind, Option.bind_eq_some_iff] at reads
  obtain ⟨inside, opening, ⟨expr, after⟩, inner, reads⟩ := reads
  obtain ⟨left, rfl, opens⟩ := Expr.skipKind?_eq_some opening
  obtain ⟨part, rfl, spelled⟩ := Expr.sound_ofDepth _ inner
  cases indexed : (skipIndex? "X" after).bind (Expr.skipKind? .rightParen) with
  | some remains =>
    simp only [indexed] at reads
    cases reads
    obtain ⟨closing, skipped, closed⟩ := Option.bind_eq_some_iff.mp indexed
    obtain ⟨index, rfl, isIndex⟩ := skipIndex?_eq_some skipped
    obtain ⟨right, rfl, closes⟩ := Expr.skipKind?_eq_some closed
    exact ⟨left :: (part ++ (index ++ [right])), by simp,
      (Fits.indirectX opens spelled isIndex closes).written (by decide)⟩
  | none =>
    simp only [indexed, Option.bind_eq_some_iff] at reads
    obtain ⟨closing, closed, reads⟩ := reads
    obtain ⟨right, rfl, closes⟩ := Expr.skipKind?_eq_some closed
    cases skipped : skipIndex? "Y" closing with
    | some remains =>
      simp only [skipped] at reads
      cases reads
      obtain ⟨index, rfl, isIndex⟩ := skipIndex?_eq_some skipped
      exact ⟨left :: (part ++ right :: index), by simp,
        (Fits.indirectY opens spelled closes isIndex).written (by decide)⟩
    | none =>
      simp only [skipped] at reads
      cases reads
      exact ⟨left :: (part ++ [right]), by simp,
        (Fits.indirect opens spelled closes).written (by decide)⟩

theorem skipIndex?_of_closes {register : String} {right : Token} {tokens : List Token}
    (closes : right.kind = .rightParen) : skipIndex? register (right :: tokens) = none := by
  cases tokens <;> simp [skipIndex?, closes]

/-- An operand that starts with a parenthesis is read as an indirect one, if it is read at all. -/
theorem isBare_of_readIndirect {tokens : List Token} {result : Expr × List Token}
    (other : readIndirect tokens = none) (reads : Expr.read tokens = some result) :
    IsBare tokens := by
  intro left first opens
  obtain ⟨tail, rfl⟩ := List.head?_eq_some_iff.mp first
  obtain ⟨inner, right, after, inside, closes⟩ := Expr.read_inside opens reads
  have unindexed : skipIndex? "X" (right :: after) = none := skipIndex?_of_closes closes
  simp only [readIndirect, Expr.skipKind?, opens, inside, unindexed, closes, if_true,
    Option.bind_eq_bind, Option.bind_some, Option.bind_none] at other
  split at other <;> cases other

theorem sound_readPlain {tokens rest : List Token} {operand : Operand}
    (other : readIndirect tokens = none) (reads : readPlain tokens = some (operand, rest)) :
    ∃ part, tokens = part ++ rest ∧ Written part operand := by
  simp only [readPlain, Option.bind_eq_bind, Option.bind_eq_some_iff] at reads
  obtain ⟨⟨expr, after⟩, read, reads⟩ := reads
  have bare := isBare_of_readIndirect other read
  obtain ⟨part, rfl, spelled⟩ := Expr.sound_ofDepth _ read
  obtain ⟨first, more, rfl, -⟩ := spelled.head
  replace bare : IsBare (first :: more) := bare
  cases indexed : skipIndex? "X" after with
  | some remains =>
    simp only [indexed] at reads
    cases reads
    obtain ⟨index, rfl, isIndex⟩ := skipIndex?_eq_some indexed
    exact ⟨first :: more ++ index, by simp,
      (Fits.absoluteX bare spelled isIndex).written (by decide)⟩
  | none =>
    cases indexed' : skipIndex? "Y" after with
    | some remains =>
      simp only [indexed, indexed'] at reads
      cases reads
      obtain ⟨index, rfl, isIndex⟩ := skipIndex?_eq_some indexed'
      exact ⟨first :: more ++ index, by simp,
        (Fits.absoluteY bare spelled isIndex).written (by decide)⟩
    | none =>
      simp only [indexed, indexed'] at reads
      cases reads
      refine ⟨first :: more, rfl, ?_⟩
      by_cases named : expr = .symbol ⟨"A"⟩
      · subst named
        obtain ⟨token, same, kind, name⟩ := spelled.eq_singleton bare
        rw [if_pos rfl, same]
        exact (Fits.accumulator kind (Name.mk.inj name)).written (by decide)
      · rw [if_neg named]
        refine ⟨.absolute bare spelled, fun special tree general fits => ?_⟩
        cases special with
        | accumulator =>
          obtain ⟨kind, name⟩ := fits
          have spelled' := Expr.Spells.chain (.atom (.name kind)) .nil
          -- the tokens spell one expression only
          refine named (spelled.unique ?_)
          simpa [Name.ofText, name] using spelled'
        | _ => cases general

/-- **What is read is written**: the tokens that the reader takes are written as the operand that it
finds. -/
theorem sound_read : Reader.Sound read Written := by
  intro tokens operand rest reads
  simp only [read, Option.orElse_eq_orElse, Option.orElse_eq_or, Option.or_eq_some_iff] at reads
  rcases reads with reads | ⟨-, reads | ⟨other, reads⟩⟩
  · exact sound_readImmediate reads
  · exact sound_readIndirect reads
  · exact sound_readPlain other reads

/-! ### What is written is read -/

theorem readImmediate_of_unmarked {token : Token} {tokens : List Token}
    (unmarked : token.isOperator "#" = false) : readImmediate (token :: tokens) = none := by
  simp [readImmediate, unmarked]

theorem readIndirect_of_isBare {tokens : List Token} (bare : IsBare tokens) :
    readIndirect tokens = none := by
  cases tokens with
  | nil => rfl
  | cons token tokens => simp [readIndirect, Expr.skipKind?, bare token rfl]

/-- In an immediate operand a selector after the mark belongs to the form. -/
theorem Written.unselected {hash : Token} {tokens : List Token} {expr : Expr}
    (written : Written (hash :: tokens) ⟨.immediate, expr⟩) (marks : hash.isOperator "#" = true)
    (spelled : Expr.Spells tokens expr) : tokens.head?.bind Expr.select? = none := by
  cases selected : tokens.head?.bind Expr.select? with
  | none => rfl
  | some part =>
    obtain ⟨selector, first, chosen⟩ := Option.bind_eq_some_iff.mp selected
    obtain ⟨tail, rfl⟩ := List.head?_eq_some_iff.mp first
    obtain ⟨inner, spelled'⟩ := spelled.of_selector chosen
    rw [Expr.select?_eq_some_iff] at chosen
    cases part with
    | low => exact absurd (.immediateLow marks chosen spelled') (written.2 .immediateLow inner rfl)
    | high =>
      exact absurd (.immediateHigh marks chosen spelled') (written.2 .immediateHigh inner rfl)

/-- An absolute operand is not the name of the accumulator. -/
theorem Written.ne_accumulator {tokens : List Token} {expr : Expr}
    (written : Written tokens ⟨.absolute, expr⟩) (bare : IsBare tokens)
    (spelled : Expr.Spells tokens expr) : expr ≠ .symbol ⟨"A"⟩ := by
  rintro rfl
  obtain ⟨token, rfl, kind, name⟩ := spelled.eq_singleton bare
  exact written.2 .accumulator _ rfl (.accumulator kind (Name.mk.inj name))

theorem IsIndex.stop {register : String} {index : List Token} (indexed : IsIndex register index)
    (rest : List Token) : ∀ token ∈ (index ++ rest).head?, Expr.operator? token = none := by
  obtain ⟨separates, -, -⟩ := indexed
  rintro token ⟨⟩
  exact Expr.operator?_of_kind (by simp [separates])

theorem IsIndex.skip {register : String} {index : List Token} (indexed : IsIndex register index)
    (rest : List Token) : skipIndex? register (index ++ rest) = some rest := by
  obtain ⟨separates, kind, name⟩ := indexed
  simp [skipIndex?, separates, kind, name]

theorem IsIndex.skip_other {register other : String} {index : List Token}
    (indexed : IsIndex register index) (different : register ≠ other) (rest : List Token) :
    skipIndex? other (index ++ rest) = none := by
  obtain ⟨-, -, name⟩ := indexed
  simp [skipIndex?, name, different]

/-- A plain operand is read with the index after it. -/
theorem read_of_spells {tokens rest : List Token} {expr : Expr} (bare : IsBare tokens)
    (spelled : Expr.Spells tokens expr)
    (stop : ∀ token ∈ rest.head?, Expr.operator? token = none) :
    read (tokens ++ rest) =
      match skipIndex? "X" rest with
      | some rest => some (⟨.absoluteX, expr⟩, rest)
      | none =>
        match skipIndex? "Y" rest with
        | some rest => some (⟨.absoluteY, expr⟩, rest)
        | none =>
          some (⟨if expr = .symbol ⟨"A"⟩ then .accumulator else .absolute, expr⟩, rest) := by
  obtain ⟨first, more, rfl, unmarked⟩ := spelled.head
  have immediate : readImmediate (first :: more ++ rest) = none :=
    readImmediate_of_unmarked unmarked
  have indirect : readIndirect (first :: more ++ rest) = none := readIndirect_of_isBare bare
  have plain := spelled.read_of_stop stop
  rw [read, immediate, indirect, readPlain, plain]
  rfl

/-- An operand in parentheses is read as an indirect one. -/
theorem read_of_opens {left : Token} {tokens : List Token} {operand : Operand}
    (opens : left.kind = .leftParen)
    (reads : readIndirect (left :: tokens) = some (operand, [])) :
    read (left :: tokens) = some (operand, []) := by
  have immediate : readImmediate (left :: tokens) = none :=
    readImmediate_of_unmarked (by simp [Token.isOperator, opens])
  rw [read, immediate, reads]
  rfl

theorem operator?_of_closes {right : Token} (closes : right.kind = .rightParen)
    (rest : List Token) : ∀ token ∈ (right :: rest).head?, Expr.operator? token = none := by
  rintro token ⟨⟩
  exact Expr.operator?_of_kind (by simp [closes])

/-- **What is written is read.** -/
theorem Written.read {tokens : List Token} {operand : Operand} (written : Written tokens operand) :
    read tokens = some (operand, []) := by
  obtain ⟨form, expr⟩ := operand
  have fits := written.1
  cases fits with
  | @accumulator token kind name =>
    have bare : IsBare [token] := by
      rintro token ⟨⟩
      rcases kind with kind | kind <;> simp [kind]
    have spelled : Expr.Spells ([token] ++ []) (.symbol (Name.ofText token.lexeme)) :=
      .chain (.atom (.name kind)) .nil
    have reads := @read_of_spells _ [] _ bare spelled fun _ mem => by cases mem
    simpa [skipIndex?, Name.ofText, name] using reads
  | immediate marks spelled =>
    simp [Operand.read, readImmediate, marks, written.unselected marks spelled, spelled.read_all]
  | @immediateLow hash selector tokens expr marks low spelled =>
    have selected : Expr.select? selector = some .low := Expr.select?_eq_some_iff.mpr low
    simp [Operand.read, readImmediate, marks, selected, spelled.read_all]
  | @immediateHigh hash selector tokens expr marks high spelled =>
    have selected : Expr.select? selector = some .high := Expr.select?_eq_some_iff.mpr high
    simp [Operand.read, readImmediate, marks, selected, spelled.read_all]
  | absolute bare spelled =>
    have reads := @read_of_spells _ [] _ bare spelled fun _ mem => by cases mem
    simpa [skipIndex?, written.ne_accumulator bare spelled] using reads
  | absoluteX bare spelled indexed =>
    have stop := indexed.stop []
    have skip := indexed.skip []
    rw [List.append_nil] at stop skip
    rw [read_of_spells bare spelled stop, skip]
  | absoluteY bare spelled indexed =>
    have stop := indexed.stop []
    have skip := indexed.skip []
    have other := indexed.skip_other (by decide : "Y" ≠ "X") []
    rw [List.append_nil] at stop skip other
    rw [read_of_spells bare spelled stop, other, skip]
  | indirect opens spelled closes =>
    refine read_of_opens opens ?_
    simp [readIndirect, Expr.skipKind?, opens, spelled.read_of_stop (operator?_of_closes closes []),
      closes, skipIndex?]
  | indirectX opens spelled indexed closes =>
    refine read_of_opens opens ?_
    simp [readIndirect, Expr.skipKind?, opens, spelled.read_of_stop (indexed.stop _),
      indexed.skip, closes]
  | @indirectY left right tokens index expr opens spelled closes indexed =>
    have skip := indexed.skip []
    have unindexed : skipIndex? "X" (right :: index) = none := skipIndex?_of_closes closes
    rw [List.append_nil] at skip
    refine read_of_opens opens ?_
    simp [readIndirect, Expr.skipKind?, opens, spelled.read_of_stop (operator?_of_closes closes _),
      unindexed, closes, skip]

/-- **The reader takes a whole operand exactly if it is written in a form**, and finds the form and
the expression in it. -/
theorem read_eq_some_nil_iff {tokens : List Token} {operand : Operand} :
    read tokens = some (operand, []) ↔ Written tokens operand := by
  constructor
  · intro reads
    obtain ⟨part, rfl, written⟩ := sound_read reads
    rwa [List.append_nil]
  · exact Written.read

end Operand

/-! ### Lines with an instruction -/

namespace Statement

/-- The tokens are a label, perhaps with a colon after it, or there are none. -/
inductive IsLabel : List Token → Prop where
  /-- No label. -/
  | none : IsLabel []
  /-- A label. -/
  | bare {label : Token} (kind : label.kind = .label) : IsLabel [label]
  /-- A label and a colon. -/
  | colon {label colon : Token} (kind : label.kind = .label) (separates : colon.kind = .colon) :
      IsLabel [label, colon]

/-- The tokens are a comment, or there are none. -/
inductive IsComment : List Token → Prop where
  /-- No comment. -/
  | none : IsComment []
  /-- A comment. -/
  | some {comment : Token} (kind : comment.kind = .comment) : IsComment [comment]

/-- A line with an instruction: a label or none, the mnemonic, the tokens of the operand up to the
comment, a comment or none. -/
structure InstructionLine (line : List Token) (mnemonic : Token) (operand : List Token) : Prop where
  parts : ∃ label comment, line = label ++ mnemonic :: (operand ++ comment) ∧ IsLabel label ∧
    IsComment comment
  kind : mnemonic.kind = .mnemonic ∨ mnemonic.kind = .symbol
  uncommented : ∀ token ∈ operand, token.kind ≠ .comment

section Line

variable {line label comment operand : List Token} {keyword : Token}

theorem splitComment_append {body : List Token}
    (uncommented : ∀ token ∈ body, token.kind ≠ .comment)
    (isComment : IsComment comment) :
    splitComment (body ++ comment) = (body, comment.head?.map (·.lexeme)) := by
  cases isComment with
  | some kind => simp [splitComment, kind]
  | none =>
    rw [List.append_nil, splitComment]
    cases last : body.getLast? with
    | none => simp [List.getLast?_eq_none_iff.mp last]
    | some token => simp [uncommented token (List.mem_of_getLast? last)]

theorem readLabel_append (isLabel : IsLabel label) (other : keyword.kind.isLabelPart = false)
    (tokens : List Token) : (readLabel (label ++ keyword :: tokens)).2 = keyword :: tokens := by
  have neither : keyword.kind ≠ .label ∧ keyword.kind ≠ .colon := by
    constructor <;> (intro kind; simp [kind, TokenKind.isLabelPart] at other)
  cases isLabel with
  | none => simp [readLabel, neither]
  | bare kind => simp [readLabel, kind, skipColon, neither]
  | colon kind separates => simp [readLabel, kind, skipColon, separates]

theorem IsLabel.isLabelPart (isLabel : IsLabel label) :
    ∀ token ∈ label, token.kind.isLabelPart = true := by
  cases isLabel with
  | none => simp
  | bare kind => simp [kind, TokenKind.isLabelPart]
  | colon kind separates => simp [kind, separates, TokenKind.isLabelPart]

theorem afterOperation_append (isLabel : IsLabel label) (other : keyword.kind.isLabelPart = false)
    (tokens : List Token) : afterOperation (label ++ keyword :: tokens) = tokens := by
  have rest : (keyword :: tokens).dropWhile (·.kind.isLabelPart) = keyword :: tokens :=
    List.dropWhile_cons_of_neg (by simp [other])
  rw [afterOperation, List.dropWhile_append_of_pos isLabel.isLabelPart, rest, List.drop_one,
    List.tail_cons]

theorem readOperation_cons (kind : keyword.kind = .mnemonic ∨ keyword.kind = .symbol)
    (tokens : List Token) :
    readOperation (keyword :: tokens) =
      some (instruction (Text.upper keyword.lexeme) tokens) := by
  rcases kind with kind | kind <;> simp [readOperation, kind]

/-- A line with an operation reads as a statement with that operation. -/
theorem exists_statement_of_readOperation {operation : Operation} (isLabel : IsLabel label)
    (isComment : IsComment comment) (other : keyword.kind.isLabelPart = false)
    (uncommented : ∀ token ∈ keyword :: operand, token.kind ≠ .comment)
    (reads : readOperation (keyword :: operand) = some operation) :
    ∃ statement, ofLine? (label ++ keyword :: (operand ++ comment)) = some statement ∧
      statement.tokens = label ++ keyword :: (operand ++ comment) ∧
      statement.operandTokens = operand ∧ statement.operation = some operation := by
  have body : ∀ token ∈ label ++ keyword :: operand, token.kind ≠ .comment := by
    intro token mem
    rcases List.mem_append.mp mem with mem | mem
    · have part := isLabel.isLabelPart token mem
      intro comment
      simp [comment, TokenKind.isLabelPart] at part
    · exact uncommented token mem
  have split := splitComment_append body isComment
  rw [← readLabel_append isLabel other] at reads
  rw [List.append_assoc, List.cons_append] at split
  obtain ⟨first, more, whole⟩ : ∃ first more, label ++ keyword :: (operand ++ comment) =
      first :: more := List.exists_cons_of_ne_nil (by simp)
  simp only [ofLine?, whole]
  rw [← whole]
  simp only [split, reads, Option.isNone_some, Bool.and_false, Bool.false_and,
    Bool.false_eq_true, if_false, Option.isSome_some, if_true, Option.some.injEq]
  exact ⟨_, rfl, rfl, afterOperation_append isLabel other operand, rfl⟩

/-- A line with an instruction reads as a statement with that instruction. -/
theorem InstructionLine.exists_statement {mnemonic : Token}
    (reads : InstructionLine line mnemonic operand) :
    ∃ statement, ofLine? line = some statement ∧ statement.tokens = line ∧
      statement.operandTokens = operand ∧
      statement.operation = some (instruction (Text.upper mnemonic.lexeme) operand) := by
  obtain ⟨⟨label, comment, rfl, isLabel, isComment⟩, kind, uncommented⟩ := reads
  refine exists_statement_of_readOperation isLabel isComment ?_ ?_ (readOperation_cons kind operand)
  · rcases kind with kind | kind <;> simp [kind, TokenKind.isLabelPart]
  · refine List.forall_mem_cons.mpr ⟨?_, uncommented⟩
    rcases kind with kind | kind <;> simp [kind]

end Line

/-! ### What an instruction makes of its operand -/

section Instruction

variable {text : String} {tokens : List Token} {statement : Statement}

/-- An instruction takes all tokens after the mnemonic exactly if they are written as an operand. -/
theorem taken_iff_written (operation : statement.operation = some (instruction text tokens))
    {form : Form} {expr : Expr} :
    statement.form? = some form ∧ statement.expr? = some expr ∧ statement.hasUnread = false ↔
      Operand.Written tokens ⟨form, expr⟩ := by
  rw [← Operand.read_eq_some_nil_iff, form?, expr?, hasUnread, operation, instruction]
  cases Operand.read tokens with
  | none => simp
  | some result =>
    obtain ⟨⟨form', expr'⟩, rest⟩ := result
    simp [and_assoc]

/-- A form stands around an expression. -/
theorem exists_expr? {form : Form} (isForm : statement.form? = some form) :
    ∃ expr, statement.expr? = some expr := by
  unfold form? at isForm
  unfold expr?
  split at isForm
  · rename_i operation
    obtain ⟨operand, rfl, -⟩ := Option.map_eq_some_iff.mp isForm
    exact ⟨operand.expr, by rw [operation]; rfl⟩
  · cases isForm

/-- An instruction takes all tokens after the mnemonic exactly if they are well formed. -/
theorem taken_iff_wellFormed (operation : statement.operation = some (instruction text tokens)) :
    statement.form?.isSome = true ∧ statement.hasUnread = false ↔ Operand.WellFormed tokens := by
  rw [Operand.wellFormed_iff]
  constructor
  · rintro ⟨isForm, taken⟩
    obtain ⟨form, isForm⟩ := Option.isSome_iff_exists.mp isForm
    obtain ⟨expr, isExpr⟩ := exists_expr? isForm
    exact ⟨⟨form, expr⟩, (taken_iff_written operation).mp ⟨isForm, isExpr, taken⟩⟩
  · rintro ⟨⟨form, expr⟩, written⟩
    obtain ⟨isForm, -, taken⟩ := (taken_iff_written operation).mpr written
    exact ⟨by simp [isForm], taken⟩

/-- Of an operand that is not well formed some tokens are left. -/
theorem exists_unread (malformed : ¬ Operand.WellFormed tokens) (present : tokens ≠ [])
    (text : String) :
    ∃ operand token unread,
      instruction text tokens = .instruction text operand (token :: unread) := by
  unfold instruction
  cases reads : Operand.read tokens with
  | none =>
    obtain ⟨token, unread, rfl⟩ := List.exists_cons_of_ne_nil present
    exact ⟨none, token, unread, rfl⟩
  | some result =>
    obtain ⟨operand, rest⟩ := result
    cases rest with
    | nil =>
      rw [Operand.read_eq_some_nil_iff] at reads
      exact absurd (Operand.wellFormed_iff.mpr ⟨operand, reads⟩) malformed
    | cons token unread => exact ⟨some operand, token, unread, rfl⟩

end Instruction

end Statement

namespace Assembly

/-! ### Operands that are not understood -/

/-- An instruction of which tokens are left is reported, and has no other effect than its label. -/
theorem visit_of_unread {options : Options} {statements : List Statement} {i : Nat}
    {statement : Statement} {mnemonic : String} {operand : Option Operand} {token : Token}
    {unread : List Token} {opcode : Opcode} (found : statements[i]? = some statement)
    (operation : statement.operation = some (.instruction mnemonic operand (token :: unread)))
    (known : Opcode.find? mnemonic = some opcode)
    (enabled : (before options statements .two i).conditions.enabled = true) :
    let report := (visit options statements .two i statement).2
    report.bytes = [] ∧ report.relocations = [] ∧
      report.diagnostics =
        [⟨.unreadableOperand statement.operandText, some statement.position⟩] ∧
      (before options statements .two (i + 1)).here = (before options statements .two i).here := by
  have assembles : (before options statements .two i).Assembles statement :=
    ⟨by simp only [Statement.role, operation], enabled⟩
  rw [before_succ found, visit, step_of_assembles assembles, assembled_eq,
    effectOf_instruction operation, Effect.instruction_of_unread known]
  refine ⟨?_, ?_, ?_, ?_⟩
  · simp [Effect.report]
  · simp [Effect.report, relocations]
  · rw [warnings_two]
    rfl
  · simp [Effect.report, State.apply]

/-- **Operands of instructions are classified exactly**: a line with an instruction and an operand
reads as a statement that takes the whole operand exactly if this is well formed, and then the
statement has the form and the expression that the operand is written with. An operand that is not
well formed makes the assembler report its statement, if the mnemonic exists and the block is
enabled, and nothing is put into the output for it. -/
theorem operand_classified (tokens line : List Token) (mnemonic : Token) (operand : List Token)
    (listed : line ∈ tokens.splitOnP (·.kind.isEnd))
    (reads : Statement.InstructionLine line mnemonic operand) (present : operand ≠ []) :
    ∃ statement ∈ Statement.ofTokens tokens,
      statement.tokens = line ∧ statement.operandTokens = operand ∧
      statement.mnemonic? = some (Text.upper mnemonic.lexeme) ∧
      (statement.form?.isSome = true ∧ statement.hasUnread = false ↔
        Operand.WellFormed operand) ∧
      (∀ form expr, statement.form? = some form ∧ statement.expr? = some expr ∧
          statement.hasUnread = false ↔ Operand.Written operand ⟨form, expr⟩) ∧
      (¬ Operand.WellFormed operand →
        ∀ options statements i opcode, statements[i]? = some statement →
          Opcode.find? (Text.upper mnemonic.lexeme) = some opcode →
          (before options statements .two i).conditions.enabled = true →
          (visit options statements .two i statement).2.bytes = [] ∧
            (visit options statements .two i statement).2.relocations = [] ∧
            (before options statements .two (i + 1)).here =
              (before options statements .two i).here ∧
            ∃ diagnostic ∈ (run options statements).diagnostics,
              diagnostic.kind = .invalidAddressingMode ∧
                diagnostic.position = some statement.position) := by
  obtain ⟨statement, parsed, whole, rest, operation⟩ := reads.exists_statement
  have mnemonic? : statement.mnemonic? = some (Text.upper mnemonic.lexeme) := by
    rw [Statement.mnemonic?, operation, Statement.instruction]
    cases Operand.read operand <;> rfl
  refine ⟨statement, List.mem_filterMap.mpr ⟨line, listed, parsed⟩, whole, rest, mnemonic?,
    Statement.taken_iff_wellFormed operation, fun _ _ => Statement.taken_iff_written operation, ?_⟩
  intro malformed options statements i opcode found known enabled
  obtain ⟨written, token, unread, left⟩ :=
    Statement.exists_unread malformed present (Text.upper mnemonic.lexeme)
  rw [left] at operation
  obtain ⟨bytes, relocations, diagnostics, here⟩ := visit_of_unread found operation known enabled
  refine ⟨bytes, relocations, here,
    ⟨.unreadableOperand statement.operandText, some statement.position⟩,
    mem_diagnostics_of_visit .two found ?_, rfl, rfl⟩
  rw [diagnostics]
  exact List.mem_singleton_self _

/-- The tokens of a line whose operand starts with a parenthesis and goes on after it:

  LOOP: LDA (2+3)*4 ; sum
-/
def productLine : List Token :=
  let token (kind : TokenKind) (lexeme : String) (column : Nat) : Token :=
    ⟨kind, lexeme, ⟨1, column⟩⟩
  [token .label "LOOP" 1, token .colon ":" 5, token .mnemonic "LDA" 7, token .leftParen "(" 11,
    token .number "2" 12, token .operator "+" 13, token .number "3" 14, token .rightParen ")" 15,
    token .operator "*" 16, token .number "4" 17, token .comment "; sum" 19]

/-- The operand of `productLine` is not well formed: it is taken for an indirect operand with
something left after it, and reported. -/
theorem operand_classified_productLine :
    let line := productLine
    let tokens := line ++ [⟨.endOfLine, "", ⟨1, 24⟩⟩]
    let mnemonic : Token := ⟨.mnemonic, "LDA", ⟨1, 7⟩⟩
    let operand := (line.drop 3).take 7
    line ∈ tokens.splitOnP (·.kind.isEnd) ∧
      Statement.InstructionLine line mnemonic operand ∧
      ∃ statement ∈ Statement.ofTokens tokens,
        statement.form? = some .indirect ∧ statement.hasUnread = true ∧
        ¬ Operand.WellFormed operand ∧
        (visit {} [statement] .two 0 statement).2.bytes = [] ∧
        ∃ diagnostic ∈ (run {} [statement]).diagnostics,
          diagnostic.kind = .invalidAddressingMode ∧
            diagnostic.position = some statement.position := by
  intro line tokens mnemonic operand
  have listed : line ∈ tokens.splitOnP (·.kind.isEnd) := by decide +kernel
  have reads : Statement.InstructionLine line mnemonic operand :=
    ⟨⟨line.take 2, line.drop 10, rfl, .colon rfl rfl, .some rfl⟩, .inl rfl, by decide⟩
  obtain ⟨statement, parsed, -, -, -, taken, -, rejects⟩ :=
    operand_classified tokens line mnemonic operand listed reads (by decide)
  have read : ∀ statement ∈ Statement.ofTokens tokens,
      statement.form? = some .indirect ∧ statement.hasUnread = true := by decide +kernel
  obtain ⟨form, unread⟩ := read statement parsed
  have malformed : ¬ Operand.WellFormed operand := by
    rw [← taken, unread]
    simp
  obtain ⟨opcode, known⟩ : ∃ opcode, Opcode.find? (Text.upper mnemonic.lexeme) = some opcode :=
    Option.isSome_iff_exists.mp (by decide +kernel)
  obtain ⟨bytes, -, -, reported⟩ := rejects malformed {} [statement] 0 opcode rfl known rfl
  exact ⟨listed, reads, statement, parsed, form, unread, malformed, bytes, reported⟩

end Assembly

end Asm6502
