import Asm6502.Proofs.OperandForms
import Asm6502.Proofs.Output
import Mathlib.Data.List.Forall2

/-!
# Value lists

The operand of a value list is written as expressions with commas between them:

    list := expression (, expression)*

The reader splits whatever tokens it is given at the commas outside parentheses, and reads an
expression at the start of each group. `leveled` gives every token the depth of parentheses before
it, where a closing parenthesis without a partner does not count; the groups are the tokens split at
the commas of depth zero (`groups_eq_splitOnP`), one more than there are such commas
(`length_groups`), and with these commas between them they are the tokens again (`joined_groups`).

The parentheses of an expression are paired and there are no commas in it, so it is never split
(`Spells.unsplit`). A list that is written by the grammar is therefore read as its expressions
(`SpellsList.valueList`), and each of them has its bytes in the output (`Assembly.visit_values`).
-/

namespace Asm6502

/-- A list is split into one part more than there are items to split at. -/
theorem length_splitOnP {α : Type} (ends : α → Bool) (items : List α) :
    (items.splitOnP ends).length = (items.filter ends).length + 1 := by
  induction items with
  | nil => rfl
  | cons item items ih =>
    rw [List.splitOnP_cons_eq_if_modifyHead, List.filter_cons]
    split
    · rw [List.length_cons, List.length_cons, ih]
    · rw [List.length_modifyHead, ih]

namespace Operand

/-! ### Splitting at commas -/

/-- The tokens with the depth of parentheses before each of them. -/
def leveled (depth : Nat) (tokens : List Token) : List (Token × Nat) :=
  tokens.zip (tokens.scanl depthAfter depth)

/-- The token is a comma outside parentheses. -/
def separates (item : Token × Nat) : Bool := decide (item.1.kind = .comma ∧ item.2 = 0)

/-- The commas outside parentheses. -/
def separators (depth : Nat) (tokens : List Token) : List Token :=
  ((leveled depth tokens).filter separates).map Prod.fst

/-- Groups of tokens with the separators between them. -/
def joined (groups : List (List Token)) (separators : List Token) : List Token :=
  (List.zipWith (· ++ ·) groups (separators.map ([·]) ++ [[]])).flatten

@[simp] theorem leveled_nil (depth : Nat) : leveled depth [] = [] := rfl

@[simp] theorem leveled_cons (depth : Nat) (token : Token) (tokens : List Token) :
    leveled depth (token :: tokens) =
      (token, depth) :: leveled (depthAfter depth token) tokens := by
  simp [leveled]

theorem map_fst_leveled (depth : Nat) (tokens : List Token) :
    (leveled depth tokens).map Prod.fst = tokens := by
  induction tokens generalizing depth with
  | nil => rfl
  | cons token tokens ih => simp [ih]

/-- A comma does not change the depth. -/
theorem depthAfter_comma {token : Token} (comma : token.kind = .comma) (depth : Nat) :
    depthAfter depth token = depth := by
  simp [depthAfter, comma]

/-- **The groups are the tokens split at the commas outside parentheses.** -/
theorem groups_eq_splitOnP (depth : Nat) (tokens : List Token) :
    groups depth tokens = ((leveled depth tokens).splitOnP separates).map (List.map Prod.fst) := by
  induction tokens generalizing depth with
  | nil => rfl
  | cons token tokens ih =>
    rw [groups, leveled_cons, List.splitOnP_cons_eq_if_modifyHead]
    by_cases splits : token.kind = .comma ∧ depth = 0
    · obtain ⟨comma, rfl⟩ := splits
      have cut : separates (token, 0) = true := by simp [separates, comma]
      rw [if_pos ⟨comma, rfl⟩, if_pos cut, depthAfter_comma comma, ih]
      rfl
    · have kept : ¬ separates (token, depth) = true := by simpa [separates] using splits
      rw [if_neg splits, if_neg kept, ih]
      cases (leveled (depthAfter depth token) tokens).splitOnP separates <;> rfl

/-- There is one group more than commas outside parentheses. -/
theorem length_groups (depth : Nat) (tokens : List Token) :
    (groups depth tokens).length = (separators depth tokens).length + 1 := by
  rw [groups_eq_splitOnP, List.length_map, length_splitOnP, separators, List.length_map]

/-- The groups with the separators between them are the tokens again. -/
theorem joined_groups (depth : Nat) (tokens : List Token) :
    joined (groups depth tokens) (separators depth tokens) = tokens := by
  let pieces := (leveled depth tokens).splitOnP separates
  let ends := ((leveled depth tokens).filter separates).map ([·]) ++ [[]]
  have same : (separators depth tokens).map ([·]) ++ [[]] = ends.map (List.map Prod.fst) := by
    simp [separators, ends]
  calc joined (groups depth tokens) (separators depth tokens)
      = (List.zipWith (· ++ ·) (pieces.map (List.map Prod.fst))
          (ends.map (List.map Prod.fst))).flatten := by
        rw [joined, groups_eq_splitOnP, same]
    _ = (List.zipWith (· ++ ·) pieces ends).flatten.map Prod.fst := by
        simp [List.zipWith_map, List.map_flatten, List.map_zipWith]
    _ = tokens := by rw [List.splitOnP_spec, map_fst_leveled]

/-- In `),(1,2),` the first parenthesis has no partner, and nothing stands after the last comma. -/
example :
    let token (kind : TokenKind) (lexeme : String) : Token := ⟨kind, lexeme, ⟨1, 1⟩⟩
    (groups 0 [token .rightParen ")", token .comma ",", token .leftParen "(", token .number "1",
        token .comma ",", token .number "2", token .rightParen ")", token .comma ","]).map
      Token.joined = [")", "(1,2)", ""] := by
  decide +kernel

/-! ### Expressions are not split -/

/-- The tokens stand in one group, and there is no comment among them. -/
structure Unsplit (part : List Token) : Prop where
  groups : ∀ depth rest,
    Operand.groups depth (part ++ rest) = (Operand.groups depth rest).modifyHead (part ++ ·)
  uncommented : ∀ token ∈ part, token.kind ≠ .comment

namespace Unsplit

variable {part more : List Token} {token left right : Token}

theorem nil : Unsplit [] where
  groups := by
    intro depth rest
    rw [List.nil_append]
    cases Operand.groups depth rest <;> rfl
  uncommented := by simp

theorem append (first : Unsplit part) (second : Unsplit more) : Unsplit (part ++ more) where
  groups := by
    intro depth rest
    rw [List.append_assoc, first.groups, second.groups, List.modifyHead_modifyHead]
    congr 1
    funext group
    exact (List.append_assoc ..).symm
  uncommented := by
    intro token mem
    rcases List.mem_append.mp mem with mem | mem
    · exact first.uncommented token mem
    · exact second.uncommented token mem

/-- A token alone, unless it is a comma, a parenthesis or a comment. -/
theorem single (comma : token.kind ≠ .comma) (opens : token.kind ≠ .leftParen)
    (closes : token.kind ≠ .rightParen) (comment : token.kind ≠ .comment) : Unsplit [token] where
  groups := by
    intro depth rest
    have level : depthAfter depth token = depth := by
      unfold depthAfter
      split
      · contradiction
      · contradiction
      · rfl
    rw [List.singleton_append, Operand.groups, if_neg (fun both => comma both.1), level]
    rfl
  uncommented := by simpa using comment

theorem cons (first : Unsplit [token]) (second : Unsplit part) : Unsplit (token :: part) :=
  first.append second

/-- Between parentheses the depth is never zero, and after them it is what it was before. -/
theorem parens (opens : left.kind = .leftParen) (inner : Unsplit part)
    (closes : right.kind = .rightParen) : Unsplit (left :: (part ++ [right])) where
  groups := by
    intro depth rest
    have entered : Operand.groups depth (left :: (part ++ right :: rest)) =
        (Operand.groups (depth + 1) (part ++ right :: rest)).modifyHead (left :: ·) := by
      simp [Operand.groups, depthAfter, opens]
    have exited : Operand.groups (depth + 1) (right :: rest) =
        (Operand.groups depth rest).modifyHead (right :: ·) := by
      simp [Operand.groups, depthAfter, closes]
    rw [List.cons_append, List.append_assoc, List.singleton_append, entered, inner.groups, exited,
      List.modifyHead_modifyHead, List.modifyHead_modifyHead]
    congr 1
    funext group
    simp
  uncommented := by
    intro token mem
    simp only [List.mem_cons, List.mem_append, List.not_mem_nil, or_false] at mem
    rcases mem with rfl | mem | rfl
    · simp [opens]
    · exact inner.uncommented token mem
    · simp [closes]

theorem operator {text : String} (isOperator : token.isOperator text = true) : Unsplit [token] := by
  have kind := (Expr.isOperator_iff.mp isOperator).1
  exact single (by simp [kind]) (by simp [kind]) (by simp [kind]) (by simp [kind])

end Unsplit

end Operand

namespace Expr

open Operand (Unsplit)

mutual

theorem SpellsAtom.unsplit {tokens : List Token} {expr : Expr} (atom : SpellsAtom tokens expr) :
    Unsplit tokens := by
  match atom with
  | .number kind | .string kind =>
    exact .single (by simp [kind]) (by simp [kind]) (by simp [kind]) (by simp [kind])
  | .name kind =>
    rcases kind with kind | kind <;>
      exact .single (by simp [kind]) (by simp [kind]) (by simp [kind]) (by simp [kind])
  | .here asterisk => exact .operator asterisk
  | .parens opens inner closes => exact .parens opens inner.unsplit closes

theorem SpellsTerm.unsplit {tokens : List Token} {expr : Expr} (term : SpellsTerm tokens expr) :
    Unsplit tokens := by
  match term with
  | .select selector atom => exact .cons (.operator selector) atom.unsplit
  | .negative minus atom => exact .cons (.operator minus) atom.unsplit
  | .atom atom => exact atom.unsplit

theorem SpellsTail.unsplit {tokens : List Token} {links : List (Operator × Expr)}
    (tail : SpellsTail tokens links) : Unsplit tokens := by
  match tail with
  | .nil => exact .nil
  | .cons operator term tail => exact .cons (.operator operator) (term.unsplit.append tail.unsplit)

/-- **An expression stands in one group**, whatever stands around it. -/
theorem Spells.unsplit {tokens : List Token} {expr : Expr} (spelled : Spells tokens expr) :
    Unsplit tokens := by
  match spelled with
  | .chain term tail => exact term.unsplit.append tail.unsplit

end

/-- There is no expression at the start of tokens exactly if the grammar spells none there. -/
theorem parse?_eq_none_iff {tokens : List Token} :
    parse? tokens = none ↔ ∀ part expr, part <+: tokens → ¬ Spells part expr := by
  constructor
  · rintro none part expr ⟨rest, rfl⟩ spelled
    obtain ⟨whole, after, reads, -⟩ := spelled.exists_read rest
    simp [parse?, reads] at none
  · intro unspelled
    cases reads : read tokens with
    | none => simp [parse?, reads]
    | some result =>
      obtain ⟨part, split, spelled, -⟩ := spells_of_read reads
      exact absurd spelled (unspelled part _ ⟨_, split.symm⟩)

theorem Spells.parse?_eq {tokens : List Token} {expr : Expr} (spelled : Spells tokens expr) :
    parse? tokens = some expr := by
  rw [parse?, spelled.read_all]
  rfl

/-! ### Lists of expressions -/

/-- The tokens spell a list of expressions. -/
inductive SpellsList : List Token → List Expr → Prop where
  /-- One expression. -/
  | single {tokens : List Token} {expr : Expr} (spelled : Spells tokens expr) :
      SpellsList tokens [expr]
  /-- An expression and a comma stand before others. -/
  | cons {tokens more : List Token} {separator : Token} {expr : Expr} {exprs : List Expr}
      (spelled : Spells tokens expr) (comma : separator.kind = .comma)
      (list : SpellsList more exprs) :
      SpellsList (tokens ++ separator :: more) (expr :: exprs)

namespace SpellsList

variable {tokens : List Token} {exprs : List Expr}

theorem ne_nil (list : SpellsList tokens exprs) : tokens ≠ [] := by
  cases list with
  | single spelled =>
    obtain ⟨token, more, rfl, -⟩ := spelled.head
    exact List.cons_ne_nil _ _
  | cons => simp

theorem uncommented (list : SpellsList tokens exprs) :
    ∀ token ∈ tokens, token.kind ≠ .comment := by
  induction list with
  | single spelled => exact spelled.unsplit.uncommented
  | @cons tokens more separator expr exprs spelled comma list ih =>
    intro token mem
    rcases List.mem_append.mp mem with mem | mem
    · exact spelled.unsplit.uncommented token mem
    · rcases List.mem_cons.mp mem with rfl | mem
      · simp [comma]
      · exact ih token mem

theorem map_parse?_groups (list : SpellsList tokens exprs) :
    (Operand.groups 0 tokens).map parse? = exprs.map some := by
  induction list with
  | @single tokens expr spelled =>
    have group : Operand.groups 0 tokens = [tokens] := by
      have split := spelled.unsplit.groups 0 []
      rwa [List.append_nil, Operand.groups, List.modifyHead_cons, List.append_nil] at split
    rw [group, List.map_singleton, spelled.parse?_eq, List.map_singleton]
  | @cons tokens more separator expr exprs spelled comma list ih =>
    have group : Operand.groups 0 (tokens ++ separator :: more) =
        tokens :: Operand.groups 0 more := by
      rw [spelled.unsplit.groups, Operand.groups, if_pos ⟨comma, rfl⟩, List.modifyHead_cons,
        List.append_nil]
    rw [group, List.map_cons, spelled.parse?_eq, ih, List.map_cons]

/-- **A list is read as its expressions.** -/
theorem valueList (list : SpellsList tokens exprs) :
    Operand.valueList tokens = exprs.map some := by
  have present : ¬ tokens.isEmpty = true := by simpa using list.ne_nil
  rw [Operand.valueList, if_neg present, list.map_parse?_groups]

end SpellsList

end Expr

/-! ### Lines with a value list -/

namespace Statement

/-- A line with a directive: a label or none, a keyword of the directive, the operand, a comment or
none. -/
def DirectiveLine (line : List Token) (directive : Directive) (operand : List Token) : Prop :=
  ∃ label keyword comment, line = label ++ keyword :: (operand ++ comment) ∧ IsLabel label ∧
    keyword.kind = .directive directive ∧ IsComment comment

/-- A line with a directive reads as a statement with that directive. -/
theorem DirectiveLine.exists_statement {line operand : List Token} {directive : Directive}
    (reads : DirectiveLine line directive operand)
    (uncommented : ∀ token ∈ operand, token.kind ≠ .comment) :
    ∃ statement, ofLine? line = some statement ∧ statement.operandTokens = operand ∧
      statement.operation = some (.directive directive (Expr.parse? operand)) := by
  obtain ⟨label, keyword, comment, rfl, isLabel, kind, isComment⟩ := reads
  have operation : readOperation (keyword :: operand) =
      some (.directive directive (Expr.parse? operand)) := by simp [readOperation, kind]
  obtain ⟨statement, parsed, -, rest, operation⟩ :=
    exists_statement_of_readOperation isLabel isComment (by simp [kind, TokenKind.isLabelPart])
      (List.forall_mem_cons.mpr ⟨by simp [kind], uncommented⟩) operation
  exact ⟨statement, parsed, rest, operation⟩

end Statement

/-- The keywords of value lists, with the number of bytes of an item and the bytes of a value. -/
def itemForms : List (String × Nat × (UInt16 → List UInt8)) :=
  [("DB", 1, fun value => [lowByte value]), ("DA", 2, lowFirst), ("DDB", 2, highFirst)]

theorem exists_shape {word : String} {size : Nat} {item : UInt16 → List UInt8}
    (form : (word, size, item) ∈ itemForms) :
    ∃ shape : ValueShape, Directive.ofKeyword? word = some (.values shape) ∧ shape.size = size ∧
      shape.bytes = item := by
  simp only [itemForms, List.mem_cons, Prod.mk.injEq, List.not_mem_nil, or_false] at form
  obtain ⟨rfl, rfl, rfl⟩ | ⟨rfl, rfl, rfl⟩ | ⟨rfl, rfl, rfl⟩ := form
  · exact ⟨.byte, by decide +kernel, rfl, rfl⟩
  · exact ⟨.lowFirst, by decide +kernel, rfl, rfl⟩
  · exact ⟨.highFirst, by decide +kernel, rfl, rfl⟩

namespace Assembly

variable {options : Options} {statements : List Statement} {i : Nat} {statement : Statement}

/-- A value list that is assembled outside a dummy section puts the bytes of its items into the
output, in their order. -/
theorem visit_values {shape : ValueShape} {operand : Option Expr} {exprs : List Expr}
    (operation : statement.operation = some (.directive (.values shape) operand))
    (items : Operand.valueList statement.operandTokens = exprs.map some)
    (straight : (before options statements .two i).Straight) :
    let state := before options statements .two i
    (visit options statements .two i statement).2.bytes = exprs.flatMap fun expr =>
      shape.bytes (expr.evaluate (state.seen statement) state.here).value := by
  intro state
  have assembles : state.Assembles statement :=
    ⟨by simp only [Statement.role, operation], straight.1⟩
  have listed : (Operand.valueList statement.operandTokens).filterMap id = exprs := by
    simp [items, List.filterMap_map]
  rw [visit, step_of_assembles assembles, bytes_assembled, straight.2, effectOf,
    Effect.ofStatement, operation]
  simp only [Effect.directive, Effect.values, listed]
  rfl

/-- **Value lists are split exactly at the commas outside parentheses**: any tokens have one item
more than such commas, their groups are the tokens between these commas, and an item is missing
exactly if its group is empty or does not start with an expression. A list of expressions is read as
its expressions, and a line with such a list makes the assembler put one byte, or two in the order
of the keyword, into the output for each of them, in their order, if the block is enabled and no
dummy section is open. -/
theorem valueList_exact (tokens : List Token) (present : tokens ≠ []) :
    (Operand.valueList tokens).length = (Operand.separators 0 tokens).length + 1 ∧
      Operand.joined (Operand.groups 0 tokens) (Operand.separators 0 tokens) = tokens ∧
      Operand.groups 0 tokens =
        ((Operand.leveled 0 tokens).splitOnP Operand.separates).map (List.map Prod.fst) ∧
      List.Forall₂
        (fun item group => item = Expr.parse? group ∧
          (item = none ↔ group = [] ∨ ∀ part expr, part <+: group → ¬ Expr.Spells part expr))
        (Operand.valueList tokens) (Operand.groups 0 tokens) ∧
      ∀ exprs, Expr.SpellsList tokens exprs →
        Operand.valueList tokens = exprs.map some ∧
        ∀ word size item directive line, (word, size, item) ∈ itemForms →
          Directive.ofKeyword? word = some directive →
          Statement.DirectiveLine line directive tokens →
          ∃ statement, Statement.ofLine? line = some statement ∧
            ∀ options statements i, statements[i]? = some statement →
              (before options statements .two i).Straight →
              let state := before options statements .two i
              let bytes := exprs.flatMap fun expr =>
                item (expr.evaluate (state.seen statement) state.here).value
              (visit options statements .two i statement).2.bytes = bytes ∧
                bytes.length = exprs.length * size ∧
                StandsAt (run options statements).bytes (outputBefore options statements i)
                  bytes := by
  have items : Operand.valueList tokens = (Operand.groups 0 tokens).map Expr.parse? := by
    rw [Operand.valueList, if_neg (by simpa using present)]
  refine ⟨?_, Operand.joined_groups 0 tokens, Operand.groups_eq_splitOnP 0 tokens, ?_, ?_⟩
  · rw [items, List.length_map, Operand.length_groups]
  · rw [items, List.forall₂_map_left_iff, List.forall₂_same]
    intro group _
    refine ⟨rfl, ?_⟩
    rw [Expr.parse?_eq_none_iff]
    refine ⟨.inr, ?_⟩
    rintro (rfl | unspelled)
    · exact Expr.parse?_eq_none_iff.mp rfl
    · exact unspelled
  · intro exprs list
    refine ⟨list.valueList, ?_⟩
    intro word size item directive line form named reads
    obtain ⟨shape, keyword, rfl, rfl⟩ := exists_shape form
    obtain rfl : directive = .values shape := Option.some.inj (named.symm.trans keyword)
    obtain ⟨statement, parsed, rest, operation⟩ := reads.exists_statement list.uncommented
    refine ⟨statement, parsed, ?_⟩
    intro options statements i found straight state bytes
    have emitted : (visit options statements .two i statement).2.bytes = bytes :=
      visit_values operation (by rw [rest, list.valueList]) straight
    refine ⟨emitted, shape.length_flatMap_bytes exprs _, ?_⟩
    rw [← emitted]
    exact standsAt_visit found

/-- The tokens of a line with three expressions, one of them with parentheses:

  TAB: DDB (1+2)*3,-1,* ; words
-/
def wordsLine : List Token :=
  let token (kind : TokenKind) (lexeme : String) (column : Nat) : Token :=
    ⟨kind, lexeme, ⟨1, column⟩⟩
  [token .label "TAB" 1, token .colon ":" 4, token (.directive (.values .highFirst)) "DDB" 6,
    token .leftParen "(" 10, token .number "1" 11, token .operator "+" 12, token .number "2" 13,
    token .rightParen ")" 14, token .operator "*" 15, token .number "3" 16, token .comma "," 17,
    token .operator "-" 18, token .number "1" 19, token .comma "," 20, token .operator "*" 21,
    token .comment "; words" 23]

/-- The three words of `wordsLine` are put out with their high bytes first. -/
theorem valueList_exact_wordsLine :
    let line := wordsLine
    let tokens := (line.drop 3).take 12
    let exprs : List Expr :=
      [.binary .mul (.binary .add (.literal 1) (.literal 2)) (.literal 3),
        .binary .sub (.literal 0) (.literal 1), .here]
    tokens ≠ [] ∧ Expr.SpellsList tokens exprs ∧ Statement.DirectiveLine line (.values .highFirst)
        tokens ∧
      (Operand.valueList tokens).length = 3 ∧ Operand.valueList tokens = exprs.map some ∧
      ∃ statement, Statement.ofLine? line = some statement ∧
        (before {} [statement] .two 0).Straight ∧
        (visit {} [statement] .two 0 statement).2.bytes = [0x00, 0x09, 0xFF, 0xFF, 0x00, 0x00] := by
  intro line tokens exprs
  have present : tokens ≠ [] := by decide
  -- the sum in parentheses, and the product that it is a factor of
  have sum : Expr.Spells ((tokens.drop 1).take 3) (.binary .add (.literal 1) (.literal 2)) :=
    .chain (.atom (.number rfl)) (.cons (by decide) (.atom (.number rfl)) .nil)
  have product : Expr.Spells (tokens.take 7) (exprs.get ⟨0, by decide⟩) :=
    .chain (.atom (.parens rfl sum rfl)) (.cons (by decide) (.atom (.number rfl)) .nil)
  have negative : Expr.Spells ((tokens.drop 8).take 2) (exprs.get ⟨1, by decide⟩) :=
    .chain (.negative (by decide) (.number rfl)) .nil
  have counter : Expr.Spells (tokens.drop 11) .here := .chain (.atom (.here (by decide))) .nil
  have list : Expr.SpellsList tokens exprs :=
    .cons product rfl (.cons negative rfl (.single counter))
  have reads : Statement.DirectiveLine line (.values .highFirst) tokens :=
    ⟨line.take 2, _, line.drop 15, rfl, .colon rfl rfl, rfl, .some rfl⟩
  obtain ⟨count, -, -, -, written⟩ := valueList_exact tokens present
  obtain ⟨items, emits⟩ := written exprs list
  obtain ⟨statement, parsed, bytes⟩ := emits "DDB" 2 highFirst (.values .highFirst) line
    (by simp [itemForms]) (by decide +kernel) reads
  have straight : (before {} [statement] .two 0).Straight := ⟨rfl, rfl⟩
  refine ⟨present, list, reads, ?_, items, statement, parsed, straight, ?_⟩
  · rw [count]
    decide
  · rw [(bytes {} [statement] 0 rfl straight).1]
    show highFirst ((1 + 2) * 3) ++ (highFirst (0 - 1) ++ (highFirst 0 ++ [])) = _
    decide

end Assembly

end Asm6502
