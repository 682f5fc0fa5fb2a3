import Asm6502.Proofs.Shape
import Mathlib.Data.List.Basic

/-!
# What is evaluated

The value of an expression depends on a symbol table only through the meanings of the names that the
expression reads, and it reports exactly those of them that mean nothing. A statement evaluates
certain expressions of its operand and no others (`Statement.evaluated`): its effect depends on the
symbols only through their values (`Effect.ofStatement_congr`), and all that is wrong with any of
them is among what the effect finds wrong (`Effect.problems_subset_ofStatement`).
-/

namespace Asm6502

/-! ### Names in expressions -/

namespace Expr

/-- The names that an expression reads. -/
def reads : Expr → List Name
  | .literal _ | .here | .quoted _ => []
  | .symbol name => [name]
  | .binary _ left right => left.reads ++ right.reads
  | .select _ inner => inner.reads

/-- Tables that agree on the names of an expression give it the same evaluation. -/
theorem evaluate_congr {symbols symbols' : SymbolTable} (here : UInt16) (expr : Expr)
    (agree : ∀ name ∈ expr.reads, symbols.meaning name = symbols'.meaning name) :
    expr.evaluate symbols here = expr.evaluate symbols' here := by
  induction expr with
  | literal value => rfl
  | here => rfl
  | quoted text => rfl
  | symbol name => simp only [evaluate, agree name (List.mem_singleton.mpr rfl)]
  | select part inner ih => simp only [evaluate, ih agree]
  | binary op left right ihl ihr =>
    have hl := ihl fun name read => agree name (List.mem_append_left _ read)
    have hr := ihr fun name read => agree name (List.mem_append_right _ read)
    simp only [evaluate, hl, hr]

/-- An evaluation finds undefined what the expression reads and the table does not know. -/
theorem mem_undefined_evaluate {symbols : SymbolTable} {here : UInt16} {expr : Expr}
    {name : Name} :
    name ∈ (expr.evaluate symbols here).undefined ↔
      name ∈ expr.reads ∧ symbols.meaning name = .undefined := by
  induction expr with
  | literal value => simp [evaluate, reads]
  | here => simp [evaluate, reads]
  | quoted text => simp [evaluate, reads]
  | symbol other =>
    simp only [evaluate, reads, List.mem_singleton]
    by_cases same : name = other
    · subst same
      cases symbols.meaning name <;> simp
    · cases symbols.meaning other <;> simp [same]
  | select part inner ih => exact ih
  | binary op left right ihl ihr =>
    simp only [evaluate, reads, List.mem_append, List.mem_filter, ihl, ihr]
    by_cases listed : name ∈ (left.evaluate symbols here).undefined
    · have both := ihl.mp listed
      simp [listed, both]
    · have unread : ¬ (name ∈ left.reads ∧ symbols.meaning name = .undefined) := by
        rwa [← ihl]
      simp only [List.contains_eq_mem, listed, decide_false, Bool.not_false, and_true]
      constructor
      · rintro (h | h)
        · exact absurd h unread
        · exact ⟨.inr h.1, h.2⟩
      · rintro ⟨h | h, meaning⟩
        · exact absurd ⟨h, meaning⟩ unread
        · exact .inr ⟨h, meaning⟩

/-- An evaluation is defined if every name that is read means something. -/
theorem isDefined_evaluate {symbols : SymbolTable} {here : UInt16} {expr : Expr} :
    (expr.evaluate symbols here).isDefined = true ↔
      ∀ name ∈ expr.reads, symbols.meaning name ≠ .undefined := by
  rw [Evaluation.isDefined, List.isEmpty_iff, List.eq_nil_iff_forall_not_mem]
  constructor
  · intro none name read meaning
    exact none name (mem_undefined_evaluate.mpr ⟨read, meaning⟩)
  · intro all name listed
    have ⟨read, meaning⟩ := mem_undefined_evaluate.mp listed
    exact all name read meaning

end Expr

/-- What can be wrong with an evaluation: a name without a definition, or a quotient by zero. -/
theorem Evaluation.mem_problems_iff {evaluation : Evaluation} {expr : Expr} {cause : Cause} :
    cause ∈ evaluation.problems expr ↔
      (∃ name ∈ evaluation.undefined, cause = .undefinedSymbol name) ∨
        evaluation.divisionByZero = true ∧ cause = .divisionByZero expr := by
  simp only [problems, List.mem_append, List.mem_map, List.mem_ite_nil_right, List.mem_singleton,
    eq_comm]

/-! ### Expressions of a statement -/

/-- The expressions that an assembled statement evaluates; those of a listing directive only while a
listing is made. -/
def Statement.evaluated (statement : Statement) (listing : Bool) : List Expr :=
  match statement.operation with
  | some (.instruction mnemonic operand unread) =>
    match Opcode.find? mnemonic with
    | some opcode =>
      if unread.isEmpty then (Effect.memoryExpr? opcode operand).toList else []
    | none => []
  | some (.directive .org operand) | some (.directive .equ operand)
  | some (.directive .reserve operand) => operand.toList
  | some (.directive (.values _) _) => (Operand.valueList statement.operandTokens).filterMap id
  | some (.directive .msb operand) =>
    if (Effect.switch? statement.operandText).isSome then [] else operand.toList
  | some (.directive (.listing control) operand) =>
    if listing && (control == .skip || control == .rule) then operand.toList else []
  | _ => []

/-- An item of a value list is evaluated if it can be read. -/
theorem mem_readable_iff {items : List (Option Expr)} {expr : Expr} :
    expr ∈ items.filterMap id ↔ some expr ∈ items := by
  simp

namespace Effect

section Congruence

variable {env : Env} {symbols : SymbolTable}

theorem problems_congr {expr : Expr}
    (agree : env.evaluate expr = ({ env with symbols } : Env).evaluate expr) :
    env.problems expr = ({ env with symbols } : Env).problems expr := by
  rw [Env.problems, Env.problems, agree]

theorem instruction_congr (decided : Option Layout) (statement : Statement) (mnemonic : String)
    (operand : Option Operand) (unread : List Token)
    (agree : ∀ opcode, Opcode.find? mnemonic = some opcode → unread = [] →
      ∀ expr ∈ (memoryExpr? opcode operand).toList,
        env.evaluate expr = ({ env with symbols } : Env).evaluate expr) :
    instruction env decided statement mnemonic operand unread =
      instruction { env with symbols } decided statement mnemonic operand unread := by
  cases known : Opcode.find? mnemonic with
  | none => rw [instruction_of_unknown known, instruction_of_unknown known]
  | some opcode =>
    cases unread with
    | cons token unread => rw [instruction_of_unread known, instruction_of_unread known]
    | nil =>
      -- the operand is evaluated to the same, so the mode, the bytes and the problems are the same
      have evaluations : (memoryExpr? opcode operand).map env.evaluate =
          (memoryExpr? opcode operand).map ({ env with symbols } : Env).evaluate := by
        cases memory : memoryExpr? opcode operand with
        | none => rfl
        | some expr => exact congrArg some (agree opcode known rfl expr (by simp [memory]))
      have found : (memoryExpr? opcode operand).toList.flatMap env.problems =
          (memoryExpr? opcode operand).toList.flatMap ({ env with symbols } : Env).problems := by
        cases memory : memoryExpr? opcode operand with
        | none => rfl
        | some expr => simp [problems_congr (agree opcode known rfl expr (by simp [memory]))]
      rw [memoryExpr?] at evaluations found
      simp only [instruction, known, evaluations, found]
      rfl

theorem values_congr (statement : Statement) (shape : ValueShape)
    (agree : ∀ expr ∈ (Operand.valueList statement.operandTokens).filterMap id,
      env.evaluate expr = ({ env with symbols } : Env).evaluate expr) :
    values env statement shape = values { env with symbols } statement shape := by
  have bytes : (((Operand.valueList statement.operandTokens).filterMap id).flatMap fun expr =>
        shape.bytes (env.evaluate expr).value) =
      ((Operand.valueList statement.operandTokens).filterMap id).flatMap fun expr =>
        shape.bytes (({ env with symbols } : Env).evaluate expr).value :=
    List.flatMap_congr fun expr listed => by rw [agree expr listed]
  simp only [values, bytes]
  congr 1
  split
  · rfl
  · refine List.flatMap_congr fun item listed => ?_
    cases item with
    | none => rfl
    | some expr => exact problems_congr (agree expr (mem_readable_iff.mpr listed))

theorem laidOut_congr (decided : Option Layout) (directive : Directive) (expr : Expr)
    (effect : UInt16 → Effect)
    (agree : env.evaluate expr = ({ env with symbols } : Env).evaluate expr) :
    laidOut env decided directive expr effect =
      laidOut { env with symbols } decided directive expr effect := by
  simp only [laidOut, agree, problems_congr agree]

theorem equate_congr (label : Option Name) (expr : Expr)
    (agree : env.evaluate expr = ({ env with symbols } : Env).evaluate expr) :
    equate env label expr = equate { env with symbols } label expr := by
  simp only [equate, agree, problems_congr agree]

theorem listing_congr (statement : Statement) (control : ListingControl) (operand : Option Expr)
    (agree : env.listing = true → (control == .skip || control == .rule) = true →
      ∀ expr ∈ operand, env.evaluate expr = ({ env with symbols } : Env).evaluate expr) :
    listing env statement control operand =
      listing { env with symbols } statement control operand := by
  simp only [listing]
  split
  · rfl
  · rename_i made
    cases operand with
    | none => rfl
    | some expr =>
      cases counted : control == .skip || control == .rule with
      | false => rfl
      | true =>
        have same := agree (by simpa using made) counted expr rfl
        simp only [Option.filter_some, if_true, Option.map_some, Option.toList_some,
          List.flatMap_singleton, same, problems_congr same]

end Congruence

/-- **An effect depends on the symbols only through the values of the expressions that its statement
evaluates.** -/
theorem ofStatement_congr {env : Env} (symbols : SymbolTable) (decided : Option Layout)
    {statement : Statement}
    (agree : ∀ expr ∈ statement.evaluated env.listing,
      env.evaluate expr = ({ env with symbols } : Env).evaluate expr) :
    ofStatement env decided statement = ofStatement { env with symbols } decided statement := by
  unfold ofStatement
  unfold Statement.evaluated at agree
  cases operation : statement.operation with
  | none => rfl
  | some operation' =>
    simp only [operation] at agree
    cases operation' with
    | instruction mnemonic operand unread =>
      refine instruction_congr decided statement mnemonic operand unread ?_
      intro opcode known all expr listed
      subst all
      exact agree expr (by simpa [known] using listed)
    | directive directive operand =>
      cases directive with
      | org | reserve =>
        cases operand with
        | none => rfl
        | some expr => exact laidOut_congr decided _ expr _ (agree expr (by simp))
      | equ =>
        cases operand with
        | none => rfl
        | some expr => exact equate_congr statement.label expr (agree expr (by simp))
      | values shape => exact values_congr statement shape agree
      | msb =>
        simp only [Effect.directive, setMsb]
        cases switch : switch? statement.operandText with
        | some on => rfl
        | none =>
          cases operand with
          | none => rfl
          | some expr =>
            have same := agree expr (by simp [switch])
            simp only [same, problems_congr same]
      | listing control =>
        refine listing_congr statement control operand fun made counted expr given => ?_
        exact agree expr (by simp [made, counted, Option.mem_def.mp given])
      | _ => rfl

/-- All that is wrong with an instruction's operand is reported, whether it has a mode or not. -/
theorem problems_subset_instruction {env : Env} (decided : Option Layout) (statement : Statement)
    {mnemonic : String} {operand : Option Operand} {opcode : Opcode}
    (known : Opcode.find? mnemonic = some opcode) :
    (memoryExpr? opcode operand).toList.flatMap env.problems ⊆
      (instruction env decided statement mnemonic operand []).problems := by
  cases chosen : instructionMode opcode decided operand
      ((memoryExpr? opcode operand).map env.evaluate) with
  | error cause =>
    rw [instruction_of_error known chosen]
    exact List.subset_append_left _ _
  | ok mode =>
    rw [instruction_of_ok known chosen]
    exact List.subset_append_left _ _

/-- **All that is wrong with an expression which a statement evaluates is found wrong with the
statement.** -/
theorem problems_subset_ofStatement {env : Env} (decided : Option Layout) {statement : Statement}
    {expr : Expr} (listed : expr ∈ statement.evaluated env.listing) :
    env.problems expr ⊆ (ofStatement env decided statement).problems := by
  unfold ofStatement
  unfold Statement.evaluated at listed
  cases operation : statement.operation with
  | none => simp [operation] at listed
  | some operation' =>
    simp only [operation] at listed
    cases operation' with
    | instruction mnemonic operand unread =>
      cases known : Opcode.find? mnemonic with
      | none => simp [known] at listed
      | some opcode =>
        cases unread with
        | cons token unread => simp [known] at listed
        | nil =>
          simp only [known, List.isEmpty_nil, if_true] at listed
          intro cause wrong
          exact problems_subset_instruction decided statement known
            (List.mem_flatMap.mpr ⟨expr, listed, wrong⟩)
    | directive directive operand =>
      cases directive with
      | org | reserve =>
        obtain rfl : operand = some expr := by simpa using listed
        exact List.subset_append_left _ _
      | equ =>
        obtain rfl : operand = some expr := by simpa using listed
        simp only [Effect.directive, equate]
        cases statement.label with
        | none => exact List.subset_append_left _ _
        | some label => exact List.Subset.refl _
      | values shape =>
        have given := mem_readable_iff.mp listed
        have filled : (Operand.valueList statement.operandTokens).isEmpty = false := by
          rw [List.isEmpty_eq_false_iff]
          exact List.ne_nil_of_mem given
        simp only [Effect.directive, values, filled]
        exact fun cause wrong => List.mem_flatMap.mpr ⟨some expr, given, wrong⟩
      | msb =>
        cases switch : switch? statement.operandText with
        | some on => simp [switch] at listed
        | none =>
          obtain rfl : operand = some expr := by simpa [switch] using listed
          simp only [Effect.directive, setMsb, switch]
          exact List.Subset.refl _
      | listing control =>
        simp only [Bool.and_eq_true, List.mem_ite_nil_right, Option.mem_toList] at listed
        obtain ⟨⟨made, counted⟩, rfl⟩ := listed
        simp [Effect.directive, listing, made, Option.filter_some, counted]
      | _ => simp at listed

end Effect

end Asm6502
