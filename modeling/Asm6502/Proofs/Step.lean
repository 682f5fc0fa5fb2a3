import Asm6502.Assembly.Step
import Asm6502.Proofs.Shape

/-!
# What a step does

A statement has a **role** in conditional assembly: it opens, turns or closes a block, or it is
plain. A plain statement in an enabled block is *assembled* (`State.Assembles`); every other
statement changes nothing but the open blocks (`step_of_not_assembles`). An assembled statement
gives at most one name a value — a label the location, an equate the value of its operand
(`State.given`) — declares the names of its external list, moves the location counter and changes
the settings; `assembled_eq` says all of it at once.
-/

namespace Asm6502

/-! ### Roles -/

/-- What a statement does to the conditional blocks. -/
inductive Role where
  /-- It opens a block, with a test and what is tested. -/
  | opens (test : Test) (operand : Option Expr)
  /-- It turns to the other branch of the innermost block. -/
  | turns
  /-- It closes the innermost block. -/
  | closes
  /-- It has nothing to do with blocks. -/
  | plain
  deriving DecidableEq

namespace Statement

/-- The role of a statement. -/
def role (statement : Statement) : Role :=
  match statement.operation with
  | some (.directive (.opener test) operand) => .opens test operand
  | some (.directive .otherwise _) => .turns
  | some (.directive .fin _) => .closes
  | _ => .plain

/-- The name that an equate gives a value, and the expression it is the value of. -/
def equate? (statement : Statement) : Option (Name × Expr) :=
  match statement.operation with
  | some (.directive .equ (some expr)) => statement.label.map (·, expr)
  | _ => none

/-- The label that stands for a location: that of any statement but an equate. -/
def locationLabel? (statement : Statement) : Option Name :=
  if statement.directive? = some .equ then none else statement.label

/-- The name that a statement gives a value. -/
def boundName? (statement : Statement) : Option Name :=
  match statement.equate? with
  | some (name, _) => some name
  | none => statement.locationLabel?

/-- The names that a statement declares as defined elsewhere. -/
def externalNames (statement : Statement) : List Name :=
  match statement.operation with
  | some (.directive .externals _) => Effect.nameList statement
  | _ => []

theorem operation_of_directive? {statement : Statement} {directive : Directive}
    (written : statement.directive? = some directive) :
    ∃ operand, statement.operation = some (.directive directive operand) := by
  unfold directive? at written
  split at written
  · rename_i operand operation
    exact ⟨operand, Option.some.inj written ▸ operation⟩
  · cases written

/-- The label of an equate stands for no location. -/
theorem locationLabel?_of_equate? {statement : Statement} {given : Name × Expr}
    (equate : statement.equate? = some given) : statement.locationLabel? = none := by
  have directive : statement.directive? = some .equ := by
    unfold equate? at equate
    split at equate
    · rename_i operation
      simp [directive?, operation]
    · cases equate
  rw [locationLabel?, if_pos directive]

end Statement

/-! ### What effects bind and declare -/

namespace Effect

/-- Only an equate gives a name a value, and only a list of externals declares names. -/
theorem binding_and_externals_ofStatement (env : Env) (decided : Option Layout)
    (statement : Statement) :
    (ofStatement env decided statement).binding =
        (match statement.equate? with
        | some (name, expr) =>
          if env.pass = .two ∨ (env.evaluate expr).isDefined then
            some (name, (env.evaluate expr).value)
          else none
        | none => none) ∧
      (ofStatement env decided statement).externals = statement.externalNames := by
  unfold ofStatement Statement.equate? Statement.externalNames
  cases statement.operation with
  | none => exact ⟨rfl, rfl⟩
  | some operation =>
    cases operation with
    | instruction mnemonic operand unread =>
      have code := onlyCode_instruction env decided statement mnemonic operand unread
      exact ⟨code.binding, code.externals⟩
    | directive directive operand =>
      cases directive with
      | equ =>
        cases operand with
        | none => exact ⟨rfl, rfl⟩
        | some expr =>
          simp only [Effect.directive, equate]
          cases statement.label <;> exact ⟨rfl, rfl⟩
      | org | reserve => cases operand <;> exact ⟨rfl, rfl⟩
      | string style =>
        have code := onlyCode_string env statement style
        exact ⟨code.binding, code.externals⟩
      | hex =>
        have code := onlyCode_hex statement
        exact ⟨code.binding, code.externals⟩
      | msb =>
        simp only [Effect.directive, setMsb]
        split <;> exact ⟨rfl, rfl⟩
      | listing control =>
        simp only [Effect.directive, listing]
        split <;> exact ⟨rfl, rfl⟩
      | _ => exact ⟨rfl, rfl⟩

end Effect

/-! ### Names in a table -/

namespace SymbolTable

/-- Give a name a value, if there is one to give. -/
def give (table : SymbolTable) (position : Position) : Option (Name × UInt16) → SymbolTable
  | some (name, value) => table.define name ⟨value, position⟩
  | none => table

@[simp] theorem give_none (table : SymbolTable) (position : Position) :
    table.give position none = table := rfl

theorem definition?_give (table : SymbolTable) (position : Position)
    (given : Option (Name × UInt16)) (name : Name) :
    (table.give position given).definition? name =
      match given with
      | some (other, value) =>
        if other = name then some ⟨value, position⟩ else table.definition? name
      | none => table.definition? name := by
  cases given with
  | none => rfl
  | some binding => exact definition?_define table binding.1 name _

@[simp] theorem externals_give (table : SymbolTable) (position : Position)
    (given : Option (Name × UInt16)) : (table.give position given).externals = table.externals := by
  cases given <;> rfl

@[simp] theorem definition?_declareExternals (names : List Name) (table : SymbolTable)
    (name : Name) :
    (names.foldl declareExternal table).definition? name = table.definition? name := by
  induction names generalizing table with
  | nil => rfl
  | cons first names ih => rw [List.foldl_cons, ih, definition?_declareExternal]

/-- Declarations add their names to the external ones and take none away. -/
theorem contains_declareExternals (names : List Name) (table : SymbolTable) (name : Name) :
    (names.foldl declareExternal table).externals.contains name =
      (names.contains name || table.externals.contains name) := by
  induction names generalizing table with
  | nil => simp
  | cons first names ih =>
    rw [List.foldl_cons, ih]
    have same : (compare first name == .eq) = (name == first) := by
      rw [Bool.eq_iff_iff, beq_iff_eq, beq_iff_eq, Std.LawfulEqCmp.compare_eq_iff_eq]
      exact eq_comm
    simp only [declareExternal, Std.TreeSet.contains_insert, same, List.contains_cons]
    cases name == first <;> simp

end SymbolTable

namespace Assembly

/-! ### Steps by role -/

namespace State

/-- The truth value of a test in a state. -/
def verdict (state : State) (test : Test) (operand : Option Expr) : Bool :=
  test.check ((operand.map fun expr => (expr.evaluate state.symbols state.here).value).getD 0)

/-- The truth value of a statement's test, if the statement opens a block. -/
def verdict? (state : State) (statement : Statement) : Option Bool :=
  match statement.role with
  | .opens test operand => some (state.verdict test operand)
  | _ => none

/-- The open blocks after a statement of a given role. -/
def turn (state : State) : Role → Conditions
  | .opens test operand => state.conditions.enter (state.verdict test operand)
  | .turns => state.conditions.flip
  | .closes => state.conditions.leave
  | .plain => state.conditions

/-- The statement is assembled: it is plain and its block is enabled. -/
def Assembles (state : State) (statement : Statement) : Prop :=
  statement.role = .plain ∧ state.conditions.enabled = true

instance (state : State) (statement : Statement) : Decidable (state.Assembles statement) :=
  inferInstanceAs (Decidable (_ ∧ _))

/-- Statements are assembled, outside dummy sections. -/
def Straight (state : State) : Prop :=
  state.conditions.enabled = true ∧ state.inDsect = false

end State

variable {options : Options} {pass : Pass} {state : State} {statement : Statement}
  {decided : Option Layout}

theorem step_eq :
    step options pass state (statement, decided) =
      match statement.role with
      | .opens test operand => openBlock options pass state statement test operand
      | .turns => turnBlock options pass state statement
      | .closes => closeBlock options pass state statement
      | .plain =>
        if state.conditions.enabled then assembled options pass state statement decided
        else skipped options pass state statement := by
  simp only [step, Statement.role]
  cases statement.operation with
  | none => rfl
  | some operation =>
    cases operation with
    | instruction mnemonic operand unread => rfl
    | directive directive operand => cases directive <;> rfl

theorem step_of_assembles (assembles : state.Assembles statement) :
    step options pass state (statement, decided) =
      assembled options pass state statement decided := by
  simp only [step_eq, assembles.1, assembles.2, if_true]

/-- A statement that is not assembled changes nothing but the open blocks. -/
theorem step_of_not_assembles (idle : ¬ state.Assembles statement) :
    (step options pass state (statement, decided)).1 =
      { state with conditions := state.turn statement.role } := by
  rw [step_eq]
  cases role : statement.role with
  | opens test operand => rfl
  | turns => rfl
  | closes => rfl
  | plain =>
    have disabled : ¬ state.conditions.enabled = true := fun enabled => idle ⟨role, enabled⟩
    simp only [if_neg disabled]
    rfl

/-! ### Assembled statements -/

theorem labelBinding_eq (state : State) (statement : Statement) :
    labelBinding state statement = statement.locationLabel?.map (·, state.here) := by
  unfold labelBinding Statement.locationLabel?
  split <;> rfl

theorem bind?_fst (state : State) (pass : Pass) (position : Position)
    (given : Option (Name × UInt16)) :
    (state.bind? pass position given).1 =
      { state with symbols := state.symbols.give position given } := by
  cases given <;> rfl

/-- In the second pass names are bound again without a warning. -/
theorem warnings_two (state : State) (position : Position) (given : Option (Name × UInt16)) :
    (state.bind? .two position given).2 = [] := by
  cases given <;> rfl

namespace State

/-- The symbols that an assembled statement sees: its own label is among them. -/
def seen (state : State) (statement : Statement) : SymbolTable :=
  state.symbols.give statement.position (labelBinding state statement)

/-- The name that an assembled statement gives a value, and the value. The first pass leaves an
equate alone whose operand has a name without a definition. -/
def given (state : State) (pass : Pass) (statement : Statement) : Option (Name × UInt16) :=
  match statement.equate? with
  | some (name, expr) =>
    let evaluation := expr.evaluate state.symbols state.here
    if pass = .two ∨ evaluation.isDefined then some (name, evaluation.value) else none
  | none => labelBinding state statement

end State

/-- What a statement asks for when it is assembled. -/
def effectOf (options : Options) (pass : Pass) (state : State) (statement : Statement)
    (decided : Option Layout) : Effect :=
  Effect.ofStatement (({ state with symbols := state.seen statement } : State).env options pass)
    decided statement

/-- The value that an effect gives a label is the one its statement gives, if that is an equate. -/
theorem binding_effectOf :
    (effectOf options pass state statement decided).binding =
      match statement.equate? with
      | some _ => state.given pass statement
      | none => none := by
  rw [effectOf, (Effect.binding_and_externals_ofStatement _ _ _).1, State.given]
  cases given : statement.equate? with
  | none => rfl
  | some binding =>
    simp only [State.seen, labelBinding_eq, Statement.locationLabel?_of_equate? given,
      Option.map_none, SymbolTable.give_none, State.env, Env.evaluate]

@[simp] theorem externals_effectOf :
    (effectOf options pass state statement decided).externals = statement.externalNames :=
  (Effect.binding_and_externals_ofStatement _ _ _).2

/-- **An assembled statement**: it gives its name a value, and the rest of its effect is applied and
reported. -/
theorem assembled_eq :
    let effect := effectOf options pass state statement decided
    let visible := pass = .two ∧ ¬ state.inDsect
    let bytes := if visible then effect.bytes else []
    assembled options pass state statement decided =
      (({ state with
          symbols := state.symbols.give statement.position (state.given pass statement) } :
        State).apply effect,
        { layout := effect.layout
          bytes
          relocations :=
            if visible ∧ state.relocatable then relocations state.here effect.fixups else []
          diagnostics :=
            (state.bind? pass statement.position (state.given pass statement)).2 ++
              found pass statement effect.problems
          entry :=
            entryWhen options pass fun _ => assembledEntry statement state.here effect bytes }) := by
  intro effect visible bytes
  have labelled : (state.bind? pass statement.position (labelBinding state statement)).1 =
      { state with symbols := state.seen statement } := bind?_fst ..
  have bound : effect.binding =
      match statement.equate? with
      | some _ => state.given pass statement
      | none => none := binding_effectOf
  have same : Effect.ofStatement
      ((state.bind? pass statement.position (labelBinding state statement)).1.env options pass)
      decided statement = effect := by
    rw [labelled]
    rfl
  simp only [assembled, same]
  cases given : statement.equate? with
  | none =>
    -- the label has its value, and the effect has none to give
    rw [given] at bound
    have value : state.given pass statement = labelBinding state statement := by
      simp [State.given, given]
    simp only [bound, value]
    cases labelBinding state statement with
    | none => rfl
    | some binding => simp only [State.bind?, List.append_nil]; rfl
  | some binding =>
    -- an equate has no label of its own
    rw [given] at bound
    have unlabelled : labelBinding state statement = none := by
      rw [labelBinding_eq, Statement.locationLabel?_of_equate? given, Option.map_none]
    simp only [bound, unlabelled]
    cases state.given pass statement <;> rfl

end Assembly

end Asm6502
