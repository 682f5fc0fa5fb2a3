import Asm6502.Proofs.Step
import Asm6502.Proofs.Trajectory

/-!
# Conditional assembly is selection

A conditional block whose test is a constant assembles to what its chosen branch assembles to
(`run_conditional`): the statements of the other branch, with all blocks nested in it, leave no
trace in either pass, and the lines of the block itself leave none but in the listing.

The branches are **balanced**: they turn and close only blocks that they open, and close all of
these. Of the blocks around it a balanced list sees no more than whether it is enabled, and it
leaves them as they are (`trace_of_balanced`); where it is disabled nothing happens
(`trace_of_disabled`). So a block is a list of statements with a part before and a part after the
chosen branch that report nothing (`Selects`), and such parts can be left out of any program
(`Selects.run_eq`) — the layouts that the second pass is given shift with the statements. That
argument is made for any list with a part in the middle that counts (`Frames`).
-/

namespace Asm6502

/-! ### Constant expressions -/

namespace Expr

/-- No name, no location counter and no quotient. -/
def isConstant : Expr → Bool
  | .literal _ | .quoted _ => true
  | .symbol _ | .here => false
  | .binary op left right => op != .div && left.isConstant && right.isConstant
  | .select _ inner => inner.isConstant

/-- A constant has one value everywhere, and nothing is wrong with it. -/
theorem evaluate_of_isConstant {expr : Expr} (constant : expr.isConstant = true)
    (symbols : SymbolTable) (here : UInt16) :
    expr.evaluate symbols here = { value := (expr.evaluate {} 0).value } := by
  induction expr with
  | literal value => rfl
  | quoted text => rfl
  | symbol name => cases constant
  | here => cases constant
  | select part inner ih =>
    simp only [evaluate]
    rw [ih constant]
  | binary op left right ihl ihr =>
    simp only [isConstant, Bool.and_eq_true, bne_iff_ne] at constant
    obtain ⟨⟨noQuotient, left⟩, right⟩ := constant
    simp only [evaluate]
    rw [ihl left, ihr right]
    simp [noQuotient]

end Expr

/-! ### Balanced lists -/

/-- The number of open blocks after a statement of a given role; none if the statement turns or
closes a block that is not open. -/
def Role.depthAfter? : Role → Nat → Option Nat
  | .opens _ _, depth => some (depth + 1)
  | .turns, depth + 1 => some (depth + 1)
  | .closes, depth + 1 => some depth
  | .plain, depth => some depth
  | .turns, 0 | .closes, 0 => none

/-- The number of open blocks after a list of statements. -/
def depthAfter? : Nat → List Statement → Option Nat
  | depth, [] => some depth
  | depth, statement :: statements =>
    (statement.role.depthAfter? depth).bind (depthAfter? · statements)

/-- The statements turn and close only blocks that they open, and close all of these. -/
def Balanced (statements : List Statement) : Prop := depthAfter? 0 statements = some 0

instance (statements : List Statement) : Decidable (Balanced statements) :=
  inferInstanceAs (Decidable (_ = _))

namespace Conditions

/-- The same blocks inside further ones. -/
def within (conditions : Conditions) (outer : List Bool) : Conditions :=
  { conditions with parents := conditions.parents ++ outer }

/-- Statements are assembled outside all open blocks. -/
def outermost (conditions : Conditions) : Bool :=
  conditions.parents.getLast?.getD conditions.enabled

end Conditions

namespace Assembly

variable {options : Options} {pass : Pass} {state : State} {statement : Statement}
  {decided : Option Layout} {depth : Nat}

theorem conditions_step :
    (step options pass state (statement, decided)).1.conditions = state.turn statement.role := by
  by_cases assembles : state.Assembles statement
  · rw [step_of_assembles assembles, assembled_eq, assembles.1]
    rfl
  · rw [step_of_not_assembles assembles]

/-- A statement changes the number of open blocks as its role says, and nothing around them. -/
theorem depth_turn {role : Role} (known : role.depthAfter? state.conditions.depth = some depth) :
    (state.turn role).depth = depth ∧ (state.turn role).outermost = state.conditions.outermost := by
  rcases conditions : state.conditions with ⟨enabled, parents⟩
  rw [conditions] at known
  cases role with
  | opens test operand =>
    simp_all [Role.depthAfter?, State.turn, Conditions.enter, Conditions.depth,
      Conditions.outermost, List.getLast?_cons]
  | plain => simp_all [Role.depthAfter?, State.turn]
  | turns =>
    cases parents with
    | nil => cases known
    | cons parent outer =>
      simp_all [Role.depthAfter?, State.turn, Conditions.flip, Conditions.depth,
        Conditions.outermost, List.getLast?_cons]
  | closes =>
    cases parents with
    | nil => cases known
    | cons parent outer =>
      simp_all [Role.depthAfter?, State.turn, Conditions.leave, Conditions.depth,
        Conditions.outermost, List.getLast?_cons]

theorem depth_step (options : Options) (pass : Pass) (decided : Option Layout)
    (known : statement.role.depthAfter? state.conditions.depth = some depth) :
    (step options pass state (statement, decided)).1.conditions.depth = depth ∧
      (step options pass state (statement, decided)).1.conditions.outermost =
        state.conditions.outermost := by
  rw [conditions_step]
  exact depth_turn known

/-! ### Blocks around a list -/

namespace State

/-- The same state with other open blocks. -/
def under (state : State) (conditions : Conditions) : State := { state with conditions }

@[simp] theorem conditions_under (state : State) (conditions : Conditions) :
    (state.under conditions).conditions = conditions := rfl

@[simp] theorem under_under (state : State) (conditions conditions' : Conditions) :
    (state.under conditions).under conditions' = state.under conditions' := rfl

@[simp] theorem under_conditions (state : State) : state.under state.conditions = state := rfl

/-- The same state inside further blocks. -/
def within (state : State) (outer : List Bool) : State :=
  state.under (state.conditions.within outer)

end State

theorem assembled_within (outer : List Bool) :
    assembled options pass (state.within outer) statement decided =
      ((assembled options pass state statement decided).1.within outer,
        (assembled options pass state statement decided).2) := by
  rw [assembled_eq, assembled_eq]
  have given : (state.within outer).given pass statement = state.given pass statement := rfl
  rw [given]
  cases state.given pass statement <;> rfl

/-- A step does not see the blocks around those that its statement turns or closes. -/
theorem step_within (known : statement.role.depthAfter? state.conditions.depth = some depth)
    (outer : List Bool) :
    step options pass (state.within outer) (statement, decided) =
      ((step options pass state (statement, decided)).1.within outer,
        (step options pass state (statement, decided)).2) := by
  rw [step_eq, step_eq]
  cases role : statement.role with
  | opens test operand => rfl
  | plain =>
    by_cases enabled : state.conditions.enabled = true
    · have enabled' : (state.within outer).conditions.enabled = true := enabled
      simp only [enabled, enabled', if_true]
      exact assembled_within outer
    · have disabled : ¬ (state.within outer).conditions.enabled = true := enabled
      simp only [if_neg enabled, if_neg disabled]
      rfl
  | turns | closes =>
    rw [role] at known
    rcases conditions : state.conditions with ⟨enabled, parents⟩
    cases parents with
    | nil =>
      rw [conditions] at known
      cases known
    | cons parent inner =>
      simp [turnBlock, closeBlock, turned, State.within, State.under, Conditions.within,
        Conditions.flip, Conditions.leave, Conditions.outerEnabled, Conditions.depth, conditions]

/-! ### Balanced lists -/

variable {items : List (Statement × Option Layout)}

/-- A list does not see the blocks around those that it turns or closes. -/
theorem trace_within (options : Options) (pass : Pass)
    (known : depthAfter? state.conditions.depth (items.map (·.1)) = some depth)
    (outer : List Bool) :
    trace (step options pass) (state.within outer) items =
      ((trace (step options pass) state items).1.within outer,
        (trace (step options pass) state items).2) := by
  induction items generalizing state with
  | nil => rfl
  | cons item items ih =>
    obtain ⟨statement, decided⟩ := item
    obtain ⟨next, first, rest⟩ := Option.bind_eq_some_iff.mp known
    rw [← (depth_step options pass decided first).1] at rest
    rw [trace_cons, trace_cons, step_within first, ih rest]

/-- A list changes the number of open blocks as its statements say, and nothing around them. -/
theorem depth_trace (options : Options) (pass : Pass)
    (known : depthAfter? state.conditions.depth (items.map (·.1)) = some depth) :
    (trace (step options pass) state items).1.conditions.depth = depth ∧
      (trace (step options pass) state items).1.conditions.outermost =
        state.conditions.outermost := by
  induction items generalizing state with
  | nil => exact ⟨Option.some.inj known, rfl⟩
  | cons item items ih =>
    obtain ⟨statement, decided⟩ := item
    obtain ⟨next, first, rest⟩ := Option.bind_eq_some_iff.mp known
    have ⟨after, outermost⟩ := depth_step options pass decided first
    rw [← after] at rest
    rw [trace_cons, ← outermost]
    exact ih rest

/-- A balanced list does in open blocks what it does without any. -/
theorem trace_alone (options : Options) (pass : Pass) (balanced : Balanced (items.map (·.1)))
    (state : State) (enabled : Bool) (outer : List Bool) :
    trace (step options pass) (state.under ⟨enabled, outer⟩) items =
      ((trace (step options pass) (state.under ⟨enabled, []⟩) items).1.under ⟨enabled, outer⟩,
        (trace (step options pass) (state.under ⟨enabled, []⟩) items).2) := by
  have known : depthAfter? (state.under ⟨enabled, []⟩).conditions.depth (items.map (·.1)) =
      some 0 := balanced
  have ⟨closed, outermost⟩ := depth_trace options pass known
  have inside := trace_within options pass known outer
  generalize trace (step options pass) (state.under ⟨enabled, []⟩) items = alone
    at closed outermost inside
  have ends : alone.1.conditions = ⟨enabled, []⟩ := by
    generalize alone.1.conditions = conditions at closed outermost
    obtain ⟨final, parents⟩ := conditions
    obtain rfl : parents = [] := List.eq_nil_of_length_eq_zero closed
    exact congrArg (Conditions.mk · []) outermost
  have whole : alone.1.within outer = alone.1.under ⟨enabled, outer⟩ := by
    rw [State.within, ends]
    rfl
  rw [whole] at inside
  exact inside

/-- Of the blocks around it a balanced list sees only whether it is enabled, and it leaves them as
they are. -/
theorem trace_of_balanced (options : Options) (pass : Pass) (balanced : Balanced (items.map (·.1)))
    (state : State) {conditions : Conditions}
    (same : conditions.enabled = state.conditions.enabled) :
    trace (step options pass) (state.under conditions) items =
      ((trace (step options pass) state items).1.under conditions,
        (trace (step options pass) state items).2) := by
  let alone := trace (step options pass) (state.under ⟨state.conditions.enabled, []⟩) items
  have here : trace (step options pass) state items =
      (alone.1.under state.conditions, alone.2) :=
    trace_alone options pass balanced state _ state.conditions.parents
  have there : trace (step options pass) (state.under conditions) items =
      (alone.1.under conditions, alone.2) := by
    obtain ⟨enabled, outer⟩ := conditions
    obtain rfl : enabled = state.conditions.enabled := same
    exact trace_alone options pass balanced state _ outer
  rw [here, there, State.under_under]

theorem conditions_of_balanced (options : Options) (pass : Pass)
    (balanced : Balanced (items.map (·.1))) (state : State) :
    (trace (step options pass) state items).1.conditions = state.conditions := by
  have unchanged : trace (step options pass) (state.under state.conditions) items =
      ((trace (step options pass) state items).1.under state.conditions,
        (trace (step options pass) state items).2) :=
    trace_of_balanced options pass balanced state rfl
  exact congrArg (·.1.conditions) unchanged

/-! ### Statements without a trace -/

theorem entryWhen_of_unlisted (unlisted : options.listing = false)
    (entry : Unit → Option Listing.Entry) : entryWhen options pass entry = none := by
  simp [entryWhen, unlisted]

@[simp] theorem found_nil : found pass statement [] = [] := by
  cases pass <;> rfl

/-- Nothing is wrong with the test of a block that is opened. -/
def State.SoundTest (state : State) : Role → Prop
  | .opens _ operand =>
    ∃ expr, operand = some expr ∧ (expr.evaluate state.symbols state.here).problems expr = []
  | _ => True

/-- Without a listing, a statement that is not assembled reports nothing, unless its test is faulty
or it turns a block that is not open. -/
theorem step_quiet (unlisted : options.listing = false) (idle : ¬ state.Assembles statement)
    (known : statement.role.depthAfter? state.conditions.depth = some depth)
    (sound : state.conditions.enabled = true → state.SoundTest statement.role) :
    step options pass state (statement, decided) =
      (state.under (state.turn statement.role), {}) := by
  refine Prod.ext (step_of_not_assembles idle) ?_
  rw [step_eq]
  cases role : statement.role with
  | opens test operand =>
    rw [role] at sound
    by_cases enabled : state.conditions.enabled = true
    · obtain ⟨expr, rfl, none⟩ := sound enabled
      simp [openBlock, turned, entryWhen_of_unlisted unlisted, enabled, Env.problems, Env.evaluate,
        State.env, none]
    · simp [openBlock, turned, entryWhen_of_unlisted unlisted, enabled]
  | turns =>
    rw [role] at known
    have opened : state.conditions.depth ≠ 0 := by
      intro none
      rw [none] at known
      cases known
    simp [turnBlock, turned, entryWhen_of_unlisted unlisted, opened]
  | closes => simp [closeBlock, turned, entryWhen_of_unlisted unlisted]
  | plain =>
    have disabled : ¬ state.conditions.enabled = true := fun enabled => idle ⟨role, enabled⟩
    simp only [if_neg disabled, skipped, entryWhen_of_unlisted unlisted]

/-- The reports of statements that report nothing. -/
def quiet (n : Nat) : List Report := List.replicate n {}

theorem quiet_add (m n : Nat) : quiet (m + n) = quiet m ++ quiet n :=
  List.replicate_append_replicate.symm

/-- In disabled blocks all blocks are disabled. -/
theorem turn_of_all_disabled {role : Role} {next : Nat} (state : State)
    (known : role.depthAfter? depth = some next) :
    (state.under ⟨false, List.replicate depth false⟩).turn role =
      ⟨false, List.replicate next false⟩ := by
  cases role with
  | opens test operand =>
    obtain rfl : depth + 1 = next := Option.some.inj known
    rfl
  | plain =>
    obtain rfl : depth = next := Option.some.inj known
    rfl
  | turns | closes =>
    cases depth with
    | zero => cases known
    | succ depth =>
      obtain rfl := Option.some.inj known
      rfl

/-- In disabled blocks nothing happens but that blocks are opened, turned and closed. -/
theorem trace_of_all_disabled (unlisted : options.listing = false)
    (known : depthAfter? depth (items.map (·.1)) = some 0) (state : State) :
    trace (step options pass) (state.under ⟨false, List.replicate depth false⟩) items =
      (state.under ⟨false, []⟩, quiet items.length) := by
  induction items generalizing depth with
  | nil =>
    obtain rfl : depth = 0 := Option.some.inj known
    rfl
  | cons item items ih =>
    obtain ⟨statement, decided⟩ := item
    obtain ⟨next, first, rest⟩ := Option.bind_eq_some_iff.mp known
    have here : step options pass (state.under ⟨false, List.replicate depth false⟩)
        (statement, decided) = (state.under ⟨false, List.replicate next false⟩, {}) := by
      rw [step_quiet unlisted, turn_of_all_disabled state first, State.under_under]
      · exact fun assembles => Bool.noConfusion assembles.2
      · simpa [Conditions.depth] using first
      · exact fun enabled => Bool.noConfusion enabled
    rw [trace_cons, here, ih rest]
    rfl

/-- In a disabled block a balanced list does nothing. -/
theorem trace_of_disabled (unlisted : options.listing = false)
    (balanced : Balanced (items.map (·.1))) (disabled : state.conditions.enabled = false) :
    trace (step options pass) state items = (state, quiet items.length) := by
  have bare : trace (step options pass) (state.under ⟨false, []⟩) items =
      (state.under ⟨false, []⟩, quiet items.length) :=
    trace_of_all_disabled unlisted balanced state
  have inside := trace_of_balanced options pass balanced (state.under ⟨false, []⟩) disabled
  rw [bare] at inside
  exact inside

/-! ### Selected statements -/

section Selects

variable (options : Options) (leading chosen trailing : List Statement)

/-- Of a list in three parts only the one in the middle has an effect: the others report nothing,
and the state is the one that the middle part alone leads to. -/
def Selects : Prop :=
  ∀ pass state (first second third : List (Statement × Option Layout)),
    first.map (·.1) = leading → second.map (·.1) = chosen → third.map (·.1) = trailing →
    trace (step options pass) state (first ++ second ++ third) =
      ((trace (step options pass) state second).1,
        quiet first.length ++ (trace (step options pass) state second).2 ++ quiet third.length)

/-- The same in states of one kind, and with another view of what the middle part reports. -/
def Frames (fits : State → Prop) (view : Report → Report) : Prop :=
  ∀ pass state (first second third : List (Statement × Option Layout)), fits state →
    first.map (·.1) = leading → second.map (·.1) = chosen → third.map (·.1) = trailing →
    trace (step options pass) state (first ++ second ++ third) =
      ((trace (step options pass) state second).1,
        quiet first.length ++ (trace (step options pass) state second).2.map view ++
          quiet third.length)

/-- In both passes the statements lead to a state of one kind. -/
def Reaches (fits : State → Prop) (above : List Statement) : Prop :=
  ∀ pass symbols (items : List (Statement × Option Layout)), items.map (·.1) = above →
    fits (trace (step options pass) (initial options symbols) items).1

end Selects

variable {leading chosen trailing : List Statement} {fits : State → Prop} {view : Report → Report}

theorem Selects.frames (selects : Selects options leading chosen trailing) :
    Frames options leading chosen trailing (fun _ => True) id := by
  intro pass state first second third _ hfirst hsecond hthird
  rw [List.map_id]
  exact selects pass state first second third hfirst hsecond hthird

/-- In a pass the part in the middle stands for the whole. -/
theorem Frames.trace_eq (frames : Frames options leading chosen trailing fits view) (pass : Pass)
    (state : State) {above : List (Statement × Option Layout)}
    (reached : fits (trace (step options pass) state above).1)
    (below : List (Statement × Option Layout))
    {first second third : List (Statement × Option Layout)} (hfirst : first.map (·.1) = leading)
    (hsecond : second.map (·.1) = chosen) (hthird : third.map (·.1) = trailing) :
    ∃ final reports₁ reports₂ reports₃,
      reports₁.length = above.length ∧ reports₂.length = second.length ∧
      trace (step options pass) state (above ++ second ++ below) =
        (final, reports₁ ++ reports₂ ++ reports₃) ∧
      trace (step options pass) state (above ++ (first ++ second ++ third) ++ below) =
        (final, reports₁ ++ (quiet first.length ++ reports₂.map view ++ quiet third.length) ++
          reports₃) := by
  let afterAbove := trace (step options pass) state above
  let afterSecond := trace (step options pass) afterAbove.1 second
  let afterBelow := trace (step options pass) afterSecond.1 below
  refine ⟨afterBelow.1, afterAbove.2, afterSecond.2, afterBelow.2, length_trace .., length_trace ..,
    ?_, ?_⟩
  · rw [trace_append, trace_append]
  · rw [trace_append, trace_append, frames pass _ first second third reached hfirst hsecond hthird]

theorem flatMap_quiet {α : Type} {part : Report → List α} (silent : part {} = []) (n : Nat) :
    (quiet n).flatMap part = [] := by
  simp [quiet, List.flatMap_replicate, silent]

theorem filterMap_entry_quiet (n : Nat) : (quiet n).filterMap (·.entry) = [] := by
  simp [quiet]

/-- The first pass. -/
theorem Frames.passOne_eq (frames : Frames options leading chosen trailing fits view)
    {above : List Statement} (reaches : Reaches options fits above) (below : List Statement) :
    ∃ final reports₁ reports₂ reports₃,
      reports₁.length = above.length ∧ reports₂.length = chosen.length ∧
      passOne options (above ++ chosen ++ below) = (final, reports₁ ++ reports₂ ++ reports₃) ∧
      passOne options (above ++ (leading ++ chosen ++ trailing) ++ below) =
        (final, reports₁ ++ (quiet leading.length ++ reports₂.map view ++ quiet trailing.length) ++
          reports₃) := by
  have paired (statements : List Statement) :
      (statements.map (·, (none : Option Layout))).map (·.1) = statements := by
    simp [Function.comp_def]
  have halves := frames.trace_eq .one (initial options {}) (reaches .one {} _ (paired above))
    (below.map (·, none)) (paired leading) (paired chosen) (paired trailing)
  simp only [List.length_map, ← List.map_append] at halves
  exact halves

/-- The second pass: the layouts of the first stand with the same statements. -/
theorem Frames.passAfter_eq (frames : Frames options leading chosen trailing fits view)
    (keeps : ∀ report, (view report).layout = report.layout) {above : List Statement}
    (reaches : Reaches options fits above) (below : List Statement) (first : State)
    {reports₁ reports₂ : List Report} (reports₃ : List Report)
    (length₁ : reports₁.length = above.length) (length₂ : reports₂.length = chosen.length) :
    ∃ final further₁ further₂ further₃,
      further₁.length = above.length ∧ further₂.length = chosen.length ∧
      passAfter options (first, reports₁ ++ reports₂ ++ reports₃) (above ++ chosen ++ below) =
        (final, further₁ ++ further₂ ++ further₃) ∧
      passAfter options
          (first,
            reports₁ ++ (quiet leading.length ++ reports₂.map view ++ quiet trailing.length) ++
              reports₃)
          (above ++ (leading ++ chosen ++ trailing) ++ below) =
        (final, further₁ ++ (quiet leading.length ++ further₂.map view ++ quiet trailing.length) ++
          further₃) := by
  have paired {statements : List Statement} {reports : List Report}
      (same : reports.length = statements.length) :
      (statements.zip (reports.map (·.layout))).map (·.1) = statements :=
    List.map_fst_zip (by simp [same])
  have unheard (statements : List Statement) :
      (quiet statements.length).length = statements.length := List.length_replicate
  have layouts : (reports₂.map view).map (·.layout) = reports₂.map (·.layout) := by
    simp [keeps]
  obtain ⟨final, further₁, further₂, further₃, count₁, count₂, short, long⟩ :=
    frames.trace_eq .two (initial options first.symbols) (reaches .two _ _ (paired length₁))
      (below.zip (reports₃.map (·.layout))) (paired (unheard leading)) (paired length₂)
      (paired (unheard trailing))
  refine ⟨final, further₁, further₂, further₃, ?_, ?_, ?_, ?_⟩
  · simpa [length₁] using count₁
  · simpa [length₂] using count₂
  · rw [passAfter, List.map_append, List.map_append, List.zip_append (by simp [length₁, length₂]),
      List.zip_append (by simp [length₁]), short]
  · rw [passAfter, List.map_append, List.map_append, List.map_append, List.map_append, layouts,
      List.zip_append, List.zip_append, List.zip_append, List.zip_append, long]
    all_goals simp [length₁, length₂, unheard]

/-- What is selected assembles in a program as the whole does. -/
theorem Selects.run_eq (selects : Selects options leading chosen trailing)
    (above below : List Statement) :
    run options (above ++ (leading ++ chosen ++ trailing) ++ below) =
      run options (above ++ chosen ++ below) := by
  have anywhere : Reaches options (fun _ => True) above := fun _ _ _ _ => trivial
  obtain ⟨first, reports₁, reports₂, reports₃, length₁, length₂, one, one'⟩ :=
    selects.frames.passOne_eq anywhere below
  obtain ⟨final, further₁, further₂, further₃, -, -, two, two'⟩ :=
    selects.frames.passAfter_eq (fun _ => rfl) anywhere below first reports₃ length₁ length₂
  simp only [List.map_id] at one' two'
  simp only [run, one, one', two, two', List.flatMap_append, List.filterMap_append, flatMap_quiet,
    filterMap_entry_quiet, List.nil_append, List.append_nil]

/-! ### Blocks -/

section Block

variable {opener otherwise fin : Statement} {test : Test} {expr : Expr}

theorem step_of_opens (unlisted : options.listing = false)
    (opens : opener.role = .opens test (some expr)) (constant : expr.isConstant = true) :
    step options pass state (opener, decided) =
      (state.under (state.conditions.enter (test.check (expr.evaluate {} 0).value)), {}) := by
  have value := Expr.evaluate_of_isConstant constant state.symbols state.here
  have sound : state.SoundTest (.opens test (some expr)) := ⟨expr, rfl, by rw [value]; rfl⟩
  have idle : ¬ state.Assembles opener := by
    rintro ⟨plain, -⟩
    rw [opens] at plain
    cases plain
  rw [step_quiet unlisted idle (by rw [opens]; rfl) fun _ => opens ▸ sound, opens]
  simp only [State.turn, State.verdict, Option.map_some, Option.getD_some, value]

/-- A line that turns or closes an open block reports nothing. -/
theorem step_of_turns_or_closes (unlisted : options.listing = false)
    (line : statement.role = .turns ∨ statement.role = .closes)
    (opened : state.conditions.depth = depth + 1) :
    step options pass state (statement, decided) =
      (state.under (state.turn statement.role), {}) := by
  have idle : ¬ state.Assembles statement := by
    rintro ⟨plain, -⟩
    rcases line with role | role <;> rw [role] at plain <;> cases plain
  have sound : state.SoundTest statement.role := by
    rcases line with role | role <;> rw [role] <;> trivial
  obtain ⟨next, known⟩ : ∃ next, statement.role.depthAfter? state.conditions.depth = some next := by
    rcases line with role | role <;> exact ⟨_, by rw [role, opened]; rfl⟩
  exact step_quiet unlisted idle known fun _ => sound

theorem trace_line {line : List (Statement × Option Layout)} {state' : State}
    (single : line.map (·.1) = [statement])
    (silent : ∀ decided, step options pass state (statement, decided) = (state', {})) :
    trace (step options pass) state line = (state', quiet line.length) := by
  obtain ⟨⟨_, decided⟩, rfl, rfl⟩ := List.map_eq_singleton_iff.mp single
  rw [trace_cons, silent]
  rfl

/-- The branches of a block are run one after the other, the second under the turned block; its
lines report nothing. -/
theorem trace_block (unlisted : options.listing = false)
    (opens : opener.role = .opens test (some expr)) (turns : otherwise.role = .turns)
    (closes : fin.role = .closes) (constant : expr.isConstant = true)
    {line₁ branch line₂ other line₃ : List (Statement × Option Layout)}
    (hline₁ : line₁.map (·.1) = [opener]) (hline₂ : line₂.map (·.1) = [otherwise])
    (hline₃ : line₃.map (·.1) = [fin]) (balanced : Balanced (branch.map (·.1)))
    (balanced' : Balanced (other.map (·.1))) (pass : Pass) (state : State) :
    let opened := state.conditions.enter (test.check (expr.evaluate {} 0).value)
    let first := trace (step options pass) (state.under opened) branch
    let second := trace (step options pass) (first.1.under opened.flip) other
    trace (step options pass) state (line₁ ++ branch ++ line₂ ++ other ++ line₃) =
      (second.1.under state.conditions,
        quiet line₁.length ++ first.2 ++ quiet line₂.length ++ second.2 ++ quiet line₃.length) := by
  intro opened first second
  have conditions₁ : first.1.conditions = opened := conditions_of_balanced options pass balanced _
  have conditions₂ : second.1.conditions = opened.flip :=
    conditions_of_balanced options pass balanced' _
  have opening : trace (step options pass) state line₁ =
      (state.under opened, quiet line₁.length) :=
    trace_line hline₁ fun _ => step_of_opens unlisted opens constant
  have turning : trace (step options pass) first.1 line₂ =
      (first.1.under opened.flip, quiet line₂.length) := by
    refine trace_line hline₂ fun _ => ?_
    rw [step_of_turns_or_closes unlisted (.inl turns) (by rw [conditions₁]; rfl), turns, State.turn,
      conditions₁]
  have closing : trace (step options pass) second.1 line₃ =
      (second.1.under state.conditions, quiet line₃.length) := by
    refine trace_line hline₃ fun _ => ?_
    rw [step_of_turns_or_closes unlisted (.inr closes) (by rw [conditions₂]; rfl), closes,
      State.turn, conditions₂, Conditions.leave_flip, Conditions.leave_enter]
  rw [trace_append, trace_append, trace_append, trace_append, opening, turning, closing]

/-- A block whose test holds selects its first branch. -/
theorem selects_of_check (unlisted : options.listing = false)
    (opens : opener.role = .opens test (some expr)) (turns : otherwise.role = .turns)
    (closes : fin.role = .closes) (constant : expr.isConstant = true)
    {branch other : List Statement} (balanced : Balanced branch) (balanced' : Balanced other)
    (holds : test.check (expr.evaluate {} 0).value = true) :
    Selects options [opener] branch ([otherwise] ++ other ++ [fin]) := by
  intro pass state first second third hfirst hsecond hthird
  obtain ⟨rest, line₃, rfl, hrest, hline₃⟩ := List.map_eq_append_iff.mp hthird
  obtain ⟨line₂, items, rfl, hline₂, hitems⟩ := List.map_eq_append_iff.mp hrest
  subst hsecond hitems
  have block := trace_block unlisted opens turns closes constant hfirst hline₂ hline₃ balanced
    balanced' pass state
  have conditions := conditions_of_balanced options pass balanced state
  simp only [holds] at block
  rw [trace_of_balanced options pass balanced state (by simp [Conditions.enter]),
    State.under_under,
    trace_of_disabled unlisted balanced' (by simp [Conditions.enter, Conditions.flip]),
    State.under_under, ← conditions, State.under_conditions] at block
  simp only [List.length_append, quiet_add, List.append_assoc] at block ⊢
  exact block

/-- A block whose test fails selects its second branch. -/
theorem selects_of_not_check (unlisted : options.listing = false)
    (opens : opener.role = .opens test (some expr)) (turns : otherwise.role = .turns)
    (closes : fin.role = .closes) (constant : expr.isConstant = true)
    {branch other : List Statement} (balanced : Balanced branch) (balanced' : Balanced other)
    (fails : test.check (expr.evaluate {} 0).value = false) :
    Selects options ([opener] ++ branch ++ [otherwise]) other [fin] := by
  intro pass state first second third hfirst hsecond hthird
  obtain ⟨rest, line₂, rfl, hrest, hline₂⟩ := List.map_eq_append_iff.mp hfirst
  obtain ⟨line₁, items, rfl, hline₁, hitems⟩ := List.map_eq_append_iff.mp hrest
  subst hsecond hitems
  have block := trace_block unlisted opens turns closes constant hline₁ hline₂ hthird balanced
    balanced' pass state
  have conditions := conditions_of_balanced options pass balanced' state
  simp only [fails] at block
  rw [trace_of_disabled unlisted balanced (by simp [Conditions.enter]), State.under_under,
    trace_of_balanced options pass balanced' state (by simp [Conditions.enter, Conditions.flip]),
    State.under_under, ← conditions, State.under_conditions] at block
  simp only [List.length_append, quiet_add, List.append_assoc] at block ⊢
  exact block

end Block

/-- **Conditional assembly is selection**: without a listing, a block with a constant test between
two balanced branches assembles in any program to what the chosen branch in its place assembles to,
with the same symbols, diagnostics and all else. The block may stand inside other blocks that are
not closed, enabled or not. -/
theorem run_conditional (options : Options) (unlisted : options.listing = false)
    (above branch other below : List Statement) (opener otherwise fin : Statement) (test : Test)
    (expr : Expr) (opens : opener.role = .opens test (some expr)) (turns : otherwise.role = .turns)
    (closes : fin.role = .closes) (constant : expr.isConstant = true) (balanced : Balanced branch)
    (balanced' : Balanced other) :
    run options (above ++ [opener] ++ branch ++ [otherwise] ++ other ++ [fin] ++ below) =
      run options
        (above ++ (if test.check (expr.evaluate {} 0).value then branch else other) ++ below) := by
  by_cases holds : test.check (expr.evaluate {} 0).value = true
  · have selects :=
      selects_of_check unlisted opens turns closes constant balanced balanced' holds
    rw [if_pos holds, ← selects.run_eq]
    simp only [List.append_assoc]
  · have selects := selects_of_not_check unlisted opens turns closes constant balanced balanced'
      (Bool.not_eq_true _ ▸ holds)
    rw [if_neg holds, ← selects.run_eq]
    simp only [List.append_assoc]

/-- A branch with a block of its own:

        DO 0
        NOP
        ELSE
  LOOP  JMP LOOP
        FIN
-/
def nestedBranch : List Statement := [
  { position := ⟨3, 8⟩, operation := some (.directive (.opener .holds) (some (.literal 0))) },
  { position := ⟨4, 8⟩, operation := some (.instruction "NOP" none []) },
  { position := ⟨5, 8⟩, operation := some (.directive .otherwise none) },
  { position := ⟨6, 1⟩, label := some ⟨"LOOP"⟩
    operation := some (.instruction "JMP" (some ⟨.absolute, .symbol ⟨"LOOP"⟩⟩) []) },
  { position := ⟨7, 8⟩, operation := some (.directive .fin none) }]

/-- In an open block, `IFLT 1-2` selects `nestedBranch` and leaves out a branch that has the same
label. -/
theorem run_conditional_nestedBranch :
    let above : List Statement := [
      { position := ⟨1, 8⟩, operation := some (.directive (.opener .holds) (some (.literal 1))) }]
    let opener : Statement :=
      { position := ⟨2, 8⟩
        operation := some
          (.directive (.opener .lt) (some (.binary .sub (.literal 1) (.literal 2)))) }
    let otherwise : Statement :=
      { position := ⟨8, 8⟩, operation := some (.directive .otherwise none) }
    let other : List Statement := [
      { position := ⟨9, 1⟩, label := some ⟨"LOOP"⟩
        operation := some (.instruction "BRK" none []) }]
    let fin : Statement := { position := ⟨10, 8⟩, operation := some (.directive .fin none) }
    let below : List Statement := [
      { position := ⟨11, 8⟩
        operation := some (.instruction "JMP" (some ⟨.absolute, .symbol ⟨"LOOP"⟩⟩) []) }]
    let program := above ++ [opener] ++ nestedBranch ++ [otherwise] ++ other ++ [fin] ++ below
    run {} program = run {} (above ++ nestedBranch ++ below) ∧
      (run {} program).bytes = [0x4C, 0, 0, 0x4C, 0, 0] := by
  intro above opener otherwise other fin below program
  constructor
  · exact run_conditional {} rfl above nestedBranch other below opener otherwise fin .lt
      (.binary .sub (.literal 1) (.literal 2)) rfl rfl rfl rfl (by decide) (by decide)
  · decide +kernel

end Assembly

end Asm6502
