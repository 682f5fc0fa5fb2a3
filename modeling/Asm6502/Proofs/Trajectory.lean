import Asm6502.Assembly.Run

/-!
# Trajectories

The states that each pass goes through: `before options statements pass i` is the state before the
statement at index `i`. Both passes are folds of `step`, so a fact about a whole pass is proved by
induction on `i` from the fact about one visit of a statement (`before_succ`). The visits also give
what the run reports (`mem_diagnostics_of_visit`) and what the first pass hands on to the second
(`decided_two`, `before_two_zero`).
-/

namespace Asm6502

variable {σ α β : Type}

/-! ### Traces of the first items -/

/-- One item more is one step more. -/
theorem trace_take_succ (step : σ → α → σ × β) (state : σ) {items : List α} {i : Nat} {item : α}
    (found : items[i]? = some item) :
    (trace step state (items.take (i + 1))).1 =
      (step (trace step state (items.take i)).1 item).1 := by
  rw [List.take_add_one, found, Option.toList_some, trace_append]
  simp [trace_cons]

/-- The report on an item is that of the step which follows the items before it. -/
theorem getElem?_trace (step : σ → α → σ × β) (state : σ) {items : List α} {i : Nat} {item : α}
    (found : items[i]? = some item) :
    (trace step state items).2[i]? = some (step (trace step state (items.take i)).1 item).2 := by
  induction items generalizing state i with
  | nil => simp at found
  | cons head items ih =>
    cases i with
    | zero =>
      simp only [List.getElem?_cons_zero, Option.some.injEq] at found
      simp [trace_cons, found]
    | succ i =>
      simp only [List.getElem?_cons_succ] at found
      simp [trace_cons, ih _ found]

/-- What holds of every item at its index is decided by looking at each of them. -/
theorem forall_getElem?_iff {items : List α} {holds : Nat → α → Prop} :
    (∀ i item, items[i]? = some item → holds i item) ↔
      ∀ i < items.length, ∀ item ∈ items[i]?, holds i item := by
  constructor
  · intro all i _ item found
    exact all i item found
  · intro all i item found
    exact all i (List.getElem?_eq_some_iff.mp found).1 item found

/-- The artifacts are the same but for diagnostics and the listing. -/
structure Artifact.SameProgram (first second : Artifact) : Prop where
  bytes : first.bytes = second.bytes
  symbols : first.symbols = second.symbols
  relocatable : first.relocatable = second.relocatable
  relocations : first.relocations = second.relocations
  externals : first.externals = second.externals
  entries : first.entries = second.entries

theorem Artifact.SameProgram.with_diagnostics {first second : Artifact}
    (same : first.SameProgram second) (found found' : List Diagnostic) :
    Artifact.SameProgram { first with diagnostics := found }
      { second with diagnostics := found' } :=
  ⟨same.bytes, same.symbols, same.relocatable, same.relocations, same.externals, same.entries⟩

namespace Assembly

/-! ### The states of a pass -/

section Passes

variable (options : Options) (statements : List Statement)

/-- The statements with what a pass is given on their layout. -/
def items : Pass → List (Statement × Option Layout)
  | .one => statements.map (·, none)
  | .two => statements.zip ((passOne options statements).2.map (·.layout))

/-- The state that a pass starts in. -/
def start : Pass → State
  | .one => initial options {}
  | .two => initial options (passOne options statements).1.symbols

/-- The last state and the reports of a pass. -/
def outcome (pass : Pass) : State × List Report :=
  trace (step options pass) (start options statements pass) (items options statements pass)

/-- The state before the statement at index `i`; after the last statement, the last state. -/
def before (pass : Pass) (i : Nat) : State :=
  (trace (step options pass) (start options statements pass)
    ((items options statements pass).take i)).1

/-- What a pass is given on the layout of the statement at index `i`. -/
def decided (pass : Pass) (i : Nat) : Option Layout :=
  (items options statements pass)[i]?.bind (·.2)

/-- The step of a pass at a statement that stands at index `i`. -/
def visit (pass : Pass) (i : Nat) (statement : Statement) : State × Report :=
  step options pass (before options statements pass i)
    (statement, decided options statements pass i)

end Passes

variable {options : Options} {statements : List Statement} {pass : Pass} {i : Nat}
  {statement : Statement}

@[simp] theorem length_items : (items options statements pass).length = statements.length := by
  cases pass with
  | one => simp [items]
  | two => simp [items, passOne]

theorem getElem?_items (found : statements[i]? = some statement) :
    (items options statements pass)[i]? =
      some (statement, decided options statements pass i) := by
  obtain ⟨inside, here⟩ := List.getElem?_eq_some_iff.mp found
  have listed : i < (items options statements pass).length := by simpa using inside
  have first : (items options statements pass)[i].1 = statement := by
    cases pass with
    | one => simpa [items] using here
    | two => simpa [items] using here
  rw [decided, List.getElem?_eq_getElem listed]
  simp [← first]

@[simp] theorem before_zero : before options statements pass 0 = start options statements pass := by
  simp [before]

/-- The state before the next statement is the one the visit of this statement leads to. -/
theorem before_succ (found : statements[i]? = some statement) :
    before options statements pass (i + 1) = (visit options statements pass i statement).1 :=
  trace_take_succ _ _ (getElem?_items found)

theorem before_of_length_le (past : statements.length ≤ i) :
    before options statements pass i = (outcome options statements pass).1 := by
  rw [before, outcome, List.take_of_length_le (by simpa using past)]

theorem before_length :
    before options statements pass statements.length = (outcome options statements pass).1 :=
  before_of_length_le (Nat.le_refl _)

/-- What holds at the start of a pass and is kept by every visit holds before every statement. -/
theorem before_induction {holds : State → Prop} (initially : holds (start options statements pass))
    (kept : ∀ i statement, statements[i]? = some statement →
      holds (before options statements pass i) →
      holds (visit options statements pass i statement).1)
    (i : Nat) : holds (before options statements pass i) := by
  induction i with
  | zero => rwa [before_zero]
  | succ i ih =>
    cases found : statements[i]? with
    | none =>
      have past : statements.length ≤ i := List.getElem?_eq_none_iff.mp found
      rw [before_of_length_le past] at ih
      rwa [before_of_length_le (Nat.le_succ_of_le past)]
    | some statement =>
      rw [before_succ found]
      exact kept i statement found ih

/-- The second pass starts with the symbols that the first one ends with. -/
theorem before_two_zero :
    (before options statements .two 0).symbols =
      (before options statements .one statements.length).symbols := by
  rw [before_zero, before_length]
  rfl

@[simp] theorem decided_one : decided options statements .one i = none := by
  simp only [decided, items, List.getElem?_map]
  cases statements[i]? <;> rfl

/-- A pass reports what its visits report. -/
theorem getElem?_reports (found : statements[i]? = some statement) :
    (outcome options statements pass).2[i]? =
      some (visit options statements pass i statement).2 :=
  getElem?_trace _ _ (getElem?_items found)

/-- The reports of a pass are those of its visits. -/
theorem reports_eq :
    (outcome options statements pass).2 =
      statements.zipIdx.map fun (statement, i) =>
        (visit options statements pass i statement).2 := by
  apply List.ext_getElem?
  intro i
  rw [List.getElem?_map, List.getElem?_zipIdx]
  cases found : statements[i]? with
  | some statement => simp [getElem?_reports found]
  | none =>
    have past : statements.length ≤ i := List.getElem?_eq_none_iff.mp found
    simp [outcome, past]

/-- The second pass is given the layout that the first one decided on. -/
theorem decided_two (found : statements[i]? = some statement) :
    decided options statements .two i =
      (visit options statements .one i statement).2.layout := by
  have reported : (passOne options statements).2[i]? =
      some (visit options statements .one i statement).2 :=
    getElem?_reports found
  have zipped : (items options statements .two)[i]? =
      some (statement, (visit options statements .one i statement).2.layout) := by
    rw [items, List.getElem?_zip_eq_some, List.getElem?_map, reported]
    exact ⟨found, rfl⟩
  rw [decided, zipped]
  rfl

/-! ### What a run is made of -/

@[simp] theorem symbols_run :
    (run options statements).symbols =
      (before options statements .two statements.length).symbols := by
  rw [before_length]
  rfl

theorem diagnostics_run :
    (run options statements).diagnostics =
      (outcome options statements .one).2.flatMap (·.diagnostics) ++
        (outcome options statements .two).2.flatMap (·.diagnostics) ++
        closing (outcome options statements .two).1 := rfl

/-- Passes that end in the same state and put out the same assemble to the same program. -/
theorem sameProgram_of_outcomes {options' : Options} {statements' : List Statement}
    (state : (outcome options statements .two).1 = (outcome options' statements' .two).1)
    (bytes : (outcome options statements .two).2.flatMap (·.bytes) =
      (outcome options' statements' .two).2.flatMap (·.bytes))
    (relocations : (outcome options statements .two).2.flatMap (·.relocations) =
      (outcome options' statements' .two).2.flatMap (·.relocations)) :
    (run options statements).SameProgram (run options' statements') where
  bytes := bytes
  symbols := congrArg State.symbols state
  relocatable := congrArg State.relocatable state
  relocations := relocations
  externals := congrArg State.externals state
  entries := congrArg State.entries state

/-- What the visit of a statement finds wrong, the run reports. -/
theorem mem_diagnostics_of_visit (pass : Pass) (found : statements[i]? = some statement)
    {diagnostic : Diagnostic}
    (reported : diagnostic ∈ (visit options statements pass i statement).2.diagnostics) :
    diagnostic ∈ (run options statements).diagnostics := by
  have listed : (visit options statements pass i statement).2 ∈
      (outcome options statements pass).2 :=
    List.mem_of_getElem? (getElem?_reports found)
  have flat : diagnostic ∈ (outcome options statements pass).2.flatMap (·.diagnostics) :=
    List.mem_flatMap.mpr ⟨_, listed, reported⟩
  rw [diagnostics_run]
  cases pass with
  | one => exact List.mem_append_left _ (List.mem_append_left _ flat)
  | two => exact List.mem_append_left _ (List.mem_append_right _ flat)

/-- What the run reports was found wrong at the visit of a statement, or with the program as a
whole. -/
theorem exists_visit_of_mem_diagnostics {diagnostic : Diagnostic}
    (reported : diagnostic ∈ (run options statements).diagnostics) :
    (∃ pass i statement, statements[i]? = some statement ∧
        diagnostic ∈ (visit options statements pass i statement).2.diagnostics) ∨
      diagnostic ∈ closing (outcome options statements .two).1 := by
  have visited (pass : Pass)
      (flat : diagnostic ∈ (outcome options statements pass).2.flatMap (·.diagnostics)) :
      ∃ pass i statement, statements[i]? = some statement ∧
        diagnostic ∈ (visit options statements pass i statement).2.diagnostics := by
    rw [reports_eq, List.flatMap_map] at flat
    obtain ⟨item, listed, inside⟩ := List.mem_flatMap.mp flat
    exact ⟨pass, item.2, item.1, List.mk_mem_zipIdx_iff_getElem?.mp listed, inside⟩
  rw [diagnostics_run] at reported
  rcases List.mem_append.mp reported with passes | whole
  · rcases List.mem_append.mp passes with one | two
    · exact .inl (visited .one one)
    · exact .inl (visited .two two)
  · exact .inr whole

end Assembly

end Asm6502
