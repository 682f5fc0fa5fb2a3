import Asm6502.Build
import Asm6502.Proofs.Evaluation
import Asm6502.Proofs.Lockstep
import Asm6502.Proofs.Step
import Mathlib.Data.List.Flatten
import Mathlib.Data.List.Perm.Basic

/-!
# With and without a listing

A listing is made from what the second pass reports, and no statement looks at it. Of the effect of
a statement only two things depend on whether a listing is made: what a listing directive puts into
it, and what is wrong with the number that `SKP` and `REP` are given, which is evaluated for the
listing only (`Effect.ofStatement_listed`). So both passes go through the same states with a listing
and without one (`before_listed`) and produce the same program (`assemble_listed`). The diagnostics
are the same, with the **count faults** added, those of the numbers of enabled `SKP` and `REP`
statements (`Assembly.countFaults`).
-/

namespace Asm6502

/-! ### Effects -/

/-- The number that a listing directive is given, how many lines to skip or how wide a rule is. -/
def Statement.count? (statement : Statement) : Option Expr :=
  match statement.operation with
  | some (.directive (.listing .skip) operand)
  | some (.directive (.listing .rule) operand) => operand
  | _ => none

/-- A statement with such a number skips lines or draws a rule. -/
theorem Statement.directive?_of_count? {statement : Statement} {expr : Expr}
    (count : statement.count? = some expr) :
    statement.directive? = some (.listing .skip) ∨
      statement.directive? = some (.listing .rule) := by
  unfold count? at count
  unfold directive?
  split at count
  · rename_i operation
    exact .inl (by rw [operation])
  · rename_i operation
    exact .inr (by rw [operation])
  · cases count

namespace Effect

variable (env : Env) (decided : Option Layout) (statement : Statement)

/-- Only a listing directive asks whether a listing is made. -/
theorem ofStatement_of_not_listing (listing listing' : Bool)
    (other : ∀ control, statement.directive? ≠ some (.listing control)) :
    ofStatement { env with listing } decided statement =
      ofStatement { env with listing := listing' } decided statement := by
  unfold ofStatement
  unfold Statement.directive? at other
  cases operation : statement.operation with
  | none => rfl
  | some operation' =>
    rw [operation] at other
    cases operation' with
    | instruction mnemonic operand unread => rfl
    | directive directive operand =>
      cases directive with
      | listing control => exact absurd rfl (other control)
      | _ => rfl

/-- **What a listing changes in an effect**: the entry of a listing directive, and what is wrong
with its number. -/
theorem ofStatement_listed :
    ofStatement { env with listing := true } decided statement =
      { ofStatement { env with listing := false } decided statement with
        entry := (ofStatement { env with listing := true } decided statement).entry
        problems :=
          (ofStatement { env with listing := false } decided statement).problems ++
            statement.count?.toList.flatMap env.problems } := by
  by_cases directive : ∃ control, statement.directive? = some (.listing control)
  · obtain ⟨control, directive⟩ := directive
    obtain ⟨operand, operation⟩ := Statement.operation_of_directive? directive
    simp only [ofStatement, operation, Effect.directive, listing, Statement.count?, Bool.not_false,
      Bool.not_true, if_true, Bool.false_eq_true, if_false, List.nil_append]
    cases control <;> cases operand <;> rfl
  · have other : ∀ control, statement.directive? ≠ some (.listing control) :=
      fun control same => directive ⟨control, same⟩
    have uncounted : statement.count? = none := by
      cases count : statement.count? with
      | none => rfl
      | some expr =>
        rcases Statement.directive?_of_count? count with same | same
        · exact absurd same (other _)
        · exact absurd same (other _)
    rw [ofStatement_of_not_listing env decided statement true false other, uncounted]
    simp

end Effect

namespace Assembly

/-! ### Steps -/

/-- What is wrong with the number of a statement that skips lines or draws a rule, where it is
enabled. -/
def State.countFaults (state : State) (statement : Statement) : List Diagnostic :=
  if state.Assembles statement then
    (statement.count?.toList.flatMap fun expr =>
      (expr.evaluate (state.seen statement) state.here).problems expr).map
      (⟨·, some statement.position⟩)
  else []

/-- What a listing adds to the diagnostics of a statement; the first pass reports none of it. -/
def State.addedFaults (state : State) (statement : Statement) : Pass → List Diagnostic
  | .one => []
  | .two => state.countFaults statement

section Step

variable (options : Options) (pass : Pass) (state : State) (statement : Statement)
  (decided : Option Layout)

theorem effectOf_listed :
    effectOf { options with listing := true } pass state statement decided =
      { effectOf { options with listing := false } pass state statement decided with
        entry := (effectOf { options with listing := true } pass state statement decided).entry
        problems :=
          (effectOf { options with listing := false } pass state statement decided).problems ++
            statement.count?.toList.flatMap fun expr =>
              (expr.evaluate (state.seen statement) state.here).problems expr } := by
  let env : Env := ({ state with symbols := state.seen statement } : State).env options pass
  have made (listing : Bool) : effectOf { options with listing } pass state statement decided =
      Effect.ofStatement { env with listing } decided statement := rfl
  rw [made, made, Effect.ofStatement_listed]
  rfl

theorem assembled_listed (assembles : state.Assembles statement) :
    assembled { options with listing := true } pass state statement decided =
      ((assembled { options with listing := false } pass state statement decided).1,
        { (assembled { options with listing := false } pass state statement decided).2 with
          diagnostics :=
            (assembled { options with listing := false } pass state statement decided).2.diagnostics
              ++ state.addedFaults statement pass
          entry := (assembled { options with listing := true } pass state statement
            decided).2.entry }) := by
  have added (causes : List Cause) :
      found pass statement (causes ++ statement.count?.toList.flatMap fun expr =>
          (expr.evaluate (state.seen statement) state.here).problems expr) =
        found pass statement causes ++ state.addedFaults statement pass := by
    cases pass with
    | one => rfl
    | two => simp only [found, State.addedFaults, State.countFaults, if_pos assembles,
        List.map_append]
  rw [assembled_eq, assembled_eq, effectOf_listed]
  simp only [added, List.append_assoc]
  rfl

/-- **What a listing changes in a step**: the entry of the listing, and the faults that are
added. -/
theorem step_listed :
    step { options with listing := true } pass state (statement, decided) =
      ((step { options with listing := false } pass state (statement, decided)).1,
        { (step { options with listing := false } pass state (statement, decided)).2 with
          diagnostics :=
            (step { options with listing := false } pass state (statement, decided)).2.diagnostics
              ++ state.addedFaults statement pass
          entry :=
            (step { options with listing := true } pass state (statement, decided)).2.entry }) := by
  by_cases assembles : state.Assembles statement
  · rw [step_of_assembles assembles, step_of_assembles assembles]
    exact assembled_listed options pass state statement decided assembles
  · have added : state.addedFaults statement pass = [] := by
      cases pass <;> simp [State.addedFaults, State.countFaults, assembles]
    rw [added, List.append_nil, step_eq, step_eq]
    cases role : statement.role with
    | opens test operand => rfl
    | turns => rfl
    | closes => rfl
    | plain =>
      have disabled : ¬ state.conditions.enabled = true := fun enabled => assembles ⟨role, enabled⟩
      simp only [if_neg disabled]
      rfl

/-- Runs with a listing and without one go side by side, through the same states. -/
theorem lockstep_listed :
    Lockstep { options with listing := true } { options with listing := false } Eq Eq
      fun _ report report' =>
        ∃ diagnostics entry, report = { report' with diagnostics, entry } where
  start := rfl
  restart := by
    rintro first second rfl
    rfl
  step := by
    rintro pass state _ statement _ decided rfl rfl
    rw [step_listed]
    exact ⟨rfl, _, _, rfl⟩
  layout := by
    rintro statement _ report ⟨diagnostics, entry, rfl⟩
    rfl

end Step

/-! ### Passes -/

section Passes

variable (options : Options) (statements : List Statement)

theorem decided_listed (pass : Pass) (i : Nat) :
    decided { options with listing := true } statements pass i =
      decided { options with listing := false } statements pass i :=
  (lockstep_listed options).decided_eq (List.forall₂_refl statements) pass i

/-- **Both passes go through the same states with a listing and without one.** -/
theorem before_listed (pass : Pass) (i : Nat) :
    before { options with listing := true } statements pass i =
      before { options with listing := false } statements pass i :=
  (lockstep_listed options).before (List.forall₂_refl statements) pass i

/-- The faults of all numbers in a program. -/
def countFaults : List Diagnostic :=
  statements.zipIdx.flatMap fun item =>
    (before options statements .two item.2).countFaults item.1

theorem visit_listed (pass : Pass) (i : Nat) (statement : Statement) :
    (visit { options with listing := true } statements pass i statement).2 =
      { (visit { options with listing := false } statements pass i statement).2 with
        diagnostics :=
          (visit { options with listing := false } statements pass i statement).2.diagnostics ++
            (before { options with listing := false } statements pass i).addedFaults statement pass
        entry :=
          (visit { options with listing := true } statements pass i statement).2.entry } := by
  simp only [visit, before_listed, decided_listed]
  rw [step_listed]

theorem outcome_listed (pass : Pass) :
    (outcome { options with listing := true } statements pass).1 =
      (outcome { options with listing := false } statements pass).1 :=
  (lockstep_listed options).outcome (List.forall₂_refl statements) pass

/-- What the reports of a pass give apart from diagnostics and entries of the listing. -/
theorem flatMap_listed {α : Type} {part : Report → List α}
    (blind : ∀ report diagnostics entry, part { report with diagnostics, entry } = part report)
    (pass : Pass) :
    (outcome { options with listing := true } statements pass).2.flatMap part =
      (outcome { options with listing := false } statements pass).2.flatMap part := by
  refine (lockstep_listed options).flatMap_reports (List.forall₂_refl statements) ?_ pass
  rintro statement _ report ⟨diagnostics, entry, rfl⟩
  exact blind report diagnostics entry

/-- The diagnostics of a pass, with the faults that a listing adds after those of each statement. -/
theorem diagnostics_listed (pass : Pass) :
    (outcome { options with listing := true } statements pass).2.flatMap (·.diagnostics) =
      statements.zipIdx.flatMap fun item =>
        (visit { options with listing := false } statements pass item.2 item.1).2.diagnostics ++
          (before { options with listing := false } statements pass item.2).addedFaults item.1
            pass := by
  rw [reports_eq, List.flatMap_map]
  refine List.flatMap_congr fun item _ => ?_
  show (visit _ _ _ item.2 item.1).2.diagnostics = _
  rw [visit_listed]

theorem diagnostics_unlisted (pass : Pass) :
    (outcome { options with listing := false } statements pass).2.flatMap (·.diagnostics) =
      statements.zipIdx.flatMap fun item =>
        (visit { options with listing := false } statements pass item.2 item.1).2.diagnostics := by
  rw [reports_eq, List.flatMap_map]

/-! ### Runs -/

/-- A listing does not change the program. -/
theorem run_sameProgram_listed :
    (run { options with listing := true } statements).SameProgram
      (run { options with listing := false } statements) :=
  sameProgram_of_outcomes (outcome_listed options statements .two)
    (flatMap_listed options statements (fun _ _ _ => rfl) .two)
    (flatMap_listed options statements (fun _ _ _ => rfl) .two)

/-- A listing adds the faults of numbers to the diagnostics, and leaves the others in their
order. -/
theorem run_diagnostics_listed :
    (run { options with listing := false } statements).diagnostics.Sublist
        (run { options with listing := true } statements).diagnostics ∧
      (run { options with listing := true } statements).diagnostics.Perm
        ((run { options with listing := false } statements).diagnostics ++
          countFaults { options with listing := false } statements) := by
  have one : (outcome { options with listing := true } statements .one).2.flatMap (·.diagnostics) =
      (outcome { options with listing := false } statements .one).2.flatMap (·.diagnostics) := by
    rw [diagnostics_listed, diagnostics_unlisted]
    simp only [State.addedFaults, List.append_nil]
  rw [diagnostics_run, diagnostics_run, one, outcome_listed, diagnostics_listed,
    diagnostics_unlisted options statements .two]
  constructor
  · refine List.Sublist.append (.append (.refl _) ?_) (.refl _)
    exact List.Sublist.flatMap_right _ fun item _ => List.sublist_append_left _ _
  · -- the faults of all statements are moved behind what is reported without a listing
    have apart := List.flatMap_append_perm statements.zipIdx
      (fun item =>
        (visit { options with listing := false } statements .two item.2 item.1).2.diagnostics)
      fun item =>
        (before { options with listing := false } statements .two item.2).countFaults item.1
    refine ((apart.symm.append_left _).append_right _).trans ?_
    simp only [List.append_assoc]
    exact (List.perm_append_comm.append_left _).append_left _

end Passes

/-- A fault of a number is an error, at an enabled statement that skips lines or draws a rule, and
is that a name has no definition or that a quotient is by zero. -/
theorem mem_countFaults {options : Options} {statements : List Statement} {diagnostic : Diagnostic}
    (fault : diagnostic ∈ countFaults options statements) :
    diagnostic.isError = true ∧
      (diagnostic.kind = .undefinedSymbol ∨ diagnostic.kind = .divisionByZero) ∧
      ∃ i statement, statements[i]? = some statement ∧
        (before options statements .two i).Assembles statement ∧
        (statement.directive? = some (.listing .skip) ∨
          statement.directive? = some (.listing .rule)) ∧
        diagnostic.position = some statement.position := by
  obtain ⟨item, listed, fault⟩ := List.mem_flatMap.mp fault
  rw [State.countFaults, List.mem_ite_nil_right, List.mem_map] at fault
  obtain ⟨assembles, cause, wrong, rfl⟩ := fault
  obtain ⟨expr, count, wrong⟩ := List.mem_flatMap.mp wrong
  have directive := Statement.directive?_of_count? (Option.mem_toList.mp count)
  have found : statements[item.2]? = some item.1 := List.mk_mem_zipIdx_iff_getElem?.mp listed
  refine ⟨?_, ?_, item.2, item.1, found, assembles, directive, rfl⟩
  · rcases Evaluation.mem_problems_iff.mp wrong with ⟨name, -, rfl⟩ | ⟨-, rfl⟩ <;> rfl
  · rcases Evaluation.mem_problems_iff.mp wrong with ⟨name, -, rfl⟩ | ⟨-, rfl⟩
    · exact .inl rfl
    · exact .inr rfl

end Assembly

/-! ### Source texts -/

/-- The statements that are assembled for a source text: its macros are expanded and its include
statements replaced. -/
def Setting.statements (setting : Setting) (source : String) : List Statement :=
  (Include.expand setting.tree setting.base setting.branch
    (Statement.ofLines (Macro.expand source).1)).1

/-- A source text assembles to what its statements assemble to, with the diagnostics of macros and
of included files before the others. -/
theorem exists_assemble_eq (setting : Setting) (source : String) :
    ∃ found, ∀ options, assemble options setting source =
      { Assembly.run options (setting.statements source) with
        diagnostics :=
          found ++ (Assembly.run options (setting.statements source)).diagnostics } := by
  refine ⟨(Macro.expand source).2 ++ (Include.expand setting.tree setting.base setting.branch
    (Statement.ofLines (Macro.expand source).1)).2, fun options => ?_⟩
  simp only [assemble, Setting.statements]

section Assemble

variable (options : Options) (setting : Setting) (source : String)

/-- The faults of the numbers that the listing directives of a source text are given. -/
def countFaults : List Diagnostic :=
  Assembly.countFaults { options with listing := false } (setting.statements source)

theorem assemble_sameProgram_listed :
    (assemble { options with listing := true } setting source).SameProgram
      (assemble { options with listing := false } setting source) := by
  obtain ⟨found, assembled⟩ := exists_assemble_eq setting source
  rw [assembled, assembled]
  exact (Assembly.run_sameProgram_listed options _).with_diagnostics _ _

theorem assemble_diagnostics_listed :
    (assemble { options with listing := false } setting source).diagnostics.Sublist
        (assemble { options with listing := true } setting source).diagnostics ∧
      (assemble { options with listing := true } setting source).diagnostics.Perm
        ((assemble { options with listing := false } setting source).diagnostics ++
          countFaults options setting source) := by
  obtain ⟨found, assembled⟩ := exists_assemble_eq setting source
  obtain ⟨kept, added⟩ := Assembly.run_diagnostics_listed options (setting.statements source)
  rw [assembled, assembled]
  refine ⟨.append (.refl _) kept, ?_⟩
  rw [List.append_assoc]
  exact added.append_left found

end Assemble

/-- **Asking for a listing does not change the program**: a source text assembles to the same bytes,
symbols, relocations, externals and entries with a listing and without one. The diagnostics without
a listing are among those with one, in the same order, and all others are errors at enabled
statements that skip lines or draw a rule, because of a name without a definition or a quotient by
zero. -/
theorem assemble_listed (options : Options) (setting : Setting) (source : String) :
    let listed := assemble { options with listing := true } setting source
    let plain := assemble { options with listing := false } setting source
    let statements := setting.statements source
    listed.SameProgram plain ∧ plain.diagnostics.Sublist listed.diagnostics ∧
      ∃ extra, listed.diagnostics.Perm (plain.diagnostics ++ extra) ∧
        ∀ diagnostic ∈ extra, diagnostic.isError = true ∧
          (diagnostic.kind = .undefinedSymbol ∨ diagnostic.kind = .divisionByZero) ∧
          ∃ i statement, statements[i]? = some statement ∧
            (Assembly.before { options with listing := false } statements .two i).Assembles
              statement ∧
            (statement.directive? = some (.listing .skip) ∨
              statement.directive? = some (.listing .rule)) ∧
            diagnostic.position = some statement.position := by
  intro listed plain statements
  obtain ⟨kept, added⟩ := assemble_diagnostics_listed options setting source
  refine ⟨assemble_sameProgram_listed options setting source, kept, _, added, ?_⟩
  intro diagnostic fault
  exact Assembly.mem_countFaults fault

end Asm6502
