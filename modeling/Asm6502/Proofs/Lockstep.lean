import Asm6502.Proofs.Trajectory
import Mathlib.Data.List.Forall2

/-!
# Two runs side by side

Two programs of one length are run side by side, statement by statement. `Lockstep` collects what
has to be known of single steps: which states are alike, which statements are paired, and what the
two reports on paired statements have in common, their layout at least. The second pass then follows
the same decisions in both runs, so that states are alike before each statement of both passes
(`Lockstep.before`), and the reports of the runs have in common what those of single steps have
(`Lockstep.visit`, `Lockstep.map_reports`).
-/

namespace Asm6502.Assembly

/-- Steps of two runs that keep states alike. -/
structure Lockstep (options options' : Options) (alike : State → State → Prop)
    (paired : Statement → Statement → Prop) (same : Statement → Report → Report → Prop) :
    Prop where
  /-- The first passes start alike. -/
  start : alike (initial options {}) (initial options' {})
  /-- The second passes start alike after first passes that end alike. -/
  restart : ∀ {first second : State}, alike first second →
    alike (initial options first.symbols) (initial options' second.symbols)
  /-- Steps at paired statements keep states alike, and report the same. -/
  step : ∀ {pass : Pass} {first second : State} {statement statement' : Statement}
    {decided : Option Layout}, alike first second → paired statement statement' →
    alike (step options pass first (statement, decided)).1
        (step options' pass second (statement', decided)).1 ∧
      same statement (step options pass first (statement, decided)).2
        (step options' pass second (statement', decided)).2
  /-- Reports that are the same have one layout. -/
  layout : ∀ {statement : Statement} {report report' : Report}, same statement report report' →
    report.layout = report'.layout

namespace Lockstep

variable {options options' : Options} {alike : State → State → Prop}
  {paired : Statement → Statement → Prop} {same : Statement → Report → Report → Prop}
  {statements statements' : List Statement} {pass : Pass} {i : Nat} {statement : Statement}

theorem exists_pair (pairs : List.Forall₂ paired statements statements')
    (found : statements[i]? = some statement) :
    ∃ statement', statements'[i]? = some statement' ∧ paired statement statement' := by
  obtain ⟨length, each⟩ := List.forall₂_iff_get.mp pairs
  obtain ⟨inside, rfl⟩ := List.getElem?_eq_some_iff.mp found
  have inside' : i < statements'.length := length ▸ inside
  exact ⟨statements'[i], List.getElem?_eq_getElem inside', each i inside inside'⟩

/-- Programs that are the same under a map of statements are paired under it. -/
theorem pairs_of_map_eq {f : Statement → Statement}
    (same : statements.map f = statements'.map f) :
    List.Forall₂ (fun statement statement' => f statement = f statement') statements
      statements' := by
  rw [← List.forall₂_map_right_iff, ← List.forall₂_map_left_iff, List.forall₂_eq_eq_eq]
  exact same

variable (lock : Lockstep options options' alike paired same)
  (pairs : List.Forall₂ paired statements statements')

include lock pairs

/-- A pass that starts alike and is given the same layouts stays alike. -/
theorem before_of_start
    (start : alike (before options statements pass 0) (before options' statements' pass 0))
    (given : ∀ i, decided options statements pass i = decided options' statements' pass i)
    (i : Nat) : alike (before options statements pass i) (before options' statements' pass i) := by
  induction i with
  | zero => exact start
  | succ i ih =>
    cases found : statements[i]? with
    | none =>
      -- past the last statement nothing happens
      have past : statements.length ≤ i := List.getElem?_eq_none_iff.mp found
      have past' : statements'.length ≤ i := pairs.length_eq ▸ past
      rw [before_of_length_le past, before_of_length_le past'] at ih
      rwa [before_of_length_le (Nat.le_succ_of_le past),
        before_of_length_le (Nat.le_succ_of_le past')]
    | some statement =>
      obtain ⟨statement', found', pair⟩ := exists_pair pairs found
      rw [before_succ found, before_succ found', Assembly.visit, Assembly.visit, given]
      exact (lock.step ih pair).1

theorem before_one (i : Nat) :
    alike (before options statements .one i) (before options' statements' .one i) := by
  refine lock.before_of_start pairs ?_ (fun i => ?_) i
  · rw [before_zero, before_zero]
    exact lock.start
  · rw [decided_one, decided_one]

theorem decided_eq (pass : Pass) (i : Nat) :
    decided options statements pass i = decided options' statements' pass i := by
  cases pass with
  | one => rw [decided_one, decided_one]
  | two =>
    cases found : statements[i]? with
    | none =>
      have past : statements.length ≤ i := List.getElem?_eq_none_iff.mp found
      simp [decided, past, pairs.length_eq ▸ past]
    | some statement =>
      obtain ⟨statement', found', pair⟩ := exists_pair pairs found
      rw [decided_two found, decided_two found', Assembly.visit, Assembly.visit, decided_one,
        decided_one]
      exact lock.layout (lock.step (lock.before_one pairs i) pair).2

/-- **States are alike before each statement.** -/
theorem before (pass : Pass) (i : Nat) :
    alike (before options statements pass i) (before options' statements' pass i) := by
  cases pass with
  | one => exact lock.before_one pairs i
  | two =>
    refine lock.before_of_start pairs ?_ (lock.decided_eq pairs .two) i
    have last := lock.before_one pairs statements.length
    rw [before_length, pairs.length_eq, before_length] at last
    rw [before_zero, before_zero]
    exact lock.restart last

theorem outcome (pass : Pass) :
    alike (outcome options statements pass).1 (outcome options' statements' pass).1 := by
  rw [← before_length, ← before_length, ← pairs.length_eq]
  exact lock.before pairs pass _

/-- **The reports on paired statements are the same.** -/
theorem visit {statement' : Statement} (pass : Pass) (found : statements[i]? = some statement)
    (found' : statements'[i]? = some statement') :
    same statement (visit options statements pass i statement).2
      (visit options' statements' pass i statement').2 := by
  obtain ⟨other, listed, pair⟩ := exists_pair pairs found
  obtain rfl := Option.some.inj (found'.symm.trans listed)
  rw [Assembly.visit, Assembly.visit, lock.decided_eq pairs]
  exact (lock.step (lock.before pairs pass i) pair).2

/-- What reports have in common that are the same, all reports of the runs have in common. -/
theorem map_reports {α : Type} {part : Report → α}
    (blind : ∀ {statement report report'}, same statement report report' →
      part report = part report') (pass : Pass) :
    (Assembly.outcome options statements pass).2.map part =
      (Assembly.outcome options' statements' pass).2.map part := by
  apply List.ext_getElem?
  intro i
  rw [List.getElem?_map, List.getElem?_map]
  cases found : statements[i]? with
  | none =>
    have past : statements.length ≤ i := List.getElem?_eq_none_iff.mp found
    simp [Assembly.outcome, past, pairs.length_eq ▸ past]
  | some statement =>
    obtain ⟨statement', found', -⟩ := exists_pair pairs found
    rw [getElem?_reports found, getElem?_reports found']
    exact congrArg some (blind (lock.visit pairs pass found found'))

theorem flatMap_reports {α : Type} {part : Report → List α}
    (blind : ∀ {statement report report'}, same statement report report' →
      part report = part report') (pass : Pass) :
    (Assembly.outcome options statements pass).2.flatMap part =
      (Assembly.outcome options' statements' pass).2.flatMap part := by
  rw [List.flatMap_def, List.flatMap_def, lock.map_reports pairs blind]

end Lockstep

end Asm6502.Assembly
