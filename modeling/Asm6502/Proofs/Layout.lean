import Asm6502.Proofs.Step
import Asm6502.Proofs.Trajectory

/-!
# One layout for both passes

The second pass knows names that the first one did not, yet it has to put every statement where the
first pass put it. Here: as long as the tests of conditional blocks come out the same, the location
counter, the dummy section and the open blocks are the same before every statement in both passes
(`layout_same_in_both_passes`), for any program, with errors or without. The invariant is
`SameLayout`; a visit keeps it because the effect of the second visit is alike the effect of the
first (`Effect.alike_ofStatement`).

The tests are also all that matters: the passes have one layout exactly if every block that is
opened where statements are assembled takes the same branch in both (`sameLayout_iff_sameChoices`).
A test of a block in a disabled block may differ, since such a block is disabled whatever its test
says.
-/

namespace Asm6502

namespace Conditions

/-- A block in a disabled block is disabled whatever its test says. -/
theorem enter_of_disabled {conditions : Conditions} (disabled : ¬ conditions.enabled = true)
    (verdict verdict' : Bool) : conditions.enter verdict = conditions.enter verdict' := by
  simp only [enter, Bool.not_eq_true] at disabled ⊢
  simp only [disabled, Bool.false_and]

end Conditions

namespace Assembly

/-- Two states with one layout: location counter, dummy section and open blocks. -/
structure SameLayout (first second : State) : Prop where
  here : first.here = second.here
  inDsect : first.inDsect = second.inDsect
  conditions : first.conditions = second.conditions

theorem SameLayout.assembles {first second : State} (same : SameLayout first second)
    {statement : Statement} : first.Assembles statement ↔ second.Assembles statement := by
  rw [State.Assembles, State.Assembles, same.conditions]

/-- A statement turns the same blocks, if its test comes out the same where it matters. -/
theorem SameLayout.turn {first second : State} (same : SameLayout first second)
    {statement : Statement}
    (verdicts : first.conditions.enabled = true →
      first.verdict? statement = second.verdict? statement) :
    first.turn statement.role = second.turn statement.role := by
  cases role : statement.role with
  | opens test operand =>
    simp only [State.turn, ← same.conditions]
    by_cases enabled : first.conditions.enabled = true
    · have verdict := verdicts enabled
      simp only [State.verdict?, role, Option.some.injEq] at verdict
      rw [verdict]
    · exact Conditions.enter_of_disabled enabled _ _
  | turns => simp only [State.turn, same.conditions]
  | closes => simp only [State.turn, same.conditions]
  | plain => exact same.conditions

/-- The effect of a statement in the second pass is alike its effect in the first, if the second
pass follows the layout decided on in the first. -/
theorem alike_effectOf (options : Options) (first second : State) (statement : Statement) :
    (effectOf options .one first statement none).Alike
      (effectOf options .two second statement
        (effectOf options .one first statement none).layout) :=
  Effect.alike_ofStatement _ _ statement

/-- A statement that is assembled in both passes moves the location counter alike. -/
theorem here_assembled {options : Options} {first second : State}
    (same : first.here = second.here) (statement : Statement) :
    (assembled options .one first statement none).1.here =
      (assembled options .two second statement
        (assembled options .one first statement none).2.layout).1.here := by
  have alike := alike_effectOf options first second statement
  simp only [assembled_eq, State.apply]
  rw [alike.origin, alike.advance, same]

/-- A step of the second pass that follows the decision of the first keeps the layouts the same. -/
theorem SameLayout.step {options : Options} {first second : State}
    (same : SameLayout first second) (statement : Statement)
    (verdicts : first.conditions.enabled = true →
      first.verdict? statement = second.verdict? statement) :
    SameLayout (step options .one first (statement, none)).1
      (step options .two second
        (statement, (step options .one first (statement, none)).2.layout)).1 := by
  by_cases assembles : first.Assembles statement
  · have alike := alike_effectOf options first second statement
    rw [step_of_assembles assembles, step_of_assembles (same.assembles.mp assembles)]
    refine ⟨here_assembled same.here statement, ?_, ?_⟩
    · simp only [assembled_eq, State.apply]
      rw [alike.dsect, same.inDsect]
    · simp only [assembled_eq, State.apply]
      exact same.conditions
  · rw [step_of_not_assembles assembles,
      step_of_not_assembles fun h => assembles (same.assembles.mpr h)]
    exact ⟨same.here, same.inDsect, same.turn verdicts⟩

/-! ### Whole passes -/

section Passes

variable (options : Options) (statements : List Statement)

/-- Every test of a conditional block comes out the same in both passes. -/
def SameVerdicts : Prop :=
  ∀ i statement, statements[i]? = some statement →
    (before options statements .one i).verdict? statement =
      (before options statements .two i).verdict? statement

/-- Every block that is opened where statements are assembled takes the same branch in both
passes. -/
def SameChoices : Prop :=
  ∀ i statement, statements[i]? = some statement →
    (before options statements .one i).conditions.enabled = true →
      (before options statements .one i).verdict? statement =
        (before options statements .two i).verdict? statement

instance : Decidable (SameVerdicts options statements) :=
  decidable_of_iff _ forall_getElem?_iff.symm

instance : Decidable (SameChoices options statements) :=
  decidable_of_iff _ forall_getElem?_iff.symm

end Passes

variable {options : Options} {statements : List Statement}

theorem SameVerdicts.sameChoices (same : SameVerdicts options statements) :
    SameChoices options statements :=
  fun i statement found _ => same i statement found

/-- With the same choices both passes have one layout, before every statement and at the end. -/
theorem SameChoices.sameLayout (same : SameChoices options statements) (i : Nat) :
    SameLayout (before options statements .one i) (before options statements .two i) := by
  induction i with
  | zero =>
    rw [before_zero, before_zero]
    exact ⟨rfl, rfl, rfl⟩
  | succ i ih =>
    cases found : statements[i]? with
    | none =>
      -- past the last statement nothing happens
      have past : statements.length ≤ i := List.getElem?_eq_none_iff.mp found
      rw [before_of_length_le past, before_of_length_le past] at ih
      rw [before_of_length_le (Nat.le_succ_of_le past),
        before_of_length_le (Nat.le_succ_of_le past)]
      exact ih
    | some statement =>
      rw [before_succ found, before_succ found, visit, visit, decided_two found, visit, decided_one]
      exact ih.step statement (same i statement found)

/-- With one layout in both passes every block takes the same branch: the branch shows in the open
blocks after it. -/
theorem sameChoices_of_sameLayout
    (same : ∀ i, SameLayout (before options statements .one i) (before options statements .two i)) :
    SameChoices options statements := by
  intro i statement found enabled
  cases role : statement.role with
  | opens test operand =>
    have idle (pass : Pass) : ¬ (before options statements pass i).Assembles statement := by
      intro assembles
      rw [assembles.1] at role
      cases role
    have opened (pass : Pass) : (before options statements pass (i + 1)).conditions =
        (before options statements pass i).conditions.enter
          ((before options statements pass i).verdict test operand) := by
      rw [before_succ found, visit, step_of_not_assembles (idle pass), role]
      rfl
    have enabled' : (before options statements .two i).conditions.enabled = true :=
      (same i).conditions ▸ enabled
    have after := congrArg Conditions.enabled (same (i + 1)).conditions
    rw [opened, opened] at after
    simpa [State.verdict?, role, Conditions.enter, enabled, enabled'] using after
  | turns | closes | plain => simp only [State.verdict?, role]

/-- The passes have one layout exactly if they make the same choices. -/
theorem sameLayout_iff_sameChoices :
    (∀ i, SameLayout (before options statements .one i) (before options statements .two i)) ↔
      SameChoices options statements :=
  ⟨sameChoices_of_sameLayout, fun same i => same.sameLayout i⟩

/-- **The layout is the same in both passes**: if every test of a conditional block comes out the
same in both passes, then so are the location counter, the dummy section and the open blocks before
every statement. -/
theorem layout_same_in_both_passes (options : Options) (statements : List Statement)
    (same : SameVerdicts options statements) (i : Nat) :
    (before options statements .one i).here = (before options statements .two i).here ∧
      (before options statements .one i).inDsect = (before options statements .two i).inDsect ∧
      (before options statements .one i).conditions =
        (before options statements .two i).conditions :=
  ⟨(same.sameChoices.sameLayout i).here, (same.sameChoices.sameLayout i).inDsect,
    (same.sameChoices.sameLayout i).conditions⟩

/-- A program that uses `LATER` before its definition, inside a conditional block:

        ORG $1000
  FLAG  EQU 1
        DO FLAG
        LDA LATER
        DSECT
        FIN
  LATER RTS
-/
def forwardReference : List Statement := [
  { position := ⟨1, 8⟩, operation := some (.directive .org (some (.literal 0x1000))) },
  { position := ⟨2, 1⟩, label := some ⟨"FLAG"⟩
    operation := some (.directive .equ (some (.literal 1))) },
  { position := ⟨3, 8⟩
    operation := some (.directive (.opener .holds) (some (.symbol ⟨"FLAG"⟩))) },
  { position := ⟨4, 8⟩
    operation := some (.instruction "LDA" (some ⟨.absolute, .symbol ⟨"LATER"⟩⟩) []) },
  { position := ⟨5, 8⟩, operation := some (.directive .dsect none) },
  { position := ⟨6, 8⟩, operation := some (.directive .fin none) },
  { position := ⟨7, 1⟩, label := some ⟨"LATER"⟩
    operation := some (.instruction "RTS" none []) }]

/-- The passes agree on the layout of `forwardReference`, although only the second one knows `LATER`
at its use. -/
theorem layout_same_forwardReference :
    SameVerdicts {} forwardReference ∧
      (before {} forwardReference .one 3).symbols.meaning ⟨"LATER"⟩ = .undefined ∧
      (before {} forwardReference .two 3).symbols.meaning ⟨"LATER"⟩ = .defined 0x1003 ∧
      (before {} forwardReference .one 5).here = (before {} forwardReference .two 5).here ∧
      (before {} forwardReference .one 5).inDsect = (before {} forwardReference .two 5).inDsect ∧
      (before {} forwardReference .one 5).conditions =
        (before {} forwardReference .two 5).conditions := by
  have same : SameVerdicts {} forwardReference := by decide +kernel
  refine ⟨same, ?_, ?_, layout_same_in_both_passes {} forwardReference same 5⟩
  · decide +kernel
  · decide +kernel

end Assembly

end Asm6502
