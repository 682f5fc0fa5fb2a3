import Asm6502.Proofs.Consistency

/-!
# The contract of the two passes

The first pass is there to give every label the value that the second pass assembles with. So a
program that assembles without any diagnostic should have the location counter at the same place
before every statement in both passes, and every label should end with the value that the first pass
left (`PassesAgree`). It does not have to: the test of a block may name a symbol that is defined
later, and then the passes take different branches; and an equate whose operand is not known to the
first pass gives a label another value in the second, where nothing warns of it
(`clean_passes_may_differ`).

`passesAgree_iff_settled` says when a clean program keeps the contract: exactly if it is `Settled`,
that is, a statement which only one pass assembles leaves the location counter where it is, and
where an equate gives a label its last value, some statement of the first pass gave the same value.
Coherent programs are settled.
-/

namespace Asm6502.Assembly

variable {options : Options} {statements : List Statement} {pass pass' : Pass} {i j : Nat}
  {statement : Statement} {name : Name} {value : UInt16}

/-! ### The location counter -/

theorem here_of_not_assembles (found : statements[i]? = some statement)
    (idle : ¬ (before options statements pass i).Assembles statement) :
    (before options statements pass (i + 1)).here = (before options statements pass i).here := by
  rw [before_succ found, visit, step_of_not_assembles idle]

/-- The location counters agree throughout exactly if every statement that only one of the passes
assembles leaves the counter where it is. -/
theorem same_here_iff :
    (∀ i, (before options statements .one i).here = (before options statements .two i).here) ↔
      ∀ pass pass' i statement, statements[i]? = some statement →
        (before options statements pass i).Assembles statement →
        ¬ (before options statements pass' i).Assembles statement →
        (before options statements pass (i + 1)).here =
          (before options statements pass i).here := by
  constructor
  · intro same pass pass' i statement found _ idle
    have across (i : Nat) : (before options statements pass i).here =
        (before options statements pass' i).here := by
      cases pass <;> cases pass' <;> simp [same i]
    rw [across (i + 1), across i, here_of_not_assembles found idle]
  · intro still i
    induction i with
    | zero => rw [before_zero, before_zero]; rfl
    | succ i ih =>
      cases found : statements[i]? with
      | none =>
        have past : statements.length ≤ i := List.getElem?_eq_none_iff.mp found
        rw [before_of_length_le past, before_of_length_le past] at ih
        rw [before_of_length_le (Nat.le_succ_of_le past),
          before_of_length_le (Nat.le_succ_of_le past), ih]
      | some statement =>
        by_cases first : (before options statements .one i).Assembles statement <;>
          by_cases second : (before options statements .two i).Assembles statement
        · -- both passes assemble the statement, the second as the first decided
          rw [before_succ found, before_succ found, visit, visit, decided_two found, visit,
            decided_one, step_of_assembles first, step_of_assembles second]
          exact here_assembled ih statement
        · rw [still .one .two i statement found first second,
            here_of_not_assembles found second, ih]
        · rw [still .two .one i statement found second first,
            here_of_not_assembles found first, ih]
        · rw [here_of_not_assembles found first, here_of_not_assembles found second, ih]

/-! ### Labels -/

section Passes

variable (options : Options) (statements : List Statement)

/-- In a pass, the statement at index `i` is assembled and its label stands for its location. -/
def Labels (pass : Pass) (i : Nat) (name : Name) : Prop :=
  ∃ statement, statements[i]? = some statement ∧
    (before options statements pass i).Assembles statement ∧ statement.locationLabel? = some name

/-- The statement at index `k` gives the name a value in the second pass, and no later one does. -/
def GivesLast (k : Nat) (name : Name) (value : UInt16) : Prop :=
  Gives options statements .two k name value ∧ ∀ j, k < j → ¬ Binds options statements .two j name

/-- The passes keep their contract: the location counter is at the same place before every
statement, and every label ends with the value that the first pass left. -/
structure PassesAgree : Prop where
  here : ∀ i, (before options statements .one i).here = (before options statements .two i).here
  labels : ∀ pass i name, Labels options statements pass i name →
    (run options statements).symbols.meaning name =
      (before options statements .two 0).symbols.meaning name

/-- The run warns that the name gets another value than it had. -/
def ReportsRedefinition (name : Name) : Prop :=
  ∃ value previous position,
    ⟨.redefined name value previous, position⟩ ∈ (run options statements).diagnostics

/-- Nothing moves between the passes. -/
structure Settled : Prop where
  /-- A statement that only one of the passes assembles leaves the location counter where it is. -/
  here : ∀ pass pass' i statement, statements[i]? = some statement →
    (before options statements pass i).Assembles statement →
    ¬ (before options statements pass' i).Assembles statement →
    (before options statements pass (i + 1)).here = (before options statements pass i).here
  /-- The last value of a label is given by the label itself, or by an equate that gives a value
  which some statement gave the name in the first pass already. -/
  labels : ∀ pass i name k value, Labels options statements pass i name →
    GivesLast options statements k name value →
    Labels options statements .one k name ∨ ∃ j, Gives options statements .one j name value

end Passes

/-- A label gives its name the location. -/
theorem Labels.gives (label : Labels options statements pass i name) :
    Gives options statements pass i name (before options statements pass i).here := by
  obtain ⟨statement, found, assembles, named⟩ := label
  exact ⟨statement, found, assembles, given_of_locationLabel? named⟩

/-- A name that is bound in the second pass gets its last value at some statement. -/
theorem exists_givesLast (bound : Binds options statements .two i name) :
    ∃ k value, GivesLast options statements k name value := by
  obtain ⟨k, -, binds, last⟩ := exists_last_binds ⟨i, bound.lt_length, bound⟩
  obtain ⟨value, gives⟩ := binds.exists_gives
  exact ⟨k, value, gives, fun j hj later => last j hj later.lt_length later⟩

/-- The value that a name gets last is the one it ends with. -/
theorem GivesLast.meaning_run (last : GivesLast options statements i name value) :
    (run options statements).symbols.meaning name = .defined value := by
  obtain ⟨gives, free⟩ := last
  rw [symbols_run]
  exact gives.meaning_of_last gives.binds.lt_length fun j hj _ => free j hj

/-- A label of the first pass that gives its name the last value gives it the location. -/
theorem GivesLast.value_of_labels (last : GivesLast options statements i name value)
    (label : Labels options statements .one i name) :
    value = (before options statements .two i).here := by
  obtain ⟨⟨statement, found, -, given⟩, -⟩ := last
  obtain ⟨statement', found', -, named⟩ := label
  obtain rfl : statement = statement' := Option.some.inj (found.symm.trans found')
  rw [given_of_locationLabel? named, Option.some.injEq, Prod.mk.injEq] at given
  exact given.2.symm

/-! ### Programs without diagnostics -/

/-- A name that changes its value in the first pass is reported. -/
theorem redefined_reported {previous : Definition}
    (gives : Gives options statements .one i name value)
    (defined : (before options statements .one i).symbols.definition? name = some previous)
    (changed : previous.value ≠ value) :
    ∃ position,
      ⟨.redefined name value previous, position⟩ ∈ (run options statements).diagnostics := by
  obtain ⟨statement, found, assembles, given⟩ := gives
  refine ⟨some statement.position, mem_diagnostics_of_visit .one found ?_⟩
  rw [visit, step_of_assembles assembles, assembled_eq]
  refine List.mem_append_left _ ?_
  simp [given, State.bind?, State.bind, SymbolTable.redefinition, defined, changed]

/-- A name of which nothing is reported keeps its value in the first pass. -/
theorem meaning_one_of_not_reported (silent : ¬ ReportsRedefinition options statements name)
    (le : i ≤ j)
    (known : (before options statements .one i).symbols.meaning name = .defined value) :
    (before options statements .one j).symbols.meaning name = .defined value := by
  induction le with
  | refl => exact known
  | @step j _ ih =>
    obtain ⟨previous, defined, rfl⟩ := SymbolTable.meaning_eq_defined_iff.mp ih
    by_cases gives : ∃ value, Gives options statements .one j name value
    · -- the name gets a value again; another one would have been reported
      obtain ⟨value, gives⟩ := gives
      by_cases same : previous.value = value
      · rw [gives.meaning_succ, same]
      · obtain ⟨position, reported⟩ := redefined_reported gives defined same
        exact absurd ⟨value, previous, position, reported⟩ silent
    · rw [SymbolTable.meaning_eq_defined_iff,
        definition?_before_succ fun value h => gives ⟨value, h⟩]
      exact ⟨previous, defined, rfl⟩

/-- Without diagnostics nothing is reported of any name. -/
theorem not_reportsRedefinition_of_clean (clean : (run options statements).diagnostics = []) :
    ¬ ReportsRedefinition options statements name := by
  rintro ⟨value, previous, position, reported⟩
  rw [clean] at reported
  cases reported

/-- Without diagnostics the first pass leaves a name the value that it gave it at any place. -/
theorem Gives.meaning_start (gives : Gives options statements .one i name value)
    (clean : (run options statements).diagnostics = []) :
    (before options statements .two 0).symbols.meaning name = .defined value := by
  rw [before_two_zero]
  exact meaning_one_of_not_reported (not_reportsRedefinition_of_clean clean) gives.binds.lt_length
    gives.meaning_succ

/-- A label of a settled program without diagnostics ends with what the first pass left. -/
theorem Settled.meaning_run (settled : Settled options statements)
    (clean : (run options statements).diagnostics = [])
    (label : Labels options statements pass i name) :
    (run options statements).symbols.meaning name =
      (before options statements .two 0).symbols.meaning name := by
  by_cases bound : ∃ j, Binds options statements .two j name
  · obtain ⟨j, bound⟩ := bound
    obtain ⟨k, value, last⟩ := exists_givesLast bound
    rw [last.meaning_run]
    rcases settled.labels pass i name k value label last with own | ⟨j, earlier⟩
    · rw [own.gives.meaning_start clean, last.value_of_labels own,
        same_here_iff.mpr settled.here k]
    · exact (earlier.meaning_start clean).symm
  · -- only the first pass met the label
    have free (j : Nat) : ¬ Binds options statements .two j name := fun h => bound ⟨j, h⟩
    cases pass with
    | two => exact absurd label.gives.binds (free i)
    | one =>
      have start := label.gives.meaning_start clean
      rw [start, symbols_run, SymbolTable.meaning_eq_defined_iff,
        definition?_before_eq (Nat.zero_le _) fun k _ _ => free k]
      exact SymbolTable.meaning_eq_defined_iff.mp start

/-- Coherent programs are settled: the passes assemble the same statements, and a label is bound
nowhere else. -/
theorem Coherent.settled (coherent : Coherent options statements) :
    Settled options statements where
  here := by
    intro pass pass' i statement _ assembles idle
    exact absurd ((coherent.assembles pass pass').mp assembles) idle
  labels := by
    intro pass i name k value label last
    have same : i = k := coherent.once i k name (coherent.binds .two label.gives.binds) last.1.binds
    subst same
    obtain ⟨statement, found, assembles, named⟩ := label
    exact .inl ⟨statement, found, (coherent.assembles pass .one).mp assembles, named⟩

/-- **The contract of the passes**: in a program that assembles without diagnostics, the first pass
leaves every label the location at which it found it. Both passes then have the location counter at
the same place before every statement, and every label ends with the value that the first pass left,
exactly if the program is settled. -/
theorem passesAgree_iff_settled (options : Options) (statements : List Statement)
    (clean : (run options statements).diagnostics = []) :
    (∀ i name, Labels options statements .one i name →
        (before options statements .two 0).symbols.meaning name =
          .defined (before options statements .one i).here) ∧
      (PassesAgree options statements ↔ Settled options statements) := by
  refine ⟨fun i name label => label.gives.meaning_start clean, ?_, ?_⟩
  · intro agree
    refine ⟨same_here_iff.mp agree.here, fun pass i name k value label last => .inr ?_⟩
    -- what the first pass left was given by one of its statements
    have left := (agree.labels pass i name label).symm.trans last.meaning_run
    rw [before_two_zero] at left
    obtain ⟨definition, defined, rfl⟩ := SymbolTable.meaning_eq_defined_iff.mp left
    obtain ⟨j, -, gives⟩ := exists_gives_one defined
    exact ⟨j, gives⟩
  · intro settled
    exact ⟨same_here_iff.mpr settled.here, fun pass i name label => settled.meaning_run clean label⟩

/-- The contract holds for `forwardReference`, which assembles without diagnostics. -/
theorem passesAgree_forwardReference :
    (run {} forwardReference).diagnostics = [] ∧ Settled {} forwardReference ∧
      PassesAgree {} forwardReference ∧
      (before {} forwardReference .two 0).symbols.meaning ⟨"LATER"⟩ =
        .defined (before {} forwardReference .one 6).here := by
  have clean : (run {} forwardReference).diagnostics = [] := by decide +kernel
  have coherent : Coherent {} forwardReference := by decide +kernel
  have ⟨labels, agree⟩ := passesAgree_iff_settled {} forwardReference clean
  refine ⟨clean, coherent.settled, agree.mpr coherent.settled, labels 6 ⟨"LATER"⟩ ?_⟩
  exact ⟨_, rfl, by decide +kernel, rfl⟩

/-- A program that tests a symbol which is defined later:

        ORG $1000
        DO LATER
        NOP
        FIN
        JMP LATER
  LATER RTS
-/
def testOfLater : List Statement := [
  { position := ⟨1, 8⟩, operation := some (.directive .org (some (.literal 0x1000))) },
  { position := ⟨2, 8⟩
    operation := some (.directive (.opener .holds) (some (.symbol ⟨"LATER"⟩))) },
  { position := ⟨3, 8⟩, operation := some (.instruction "NOP" none []) },
  { position := ⟨4, 8⟩, operation := some (.directive .fin none) },
  { position := ⟨5, 8⟩
    operation := some (.instruction "JMP" (some ⟨.absolute, .symbol ⟨"LATER"⟩⟩) []) },
  { position := ⟨6, 1⟩, label := some ⟨"LATER"⟩
    operation := some (.instruction "RTS" none []) }]

/-- A program with a label that is equated to a symbol which is defined later:

        ORG $1000
  X     NOP
  X     EQU Y
  Y     EQU 5
-/
def equatedLabel : List Statement := [
  { position := ⟨1, 8⟩, operation := some (.directive .org (some (.literal 0x1000))) },
  { position := ⟨2, 1⟩, label := some ⟨"X"⟩, operation := some (.instruction "NOP" none []) },
  { position := ⟨3, 1⟩, label := some ⟨"X"⟩
    operation := some (.directive .equ (some (.symbol ⟨"Y"⟩))) },
  { position := ⟨4, 1⟩, label := some ⟨"Y"⟩
    operation := some (.directive .equ (some (.literal 5))) }]

/-- The contract fails for `testOfLater` and for `equatedLabel`, and nothing is reported. In the
first one the jump goes to the location that the first pass had for `LATER`, one byte before the
label; in the second one the label ends with a value that is no location. -/
theorem clean_passes_may_differ :
    ((run {} testOfLater).diagnostics = [] ∧ ¬ PassesAgree {} testOfLater ∧
      (run {} testOfLater).bytes = [0xEA, 0x4C, 0x03, 0x10, 0x60] ∧
      (before {} testOfLater .one 5).here = 0x1003 ∧
      (before {} testOfLater .two 5).here = 0x1004 ∧
      (run {} testOfLater).symbols.meaning ⟨"LATER"⟩ = .defined 0x1004) ∧
    ((run {} equatedLabel).diagnostics = [] ∧ ¬ PassesAgree {} equatedLabel ∧
      (before {} equatedLabel .two 0).symbols.meaning ⟨"X"⟩ = .defined 0x1000 ∧
      (run {} equatedLabel).symbols.meaning ⟨"X"⟩ = .defined 5) := by
  have moved : ¬ PassesAgree {} testOfLater := by
    intro agree
    exact absurd (agree.here 5) (by decide +kernel)
  have label : Labels {} equatedLabel .one 1 ⟨"X"⟩ := ⟨_, rfl, by decide +kernel, rfl⟩
  have changed : ¬ PassesAgree {} equatedLabel := by
    intro agree
    exact absurd (agree.labels .one 1 ⟨"X"⟩ label) (by decide +kernel)
  refine ⟨⟨?_, moved, ?_, ?_, ?_, ?_⟩, ⟨?_, changed, ?_, ?_⟩⟩ <;> decide +kernel

end Asm6502.Assembly
