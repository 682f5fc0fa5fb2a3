import Asm6502.Proofs.Step
import Asm6502.Proofs.Trajectory

/-!
# How names get their values

Along a pass a name changes its definition only where an assembled statement binds it (`Binds`), and
becomes external only where one declares it (`Declares`). From the two facts about one step — what
is written, and that everything else stays — follow the facts about a stretch of a pass: a name that
is not bound in it keeps its definition (`definition?_before_eq`), a name that is bound last at a
statement has the value given there (`Gives.meaning_of_last`), and a name has a definition, or is
external, only if some statement bound or declared it.
-/

namespace Asm6502

/-! ### Meanings -/

namespace SymbolTable

theorem meaning_eq_defined_iff {table : SymbolTable} {name : Name} {value : UInt16} :
    table.meaning name = .defined value ↔
      ∃ definition, table.definition? name = some definition ∧ definition.value = value := by
  unfold meaning
  cases table.definition? name with
  | some definition => simp
  | none => cases table.externals.contains name <;> simp

theorem meaning_eq_external_iff {table : SymbolTable} {name : Name} :
    table.meaning name = .external ↔
      table.definition? name = none ∧ table.externals.contains name = true := by
  unfold meaning
  cases table.definition? name with
  | some definition => simp
  | none => cases table.externals.contains name <;> simp

/-- What a name means depends on its definition and on whether it is external. -/
theorem meaning_congr {table table' : SymbolTable} {name : Name}
    (definition : table.definition? name = table'.definition? name)
    (external : table.externals.contains name = table'.externals.contains name) :
    table.meaning name = table'.meaning name := by
  unfold meaning
  rw [definition, external]

end SymbolTable

namespace Assembly

/-! ### One step -/

section Step

variable {options : Options} {pass : Pass} {state : State} {statement : Statement}
  {decided : Option Layout} {name : Name} {value : UInt16}

theorem boundName?_of_given (given : state.given pass statement = some (name, value)) :
    statement.boundName? = some name := by
  unfold State.given at given
  unfold Statement.boundName?
  cases equate : statement.equate? with
  | none =>
    rw [equate] at given
    simp only [labelBinding_eq, Option.map_eq_some_iff, Prod.mk.injEq] at given
    obtain ⟨label, found, rfl, -⟩ := given
    exact found
  | some binding =>
    simp only [equate, Option.ite_none_right_eq_some, Option.some.injEq, Prod.mk.injEq] at given
    exact congrArg some given.2.1

/-- A label gets the location. -/
theorem given_of_locationLabel? (label : statement.locationLabel? = some name) :
    state.given pass statement = some (name, state.here) := by
  cases equate : statement.equate? with
  | none => simp [State.given, equate, labelBinding_eq, label]
  | some binding =>
    rw [Statement.locationLabel?_of_equate? equate] at label
    cases label

/-- In the second pass every binding has a value. -/
theorem exists_given_two (state : State) (bound : statement.boundName? = some name) :
    ∃ value, state.given .two statement = some (name, value) := by
  unfold Statement.boundName? at bound
  cases equate : statement.equate? with
  | none =>
    rw [equate] at bound
    exact ⟨_, given_of_locationLabel? bound⟩
  | some binding =>
    simp only [equate, Option.some.injEq] at bound
    exact ⟨_, by simp [State.given, equate, bound]; rfl⟩

theorem definition?_assembled (other : Name) :
    (assembled options pass state statement decided).1.symbols.definition? other =
      (state.symbols.give statement.position (state.given pass statement)).definition? other := by
  rw [assembled_eq]
  simp [State.apply]

/-- A statement that is assembled defines the name it gives a value. -/
theorem definition?_step_of_given (assembles : state.Assembles statement)
    (given : state.given pass statement = some (name, value)) :
    (step options pass state (statement, decided)).1.symbols.definition? name =
      some ⟨value, statement.position⟩ := by
  rw [step_of_assembles assembles, definition?_assembled, given, SymbolTable.definition?_give]
  simp

/-- A statement that is not assembled, or gives the name no value, leaves its definition. -/
theorem definition?_step_of_not_given
    (free : state.Assembles statement → ∀ value, state.given pass statement ≠ some (name, value)) :
    (step options pass state (statement, decided)).1.symbols.definition? name =
      state.symbols.definition? name := by
  by_cases assembles : state.Assembles statement
  · rw [step_of_assembles assembles, definition?_assembled, SymbolTable.definition?_give]
    cases given : state.given pass statement with
    | none => rfl
    | some binding =>
      have other : binding.1 ≠ name := by
        intro same
        exact free assembles binding.2 (by rw [given, ← same])
      simp [other]
  · rw [step_of_not_assembles assembles]

/-- The external names after a step are those before it and those that it declares. -/
theorem contains_externals_step :
    (step options pass state (statement, decided)).1.symbols.externals.contains name = true ↔
      (state.Assembles statement ∧ name ∈ statement.externalNames) ∨
        state.symbols.externals.contains name = true := by
  by_cases assembles : state.Assembles statement
  · rw [step_of_assembles assembles, assembled_eq]
    simp only [State.apply, externals_effectOf, SymbolTable.contains_declareExternals,
      SymbolTable.externals_give, Bool.or_eq_true, List.contains_iff_mem, assembles, true_and]
  · rw [step_of_not_assembles assembles]
    simp [assembles]

end Step

/-! ### Stretches of a pass -/

section Passes

variable (options : Options) (statements : List Statement)

/-- In a pass, the statement at index `i` is assembled and binds the name. -/
def Binds (pass : Pass) (i : Nat) (name : Name) : Prop :=
  ∃ statement, statements[i]? = some statement ∧
    (before options statements pass i).Assembles statement ∧ statement.boundName? = some name

/-- In a pass, the statement at index `i` is assembled and gives the name a value. -/
def Gives (pass : Pass) (i : Nat) (name : Name) (value : UInt16) : Prop :=
  ∃ statement, statements[i]? = some statement ∧
    (before options statements pass i).Assembles statement ∧
    (before options statements pass i).given pass statement = some (name, value)

/-- In a pass, the statement at index `i` is assembled and declares the name as defined
elsewhere. -/
def Declares (pass : Pass) (i : Nat) (name : Name) : Prop :=
  ∃ statement, statements[i]? = some statement ∧
    (before options statements pass i).Assembles statement ∧ name ∈ statement.externalNames

instance (pass : Pass) (i : Nat) (name : Name) : Decidable (Binds options statements pass i name) :=
  inferInstanceAs (Decidable (∃ statement ∈ statements[i]?, _ ∧ _))

instance (pass : Pass) (i : Nat) (name : Name) :
    Decidable (Declares options statements pass i name) :=
  inferInstanceAs (Decidable (∃ statement ∈ statements[i]?, _ ∧ _))

end Passes

variable {options : Options} {statements : List Statement} {pass : Pass} {i j : Nat} {name : Name}
  {value : UInt16}

theorem Binds.lt_length (bound : Binds options statements pass i name) : i < statements.length := by
  obtain ⟨statement, found, -⟩ := bound
  exact (List.getElem?_eq_some_iff.mp found).1

theorem Gives.binds (gives : Gives options statements pass i name value) :
    Binds options statements pass i name := by
  obtain ⟨statement, found, assembles, given⟩ := gives
  exact ⟨statement, found, assembles, boundName?_of_given given⟩

/-- In the second pass a statement that binds a name gives it a value. -/
theorem Binds.exists_gives (bound : Binds options statements .two i name) :
    ∃ value, Gives options statements .two i name value := by
  obtain ⟨statement, found, assembles, named⟩ := bound
  obtain ⟨value, given⟩ := exists_given_two (before options statements .two i) named
  exact ⟨value, statement, found, assembles, given⟩

/-- After a visit a name has the value that it was given there. -/
theorem Gives.meaning_succ (gives : Gives options statements pass i name value) :
    (before options statements pass (i + 1)).symbols.meaning name = .defined value := by
  obtain ⟨statement, found, assembles, given⟩ := gives
  rw [before_succ found, visit, SymbolTable.meaning_eq_defined_iff]
  exact ⟨_, definition?_step_of_given assembles given, rfl⟩

/-- A visit that gives a name no value leaves its definition. -/
theorem definition?_before_succ (free : ∀ value, ¬ Gives options statements pass i name value) :
    (before options statements pass (i + 1)).symbols.definition? name =
      (before options statements pass i).symbols.definition? name := by
  cases found : statements[i]? with
  | none =>
    have past : statements.length ≤ i := List.getElem?_eq_none_iff.mp found
    rw [before_of_length_le past, before_of_length_le (Nat.le_succ_of_le past)]
  | some statement =>
    rw [before_succ found]
    refine definition?_step_of_not_given fun assembles value given => free value ?_
    exact ⟨statement, found, assembles, given⟩

/-- A name keeps its definition over a stretch of statements that do not bind it. -/
theorem definition?_before_eq (le : i ≤ j)
    (free : ∀ k, i ≤ k → k < j → ¬ Binds options statements pass k name) :
    (before options statements pass j).symbols.definition? name =
      (before options statements pass i).symbols.definition? name := by
  obtain ⟨d, rfl⟩ : ∃ d, j = i + d := ⟨j - i, by omega⟩
  induction d with
  | zero => rfl
  | succ d ih =>
    calc (before options statements pass (i + (d + 1))).symbols.definition? name
        = (before options statements pass (i + d)).symbols.definition? name :=
          definition?_before_succ fun _ gives => free (i + d) (by omega) (by omega) gives.binds
      _ = (before options statements pass i).symbols.definition? name :=
          ih (by omega) fun k hk hk' => free k hk (by omega)

/-- A name that is bound last at a statement has the value given there. -/
theorem Gives.meaning_of_last (gives : Gives options statements pass i name value) (lt : i < j)
    (last : ∀ k, i < k → k < j → ¬ Binds options statements pass k name) :
    (before options statements pass j).symbols.meaning name = .defined value := by
  obtain ⟨definition, defined, same⟩ := SymbolTable.meaning_eq_defined_iff.mp gives.meaning_succ
  rw [SymbolTable.meaning_eq_defined_iff, definition?_before_eq lt last]
  exact ⟨definition, defined, same⟩

/-- A name has the definition that it started the pass with, or was bound before. -/
theorem definition?_start_or_binds :
    (before options statements pass i).symbols.definition? name =
        (before options statements pass 0).symbols.definition? name ∨
      ∃ k < i, Binds options statements pass k name := by
  by_cases bound : ∃ k < i, Binds options statements pass k name
  · exact .inr bound
  · exact .inl (definition?_before_eq (Nat.zero_le i) fun k _ hk binds => bound ⟨k, hk, binds⟩)

/-- A name has the definition that it started the pass with, or a value that a statement before
gave it. -/
theorem definition?_start_or_gives {definition : Definition}
    (defined : (before options statements pass i).symbols.definition? name = some definition) :
    (before options statements pass 0).symbols.definition? name = some definition ∨
      ∃ k < i, Gives options statements pass k name definition.value := by
  induction i with
  | zero => exact .inl defined
  | succ i ih =>
    by_cases gives : ∃ value, Gives options statements pass i name value
    · obtain ⟨value, gives⟩ := gives
      have same : Meaning.defined definition.value = .defined value := by
        rw [← gives.meaning_succ]
        exact (SymbolTable.meaning_eq_defined_iff.mpr ⟨definition, defined, rfl⟩).symm
      cases same
      exact .inr ⟨i, Nat.lt_succ_self i, gives⟩
    · rw [definition?_before_succ fun value here => gives ⟨value, here⟩] at defined
      rcases ih defined with started | ⟨k, hk, earlier⟩
      · exact .inl started
      · exact .inr ⟨k, Nat.lt_succ_of_lt hk, earlier⟩

/-- A name that has a definition in the first pass was given its value by a statement before. -/
theorem exists_gives_one {definition : Definition}
    (defined : (before options statements .one i).symbols.definition? name = some definition) :
    ∃ k < i, Gives options statements .one k name definition.value := by
  rcases definition?_start_or_gives defined with started | gives
  · -- the first pass starts without names
    rw [before_zero] at started
    simp [start, initial, SymbolTable.definition?] at started
  · exact gives

/-- A name that was bound before was bound at some statement last. -/
theorem exists_last_binds (bound : ∃ k < i, Binds options statements pass k name) :
    ∃ k < i, Binds options statements pass k name ∧
      ∀ j, k < j → j < i → ¬ Binds options statements pass j name := by
  induction i with
  | zero =>
    obtain ⟨k, hk, -⟩ := bound
    omega
  | succ i ih =>
    by_cases here : Binds options statements pass i name
    · exact ⟨i, by omega, here, fun j hj hj' => by omega⟩
    · obtain ⟨k, hk, bound⟩ := bound
      have earlier : k < i := by
        rcases Nat.lt_succ_iff_lt_or_eq.mp hk with hk | rfl
        · exact hk
        · exact absurd bound here
      obtain ⟨last, hlast, bound, free⟩ := ih ⟨k, earlier, bound⟩
      refine ⟨last, by omega, bound, fun j hj hj' => ?_⟩
      rcases Nat.lt_succ_iff_lt_or_eq.mp hj' with hj' | rfl
      · exact free j hj hj'
      · exact here

/-- A name that has a definition in the first pass was bound before. -/
theorem exists_binds_one {definition : Definition}
    (defined : (before options statements .one i).symbols.definition? name = some definition) :
    ∃ k < i, Binds options statements .one k name := by
  obtain ⟨k, hk, gives⟩ := exists_gives_one defined
  exact ⟨k, hk, gives.binds⟩

/-- A name that has a definition in the second pass was bound before, or in the first pass. -/
theorem exists_binds_two {definition : Definition}
    (defined : (before options statements .two i).symbols.definition? name = some definition) :
    (∃ k < i, Binds options statements .two k name) ∨
      ∃ k, Binds options statements .one k name := by
  rcases definition?_start_or_binds with unchanged | bound
  · rw [defined, before_two_zero] at unchanged
    obtain ⟨k, -, bound⟩ := exists_binds_one unchanged.symm
    exact .inr ⟨k, bound⟩
  · exact .inl bound

/-! ### External names -/

theorem contains_externals_before_succ :
    (before options statements pass (i + 1)).symbols.externals.contains name = true ↔
      Declares options statements pass i name ∨
        (before options statements pass i).symbols.externals.contains name = true := by
  cases found : statements[i]? with
  | none =>
    have past : statements.length ≤ i := List.getElem?_eq_none_iff.mp found
    rw [before_of_length_le past, before_of_length_le (Nat.le_succ_of_le past)]
    simp [Declares, found]
  | some statement =>
    rw [before_succ found, visit, contains_externals_step]
    simp [Declares, found]

/-- External names stay external. -/
theorem contains_externals_before_mono (le : i ≤ j)
    (external : (before options statements pass i).symbols.externals.contains name = true) :
    (before options statements pass j).symbols.externals.contains name = true := by
  induction le with
  | refl => exact external
  | step _ ih => exact contains_externals_before_succ.mpr (.inr ih)

/-- What is external to the first pass is external to the second from its start. -/
theorem contains_externals_two_of_one
    (external : (before options statements .one i).symbols.externals.contains name = true)
    (j : Nat) :
    (before options statements .two j).symbols.externals.contains name = true := by
  have final : (before options statements .one statements.length).symbols.externals.contains name =
      true := by
    by_cases inside : i ≤ statements.length
    · exact contains_externals_before_mono inside external
    · rw [before_of_length_le (by omega)] at external
      rwa [before_length]
  refine contains_externals_before_mono (Nat.zero_le j) ?_
  rwa [before_two_zero]

/-- A name is external after a stretch only if it was before, or a statement declared it. -/
theorem exists_declares_of_start
    (external : (before options statements pass i).symbols.externals.contains name = true) :
    (∃ k, Declares options statements pass k name) ∨
      (before options statements pass 0).symbols.externals.contains name = true := by
  induction i with
  | zero => exact .inr external
  | succ i ih =>
    rcases contains_externals_before_succ.mp external with declared | external
    · exact .inl ⟨i, declared⟩
    · exact ih external

/-- A name that is external in a pass was declared in one of the passes. -/
theorem exists_declares
    (external : (before options statements pass i).symbols.externals.contains name = true) :
    ∃ pass k, Declares options statements pass k name := by
  have one {i : Nat}
      (external : (before options statements .one i).symbols.externals.contains name = true) :
      ∃ pass k, Declares options statements pass k name := by
    rcases exists_declares_of_start external with ⟨k, declared⟩ | external
    · exact ⟨.one, k, declared⟩
    · rw [before_zero] at external
      simp [start, initial] at external
  cases pass with
  | one => exact one external
  | two =>
    rcases exists_declares_of_start external with ⟨k, declared⟩ | external
    · exact ⟨.two, k, declared⟩
    · rw [before_two_zero] at external
      exact one external

end Assembly

end Asm6502
