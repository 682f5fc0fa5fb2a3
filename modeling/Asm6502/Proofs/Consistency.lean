import Asm6502.Proofs.Definition
import Asm6502.Proofs.Evaluation
import Asm6502.Proofs.Layout

/-!
# Every use of a symbol has its final value

A use before the definition of a symbol reads the value that the first pass left, a use after it the
value that the second pass gave. For a program that is **coherent** (`Coherent`) and uses no
undefined symbol these are one value, the one in the final symbol table (`uses_have_final_value`).

The invariant that relates the tables of the two passes is `Coherent.meaning_two`: whatever the
first pass knows of a name before a statement, the second pass knows too. For a label this is the
common layout; for an equate it is the invariant itself, applied to the names that its operand reads
— the first pass gives an equate a value only if it knows all of them. What the first pass does not
know is undefined in the second pass until it is bound there, and such uses are reported.
-/

namespace Asm6502

/-- The value that a meaning stands for: zero for a name that is defined elsewhere, none for one
that is not known. -/
def Meaning.value? : Meaning → Option UInt16
  | .defined value => some value
  | .external => some 0
  | .undefined => none

namespace Expr

/-- A name that means something is evaluated to the value its meaning stands for. -/
theorem value_evaluate_symbol {symbols : SymbolTable} (here : UInt16) {name : Name}
    (known : symbols.meaning name ≠ .undefined) :
    some ((Expr.symbol name).evaluate symbols here).value = (symbols.meaning name).value? := by
  simp only [evaluate]
  cases meaning : symbols.meaning name with
  | defined value => rfl
  | external => rfl
  | undefined => exact absurd meaning known

end Expr

namespace Assembly

/-- If all that the first pass knows the second pass knows too, it gives the same value to a name
that the first pass gives one. -/
theorem given_two_of_one {first second : State} {statement : Statement}
    {binding : Name × UInt16} (here : first.here = second.here)
    (agree : ∀ name, first.symbols.meaning name ≠ .undefined →
      second.symbols.meaning name = first.symbols.meaning name)
    (given : first.given .one statement = some binding) :
    second.given .two statement = some binding := by
  unfold State.given at given ⊢
  cases equate : statement.equate? with
  | none =>
    simp only [equate, labelBinding_eq, here] at given ⊢
    exact given
  | some target =>
    obtain ⟨name, expr⟩ := target
    simp only [equate, reduceCtorEq, false_or, Option.ite_none_right_eq_some, true_or, if_true]
      at given ⊢
    obtain ⟨defined, value⟩ := given
    have same : expr.evaluate first.symbols first.here =
        expr.evaluate second.symbols first.here :=
      Expr.evaluate_congr first.here expr fun other read =>
        (agree other (Expr.isDefined_evaluate.mp defined other read)).symm
    rw [← here, ← same, value]

section Passes

variable (options : Options) (statements : List Statement)

/-- A program in which the passes take the same branches and names are used for one thing each. -/
structure Coherent : Prop where
  /-- Every test comes out the same in both passes. -/
  verdicts : SameVerdicts options statements
  /-- A name is bound by at most one assembled statement. -/
  once : ∀ i j name, Binds options statements .two i name → Binds options statements .two j name →
    i = j
  /-- No name is both declared as defined elsewhere and bound. -/
  apart : ∀ i j name, Declares options statements .two i name →
    ¬ Binds options statements .two j name

/-- Whether a program is coherent is found by looking at its statements. -/
theorem coherent_iff :
    Coherent options statements ↔
      SameVerdicts options statements ∧
      ∀ i < statements.length, ∀ j < statements.length,
        ∀ name ∈ statements.filterMap (·.boundName?),
        Binds options statements .two j name →
          (Binds options statements .two i name → i = j) ∧
            ¬ Declares options statements .two i name := by
  have inside {i : Nat} {statement : Statement} (found : statements[i]? = some statement) :
      i < statements.length := (List.getElem?_eq_some_iff.mp found).1
  constructor
  · intro coherent
    refine ⟨coherent.verdicts, fun i _ j _ name _ bound => ⟨fun bound' => ?_, fun declared => ?_⟩⟩
    · exact coherent.once i j name bound' bound
    · exact coherent.apart i j name declared bound
  · rintro ⟨verdicts, names⟩
    have at_names (i j : Nat) (name : Name) (hi : i < statements.length)
        (bound : Binds options statements .two j name) :
        (Binds options statements .two i name → i = j) ∧
          ¬ Declares options statements .two i name := by
      have ⟨statement, found, _, named⟩ := bound
      exact names i hi j (inside found) name
        (List.mem_filterMap.mpr ⟨statement, List.mem_of_getElem? found, named⟩) bound
    refine ⟨verdicts, fun i j name bound bound' => ?_, fun i j name declared bound => ?_⟩
    · have ⟨statement, found, _⟩ := bound
      exact (at_names i j name (inside found) bound').1 bound
    · have ⟨statement, found, _⟩ := declared
      exact (at_names i j name (inside found) bound).2 declared

instance : Decidable (Coherent options statements) :=
  decidable_of_iff _ (coherent_iff options statements).symm

end Passes

namespace Coherent

variable {options : Options} {statements : List Statement} {pass pass' : Pass} {i j : Nat}
  {name : Name}

theorem sameLayout (coherent : Coherent options statements) (i : Nat) :
    SameLayout (before options statements .one i) (before options statements .two i) :=
  coherent.verdicts.sameChoices.sameLayout i

/-- Both passes assemble the same statements. -/
theorem assembles (coherent : Coherent options statements) (pass pass' : Pass)
    {statement : Statement} :
    (before options statements pass i).Assembles statement ↔
      (before options statements pass' i).Assembles statement := by
  have same : (before options statements .one i).Assembles statement ↔
      (before options statements .two i).Assembles statement := (coherent.sameLayout i).assembles
  cases pass <;> cases pass'
  · rfl
  · exact same
  · exact same.symm
  · rfl

/-- Both passes bind the same names at the same statements. -/
theorem binds (coherent : Coherent options statements) (pass' : Pass)
    (bound : Binds options statements pass i name) : Binds options statements pass' i name := by
  obtain ⟨statement, found, assembles, bound⟩ := bound
  exact ⟨statement, found, (coherent.assembles pass pass').mp assembles, bound⟩

/-- Both passes declare the same names at the same statements. -/
theorem declares (coherent : Coherent options statements) (pass' : Pass)
    (declared : Declares options statements pass i name) :
    Declares options statements pass' i name := by
  obtain ⟨statement, found, assembles, declared⟩ := declared
  exact ⟨statement, found, (coherent.assembles pass pass').mp assembles, declared⟩

/-- An external name has no definition in any state. -/
theorem definition?_of_external (coherent : Coherent options statements)
    (external : (before options statements pass i).symbols.externals.contains name = true) :
    (before options statements pass' j).symbols.definition? name = none := by
  obtain ⟨_, k, declared⟩ := exists_declares external
  have free := fun j => coherent.apart k j name (coherent.declares .two declared)
  cases defined : (before options statements pass' j).symbols.definition? name with
  | none => rfl
  | some definition =>
    cases pass' with
    | one =>
      obtain ⟨k, -, bound⟩ := exists_binds_one defined
      exact absurd (coherent.binds .two bound) (free k)
    | two =>
      rcases exists_binds_two defined with ⟨k, -, bound⟩ | ⟨k, bound⟩
      · exact absurd bound (free k)
      · exact absurd (coherent.binds .two bound) (free k)

/-- A name that is bound at a statement has no definition in the first pass before it. -/
theorem definition?_one_of_binds (coherent : Coherent options statements)
    (bound : Binds options statements .one i name) :
    (before options statements .one i).symbols.definition? name = none := by
  cases defined : (before options statements .one i).symbols.definition? name with
  | none => rfl
  | some definition =>
    obtain ⟨k, earlier, other⟩ := exists_binds_one defined
    have same := coherent.once k i name (coherent.binds .two other) (coherent.binds .two bound)
    omega

/-- If all that the first pass knows the second pass knows too, it gives a name the same value. -/
theorem gives_two (coherent : Coherent options statements)
    (agree : ∀ name, (before options statements .one i).symbols.meaning name ≠ .undefined →
      (before options statements .two i).symbols.meaning name =
        (before options statements .one i).symbols.meaning name)
    {value : UInt16} (gives : Gives options statements .one i name value) :
    Gives options statements .two i name value := by
  obtain ⟨statement, found, assembles, given⟩ := gives
  exact ⟨statement, found, (coherent.assembles .one .two).mp assembles,
    given_two_of_one (coherent.sameLayout i).here agree given⟩

/-- **What the first pass knows of a name, the second pass knows too.** -/
theorem meaning_two (coherent : Coherent options statements) (i : Nat) (name : Name)
    (known : (before options statements .one i).symbols.meaning name ≠ .undefined) :
    (before options statements .two i).symbols.meaning name =
      (before options statements .one i).symbols.meaning name := by
  induction i generalizing name with
  | zero =>
    refine absurd ?_ known
    simp [start, initial, SymbolTable.meaning, SymbolTable.definition?]
  | succ i ih =>
    cases meaning : (before options statements .one (i + 1)).symbols.meaning name with
    | undefined => exact absurd meaning known
    | external =>
      obtain ⟨-, external⟩ := SymbolTable.meaning_eq_external_iff.mp meaning
      exact SymbolTable.meaning_eq_external_iff.mpr
        ⟨coherent.definition?_of_external external, contains_externals_two_of_one external _⟩
    | defined value =>
      by_cases gives : ∃ value, Gives options statements .one i name value
      · -- the name gets its value here
        obtain ⟨value, gives⟩ := gives
        rw [← meaning, gives.meaning_succ, (coherent.gives_two ih gives).meaning_succ]
      · -- the name keeps what it had; it is not bound here, since it was bound before
        obtain ⟨definition, defined, rfl⟩ := SymbolTable.meaning_eq_defined_iff.mp meaning
        rw [definition?_before_succ fun value h => gives ⟨value, h⟩] at defined
        have free : ¬ Binds options statements .two i name := by
          intro bound
          have fresh := coherent.definition?_one_of_binds (coherent.binds .one bound)
          rw [defined] at fresh
          cases fresh
        have earlier : (before options statements .one i).symbols.meaning name =
            .defined definition.value :=
          SymbolTable.meaning_eq_defined_iff.mpr ⟨definition, defined, rfl⟩
        have now := ih name (by rw [earlier]; simp)
        rw [earlier, SymbolTable.meaning_eq_defined_iff] at now
        rwa [SymbolTable.meaning_eq_defined_iff,
          definition?_before_succ fun _ gives => free gives.binds]

/-- What the second pass knows of a name, it knows to the end. -/
theorem meaning_final (coherent : Coherent options statements) {i : Nat}
    (inside : i ≤ statements.length) {name : Name}
    (known : (before options statements .two i).symbols.meaning name ≠ .undefined) :
    (before options statements .two i).symbols.meaning name =
      (run options statements).symbols.meaning name := by
  rw [symbols_run]
  cases meaning : (before options statements .two i).symbols.meaning name with
  | undefined => exact absurd meaning known
  | external =>
    obtain ⟨-, external⟩ := SymbolTable.meaning_eq_external_iff.mp meaning
    symm
    exact SymbolTable.meaning_eq_external_iff.mpr
      ⟨coherent.definition?_of_external external, contains_externals_before_mono inside external⟩
  | defined value =>
    obtain ⟨definition, defined, rfl⟩ := SymbolTable.meaning_eq_defined_iff.mp meaning
    symm
    by_cases earlier : ∃ k < i, Binds options statements .two k name
    · -- it was bound before, so it is not bound again
      obtain ⟨k, before, bound⟩ := earlier
      refine SymbolTable.meaning_eq_defined_iff.mpr ⟨definition, ?_, rfl⟩
      rw [definition?_before_eq inside, defined]
      intro j hj _ again
      have same := coherent.once k j name bound again
      omega
    · -- its value comes from the first pass, which knew it at the end
      have first : (before options statements .one statements.length).symbols.meaning name =
          .defined definition.value := by
        refine SymbolTable.meaning_eq_defined_iff.mpr ⟨definition, ?_, rfl⟩
        rw [← before_two_zero, ← defined]
        symm
        exact definition?_before_eq (Nat.zero_le i) fun k _ hk bound => earlier ⟨k, hk, bound⟩
      rw [coherent.meaning_two statements.length name (by rw [first]; simp), first]

end Coherent

variable {options : Options} {statements : List Statement} {i : Nat} {statement : Statement}
  {name : Name}

/-- What an assembled statement knows of a name, its own label included, is what is known at the
end. -/
theorem Coherent.meaning_seen (coherent : Coherent options statements)
    (found : statements[i]? = some statement)
    (assembles : (before options statements .two i).Assembles statement)
    (known : ((before options statements .two i).seen statement).meaning name ≠ .undefined) :
    ((before options statements .two i).seen statement).meaning name =
      (run options statements).symbols.meaning name := by
  have inside : i < statements.length := (List.getElem?_eq_some_iff.mp found).1
  by_cases label : statement.locationLabel? = some name
  · have after : (before options statements .two (i + 1)).symbols.meaning name =
        .defined (before options statements .two i).here :=
      Gives.meaning_succ ⟨statement, found, assembles, given_of_locationLabel? label⟩
    rw [← coherent.meaning_final inside (by rw [after]; simp), after, State.seen, labelBinding_eq,
      label]
    simp [SymbolTable.give, SymbolTable.meaning_define]
  · have same : ((before options statements .two i).seen statement).meaning name =
        (before options statements .two i).symbols.meaning name := by
      refine SymbolTable.meaning_congr ?_ (by simp [State.seen])
      rw [State.seen, labelBinding_eq, SymbolTable.definition?_give]
      cases other : statement.locationLabel? with
      | none => rfl
      | some other' =>
        have different : other' ≠ name := fun h => label (by rw [other, h])
        simp [different]
    rw [same] at known ⊢
    exact coherent.meaning_final (Nat.le_of_lt inside) known

/-- A name that an assembled statement reads and does not know is reported. -/
theorem undefined_reported (found : statements[i]? = some statement)
    (assembles : (before options statements .two i).Assembles statement) {expr : Expr}
    (listed : expr ∈ statement.evaluated options.listing) (read : name ∈ expr.reads)
    (unknown : ((before options statements .two i).seen statement).meaning name = .undefined) :
    (⟨.undefinedSymbol name, some statement.position⟩ : Diagnostic) ∈
      (run options statements).diagnostics := by
  refine mem_diagnostics_of_visit .two found ?_
  rw [visit, step_of_assembles assembles, assembled_eq]
  refine List.mem_append_right _ (List.mem_map.mpr ⟨_, ?_, rfl⟩)
  refine Effect.problems_subset_ofStatement _ listed (List.mem_append_left _ ?_)
  exact List.mem_map.mpr ⟨name, Expr.mem_undefined_evaluate.mpr ⟨read, unknown⟩, rfl⟩

/-- **Every use of a symbol has its final value**: in a coherent program without undefined symbols,
every name that an assembled statement reads in the second pass is evaluated to the value it has in
the final symbol table, or to zero if it is external — whether it is used before or after its
definition. So the statement has the effect that it would have if the final table had been there
from the start. -/
theorem uses_have_final_value (options : Options) (statements : List Statement)
    (coherent : Coherent options statements)
    (defined : ∀ diagnostic ∈ (run options statements).diagnostics,
      diagnostic.kind ≠ .undefinedSymbol)
    {i : Nat} {statement : Statement} (found : statements[i]? = some statement)
    (assembles : (before options statements .two i).Assembles statement) :
    let state := before options statements .two i
    let decision := decided options statements .two i
    let final := (run options statements).symbols
    (∀ expr ∈ statement.evaluated options.listing, ∀ name ∈ expr.reads,
        some ((Expr.symbol name).evaluate (state.seen statement) state.here).value =
          (final.meaning name).value?) ∧
      effectOf options .two state statement decision =
        Effect.ofStatement (({ state with symbols := final } : State).env options .two) decision
          statement := by
  intro state decision final
  have known : ∀ expr ∈ statement.evaluated options.listing, ∀ name ∈ expr.reads,
      (state.seen statement).meaning name ≠ .undefined := by
    intro expr listed name read unknown
    exact defined _ (undefined_reported found assembles listed read unknown) rfl
  have same : ∀ expr ∈ statement.evaluated options.listing, ∀ name ∈ expr.reads,
      (state.seen statement).meaning name = final.meaning name :=
    fun expr listed name read => coherent.meaning_seen found assembles (known expr listed name read)
  constructor
  · intro expr listed name read
    rw [Expr.value_evaluate_symbol state.here (known expr listed name read),
      same expr listed name read]
  · exact Effect.ofStatement_congr final decision fun expr listed =>
      Expr.evaluate_congr state.here expr (same expr listed)

/-- A program whose names are used before and after they get their values:

        EXTRN PRINT
        JSR PRINT
        LDA LATER
  NEXT  EQU LATER+1
  LATER RTS
        LDX NEXT
-/
def usesAround : List Statement := [
  { position := ⟨1, 8⟩, operation := some (.directive .externals none)
    operandTokens := [⟨.symbol, "PRINT", ⟨1, 14⟩⟩] },
  { position := ⟨2, 8⟩
    operation := some (.instruction "JSR" (some ⟨.absolute, .symbol ⟨"PRINT"⟩⟩) []) },
  { position := ⟨3, 8⟩
    operation := some (.instruction "LDA" (some ⟨.absolute, .symbol ⟨"LATER"⟩⟩) []) },
  { position := ⟨4, 1⟩, label := some ⟨"NEXT"⟩
    operation := some
      (.directive .equ (some (.binary .add (.symbol ⟨"LATER"⟩) (.literal 1)))) },
  { position := ⟨5, 1⟩, label := some ⟨"LATER"⟩
    operation := some (.instruction "RTS" none []) },
  { position := ⟨6, 8⟩
    operation := some (.instruction "LDX" (some ⟨.absolute, .symbol ⟨"NEXT"⟩⟩) []) }]

/-- In `usesAround` the load of `LATER`, which stands before the definition, reads the final value. -/
theorem use_of_later_has_final_value :
    Coherent {} usesAround ∧
      (∀ diagnostic ∈ (run {} usesAround).diagnostics, diagnostic.kind ≠ .undefinedSymbol) ∧
      some ((Expr.symbol ⟨"LATER"⟩).evaluate ((before {} usesAround .two 2).seen usesAround[2])
        (before {} usesAround .two 2).here).value =
          ((run {} usesAround).symbols.meaning ⟨"LATER"⟩).value? ∧
      ((run {} usesAround).symbols.meaning ⟨"LATER"⟩).value? = some 6 := by
  have coherent : Coherent {} usesAround := by decide +kernel
  have defined : ∀ diagnostic ∈ (run {} usesAround).diagnostics,
      diagnostic.kind ≠ .undefinedSymbol := by decide +kernel
  have uses := uses_have_final_value {} usesAround coherent defined (i := 2) rfl (by decide +kernel)
  refine ⟨coherent, defined, uses.1 (.symbol ⟨"LATER"⟩) ?_ ⟨"LATER"⟩ ?_, ?_⟩
  · decide +kernel
  · decide +kernel
  · decide +kernel

end Assembly

end Asm6502
