import Asm6502.Include
import Asm6502.Proofs.Definition
import Asm6502.Proofs.Evaluation
import Asm6502.Proofs.Lockstep
import Asm6502.Proofs.Numbering

/-!
# Assembly does not look at line numbers

A statement takes its line number to diagnostics, to the listing and to the definition of its label,
and nothing else depends on it. Two states are *alike* if they differ in the line numbers of
definitions only; alike states and statements that differ in line numbers only have the same effect
(`effectOf_alike`), so a step keeps them alike and reports the same up to line numbers
(`State.Alike.step`). A program therefore assembles to the same whatever its line numbers are
(`run_alike`), also if it includes files (`Include.expand_alike`).
-/

namespace Asm6502

/-! ### What carries line numbers -/

/-- The definition without its line number. -/
def Definition.unnumbered (definition : Definition) : Definition :=
  { definition with position := definition.position.unnumbered }

/-- The cause without the line number of an earlier definition. -/
def Cause.unnumbered : Cause → Cause
  | .redefined name value previous => .redefined name value previous.unnumbered
  | .macroRedefined name previous => .macroRedefined name previous.unnumbered
  | cause => cause

/-- The diagnostic without line numbers. -/
def Diagnostic.unnumbered (diagnostic : Diagnostic) : Diagnostic :=
  ⟨diagnostic.cause.unnumbered, diagnostic.position.map Position.unnumbered⟩

/-- The entry of a listing without its line number. -/
def Listing.Entry.unnumbered : Listing.Entry → Listing.Entry
  | .record statement => .record { statement with line := 0 }
  | entry => entry

/-- The report without line numbers. -/
def Assembly.Report.unnumbered (report : Report) : Report :=
  { report with
    diagnostics := report.diagnostics.map Diagnostic.unnumbered
    entry := report.entry.map Listing.Entry.unnumbered }

/-! ### Symbols -/

namespace SymbolTable

/-- The tables differ in the line numbers of definitions only. -/
structure Alike (first second : SymbolTable) : Prop where
  definitions : ∀ name, (first.definition? name).map Definition.unnumbered =
    (second.definition? name).map Definition.unnumbered
  externals : first.externals = second.externals

namespace Alike

variable {first second : SymbolTable}

theorem refl (table : SymbolTable) : table.Alike table := ⟨fun _ => rfl, rfl⟩

theorem values? (alike : first.Alike second) (name : Name) :
    (first.definition? name).map (·.value) = (second.definition? name).map (·.value) := by
  have same := congrArg (Option.map Definition.value) (alike.definitions name)
  rw [Option.map_map, Option.map_map] at same
  exact same

theorem isDefined (alike : first.Alike second) : first.isDefined = second.isDefined := by
  funext name
  have same := congrArg Option.isSome (alike.definitions name)
  rwa [Option.isSome_map, Option.isSome_map] at same

theorem meaning (alike : first.Alike second) (name : Name) :
    first.meaning name = second.meaning name := by
  have value := alike.values? name
  unfold SymbolTable.meaning
  rw [alike.externals]
  cases found : first.definition? name with
  | none =>
    rw [found] at value
    rw [Option.map_eq_none_iff.mp value.symm]
  | some definition =>
    rw [found] at value
    obtain ⟨other, found', same⟩ := Option.map_eq_some_iff.mp value.symm
    rw [found']
    exact congrArg Meaning.defined same.symm

/-- Names that get the same value at the same place but for the line keep tables alike. -/
theorem give (alike : first.Alike second) {position position' : Position}
    (same : position.unnumbered = position'.unnumbered) (given : Option (Name × UInt16)) :
    (first.give position given).Alike (second.give position' given) := by
  refine ⟨fun name => ?_, by simpa using alike.externals⟩
  rw [definition?_give, definition?_give]
  cases given with
  | none => exact alike.definitions name
  | some binding =>
    by_cases here : binding.1 = name
    · simp [here, Definition.unnumbered, same]
    · simpa [here] using alike.definitions name

theorem declareExternals (alike : first.Alike second) (names : List Name) :
    (names.foldl declareExternal first).Alike (names.foldl declareExternal second) := by
  induction names generalizing first second with
  | nil => exact alike
  | cons name names ih => exact ih ⟨alike.definitions, by simp [declareExternal, alike.externals]⟩

/-- A definition with a new value is one in both tables, with an earlier definition alike. -/
theorem redefinition (alike : first.Alike second) (name : Name) (value : UInt16) :
    first.redefinition name value = second.redefinition name value ∨
      ∃ previous previous', previous.unnumbered = previous'.unnumbered ∧
        first.redefinition name value = .changed previous ∧
        second.redefinition name value = .changed previous' := by
  have same := alike.definitions name
  have value' := alike.values? name
  unfold SymbolTable.redefinition
  cases found : first.definition? name with
  | none =>
    rw [found] at same
    rw [Option.map_eq_none_iff.mp same.symm]
    exact .inl rfl
  | some previous =>
    rw [found] at same value'
    obtain ⟨previous', found', alike'⟩ := Option.map_eq_some_iff.mp same.symm
    rw [found', Option.map_some, Option.map_some, Option.some.injEq] at value'
    rw [found']
    by_cases kept : previous.value = value
    · left
      simp [kept, ← value']
    · right
      exact ⟨previous, previous', alike'.symm, by simp [kept], by simp [kept, ← value']⟩

/-- Alike tables list the same values. -/
theorem values (alike : first.Alike second) : first.values = second.values := by
  have mapped (table : SymbolTable) :
      table.values = (table.definitions.map fun _ definition => definition.value).toList := by
    rw [Std.TreeMap.toList_map]
    rfl
  have same : (first.definitions.map fun _ definition => definition.value).Equiv
      (second.definitions.map fun _ definition => definition.value) := by
    refine Std.TreeMap.Equiv.of_forall_constGet?_eq fun name => ?_
    rw [Std.TreeMap.getElem?_map, Std.TreeMap.getElem?_map]
    exact alike.values? name
  rw [mapped, mapped, same.toList_eq]

/-- Alike tables are printed the same. -/
theorem render (alike : first.Alike second) : first.render = second.render := by
  have unresolved : first.unresolved = second.unresolved := by
    rw [SymbolTable.unresolved, SymbolTable.unresolved, alike.externals, alike.isDefined]
  rw [SymbolTable.render, SymbolTable.render, alike.values, unresolved]

end Alike

end SymbolTable

/-! ### Effects -/

namespace Statement

variable (statement : Statement)

@[simp] theorem role_unnumbered : statement.unnumbered.role = statement.role := by
  rw [← respelled_unnumbering, role_respelled]

@[simp] theorem equate?_unnumbered : statement.unnumbered.equate? = statement.equate? := by
  rw [← respelled_unnumbering, equate?_respelled]

@[simp] theorem locationLabel?_unnumbered :
    statement.unnumbered.locationLabel? = statement.locationLabel? := by
  rw [← respelled_unnumbering, locationLabel?_respelled]

end Statement

namespace Effect

variable (statement : Statement)

theorem hexText_unnumbered : hexText statement.unnumbered = hexText statement := by
  have kept : (unnumber statement.operandTokens).filter (·.kind != .comma) =
      unnumber (statement.operandTokens.filter (·.kind != .comma)) :=
    List.filter_map ..
  rw [hexText, Statement.operandTokens_unnumbered, kept, Token.joined_unnumbered, hexText]

theorem nameList_unnumbered : nameList statement.unnumbered = nameList statement := by
  rw [← Statement.respelled_unnumbering, nameList_respelled]

theorem valueList_unnumber (tokens : List Token) :
    Operand.valueList (unnumber tokens) = Operand.valueList tokens :=
  Operand.valueList_tokens unnumbering tokens

/-- **The effect of a statement does not depend on its line number.** -/
theorem ofStatement_unnumbered (env : Env) (decided : Option Layout) :
    ofStatement env decided statement.unnumbered = ofStatement env decided statement := by
  simp only [ofStatement, Statement.operation_unnumbered]
  cases statement.operation with
  | none => rfl
  | some operation =>
    cases operation with
    | instruction mnemonic operand unread =>
      simp only [Option.map_some, Operation.unnumbered, instruction, List.isEmpty_map,
        Statement.operandText_unnumbered]
    | directive word operand =>
      simp only [Option.map_some, Operation.unnumbered, directive, values, string, hex, setMsb,
        listing, Statement.label_unnumbered, Statement.operandTokens_unnumbered,
        valueList_unnumber, Statement.operandText_unnumbered,
        Statement.string?_unnumbered, Statement.stringOrText_unnumbered, hexText_unnumbered,
        nameList_unnumbered]

end Effect

namespace Assembly

/-- The states differ in the line numbers of definitions only. -/
structure State.Alike (first second : State) : Prop where
  symbols : first.symbols.Alike second.symbols
  rest : second = { first with symbols := second.symbols }

variable {options : Options} {pass : Pass} {first second : State}
  {statement statement' : Statement} {decided : Option Layout}

theorem State.Alike.here (alike : first.Alike second) : first.here = second.here := by
  rw [alike.rest]

/-- Expressions have the same value in alike states. -/
theorem State.Alike.evaluate (alike : first.Alike second) (expr : Expr) :
    expr.evaluate first.symbols first.here = expr.evaluate second.symbols second.here := by
  rw [← alike.here]
  exact Expr.evaluate_congr _ expr fun name _ => alike.symbols.meaning name

theorem position_alike (same : statement.unnumbered = statement'.unnumbered) :
    statement.position.unnumbered = statement'.position.unnumbered :=
  congrArg Statement.position same

/-- What does not depend on a line number is the same. -/
theorem eq_of_unnumbered {α : Type} {f : Statement → α}
    (blind : ∀ statement, f statement.unnumbered = f statement)
    (same : statement.unnumbered = statement'.unnumbered) : f statement = f statement' := by
  rw [← blind, same, blind]

theorem labelBinding_alike (alike : first.Alike second)
    (same : statement.unnumbered = statement'.unnumbered) :
    labelBinding first statement = labelBinding second statement' := by
  rw [labelBinding_eq, labelBinding_eq, eq_of_unnumbered Statement.locationLabel?_unnumbered same,
    alike.here]

theorem given_alike (alike : first.Alike second)
    (same : statement.unnumbered = statement'.unnumbered) :
    first.given pass statement = second.given pass statement' := by
  simp only [State.given, eq_of_unnumbered Statement.equate?_unnumbered same, alike.evaluate,
    labelBinding_alike alike same]

/-- **The same statement has the same effect in alike states.** -/
theorem effectOf_alike (alike : first.Alike second)
    (same : statement.unnumbered = statement'.unnumbered) :
    effectOf options pass first statement decided =
      effectOf options pass second statement' decided := by
  have seen : (first.seen statement).Alike (second.seen statement') := by
    rw [State.seen, State.seen, labelBinding_alike alike same]
    exact alike.symbols.give (position_alike same) _
  have env : (({ second with symbols := second.seen statement' } : State).env options pass) =
      { ({ first with symbols := first.seen statement } : State).env options pass with
        symbols := second.seen statement' } := by
    rw [alike.rest]
    rfl
  rw [effectOf, eq_of_unnumbered (fun other => Effect.ofStatement_unnumbered other _ _) same,
    effectOf, env]
  refine Effect.ofStatement_congr _ decided fun expr _ => ?_
  exact Expr.evaluate_congr _ expr fun name _ => seen.meaning name

/-! ### Reports -/

theorem found_alike (same : statement.unnumbered = statement'.unnumbered) (causes : List Cause) :
    (found pass statement causes).map Diagnostic.unnumbered =
      (found pass statement' causes).map Diagnostic.unnumbered := by
  cases pass with
  | one => rfl
  | two =>
    simp only [found, List.map_map, Function.comp_def, Diagnostic.unnumbered, Option.map_some,
      position_alike same]

theorem listed_alike (same : statement.unnumbered = statement'.unnumbered) (location : UInt16)
    (suppressed : Bool) (bytes : List UInt8) (value : Option UInt16) :
    (listed statement location suppressed bytes value).unnumbered =
      (listed statement' location suppressed bytes value).unnumbered := by
  have shown : (statement.operation.isSome || statement.label.isSome) =
      (statement'.operation.isSome || statement'.label.isSome) :=
    eq_of_unnumbered (f := fun statement => statement.operation.isSome || statement.label.isSome)
      (fun statement => by simp) same
  simp only [listed, Listing.Entry.unnumbered, shown,
    eq_of_unnumbered Statement.sourceText_unnumbered same]

theorem entryWhen_alike {entry entry' : Unit → Option Listing.Entry}
    (same : (entry ()).map Listing.Entry.unnumbered = (entry' ()).map Listing.Entry.unnumbered) :
    (entryWhen options pass entry).map Listing.Entry.unnumbered =
      (entryWhen options pass entry').map Listing.Entry.unnumbered := by
  unfold entryWhen
  split
  · exact same
  · rfl

theorem bind?_alike (alike : first.Alike second) {position position' : Position}
    (same : position.unnumbered = position'.unnumbered) (given : Option (Name × UInt16)) :
    (first.bind? pass position given).2.map Diagnostic.unnumbered =
      (second.bind? pass position' given).2.map Diagnostic.unnumbered := by
  cases given with
  | none => rfl
  | some binding =>
    obtain ⟨name, value⟩ := binding
    simp only [State.bind?, State.bind]
    cases pass with
    | two => rfl
    | one =>
      obtain equal | ⟨previous, previous', earlier, changed, changed'⟩ :=
        alike.symbols.redefinition name value
      · rw [equal]
        cases second.symbols.redefinition name value <;> simp [Diagnostic.unnumbered, same]
      · simp [changed, changed', Diagnostic.unnumbered, Cause.unnumbered, earlier, same]

/-! ### Steps -/

/-- The states are alike, and the reports are the same up to line numbers. -/
def SameOutcome (outcome outcome' : State × Report) : Prop :=
  outcome.1.Alike outcome'.1 ∧ outcome.2.unnumbered = outcome'.2.unnumbered

theorem turned_alike (alike : first.Alike second)
    (same : statement.unnumbered = statement'.unnumbered) (conditions : Conditions) (active : Bool)
    (causes : List Cause) :
    SameOutcome (turned options pass first statement conditions active causes)
      (turned options pass second statement' conditions active causes) := by
  have rest : ({ second with conditions } : State) =
      { ({ first with conditions } : State) with symbols := second.symbols } := by
    rw [alike.rest]
  refine ⟨⟨alike.symbols, rest⟩, ?_⟩
  simp only [turned, Report.unnumbered, found_alike same, ← alike.here]
  congr 1
  exact entryWhen_alike (congrArg some (listed_alike same _ _ _ _))

theorem skipped_alike (alike : first.Alike second)
    (same : statement.unnumbered = statement'.unnumbered) :
    SameOutcome (skipped options pass first statement)
      (skipped options pass second statement') := by
  refine ⟨alike, ?_⟩
  simp only [skipped, Report.unnumbered, ← alike.here]
  congr 1
  exact entryWhen_alike (congrArg some (listed_alike same _ _ _ _))

theorem assembledEntry_alike (same : statement.unnumbered = statement'.unnumbered) (here : UInt16)
    (effect : Effect) (bytes : List UInt8) :
    (assembledEntry statement here effect bytes).map Listing.Entry.unnumbered =
      (assembledEntry statement' here effect bytes).map Listing.Entry.unnumbered := by
  simp only [assembledEntry, eq_of_unnumbered Statement.directive?_unnumbered same]
  split
  · rfl
  · exact congrArg some (listed_alike same _ _ _ _)

theorem assembled_alike (alike : first.Alike second)
    (same : statement.unnumbered = statement'.unnumbered) :
    SameOutcome (assembled options pass first statement decided)
      (assembled options pass second statement' decided) := by
  have effect : effectOf options pass second statement' decided =
      effectOf options pass first statement decided := (effectOf_alike alike same).symm
  have given : second.given pass statement' = first.given pass statement :=
    (given_alike alike same).symm
  rw [assembled_eq, assembled_eq, effect, given]
  refine ⟨⟨?_, ?_⟩, ?_⟩
  · exact (alike.symbols.give (position_alike same) _).declareExternals _
  · rw [alike.rest]
    rfl
  · have inDsect : second.inDsect = first.inDsect := by rw [alike.rest]
    have relocatable : second.relocatable = first.relocatable := by rw [alike.rest]
    simp only [Report.unnumbered, List.map_append, inDsect, relocatable, ← alike.here,
      bind?_alike alike (position_alike same), found_alike same]
    congr 1
    exact entryWhen_alike (assembledEntry_alike same _ _ _)

/-- **A step does not look at line numbers**: it keeps states alike and reports the same. -/
theorem State.Alike.step (alike : first.Alike second)
    (same : statement.unnumbered = statement'.unnumbered) :
    SameOutcome (step options pass first (statement, decided))
      (step options pass second (statement', decided)) := by
  have conditions : second.conditions = first.conditions := by rw [alike.rest]
  rw [step_eq, step_eq, ← eq_of_unnumbered Statement.role_unnumbered same]
  cases statement.role with
  | opens test operand =>
    have value : (operand.map fun expr => ((second.env options pass).evaluate expr).value) =
        operand.map fun expr => ((first.env options pass).evaluate expr).value := by
      cases operand with
      | none => rfl
      | some expr => exact congrArg (fun e => some e.value) (alike.evaluate expr).symm
    have causes (expr : Expr) :
        (second.env options pass).problems expr = (first.env options pass).problems expr :=
      congrArg (Evaluation.problems · expr) (alike.evaluate expr).symm
    simp only [openBlock, conditions, value, causes]
    exact turned_alike alike same _ _ _
  | turns =>
    simp only [turnBlock, conditions]
    exact turned_alike alike same _ _ _
  | closes =>
    simp only [closeBlock, conditions]
    exact turned_alike alike same _ _ _
  | plain =>
    simp only [conditions]
    split
    · exact assembled_alike alike same
    · exact skipped_alike alike same

/-! ### Runs -/

/-- Runs of statements that differ in line numbers only go side by side. -/
theorem lockstep_unnumbered (options : Options) : Lockstep options options State.Alike
    (fun statement statement' => statement.unnumbered = statement'.unnumbered)
    fun _ report report' => report.unnumbered = report'.unnumbered where
  start := ⟨.refl _, rfl⟩
  restart alike := ⟨alike.symbols, rfl⟩
  step alike same := alike.step same
  layout same := (congrArg Report.layout same :)

end Assembly

/-! ### Artifacts -/

/-- Both artifacts have no listing, or their listings show the same entries up to line numbers and
the same symbol table. -/
def Artifact.SameListing (first second : Artifact) : Prop :=
  (first.listing = none ∧ second.listing = none) ∨
    ∃ entries entries' : List Listing.Entry,
      entries.map Listing.Entry.unnumbered = entries'.map Listing.Entry.unnumbered ∧
        first.listing = some ((Listing.ofEntries entries).render first.symbols) ∧
        second.listing = some ((Listing.ofEntries entries').render first.symbols)

/-- The artifacts differ in line numbers only. -/
structure Artifact.Alike (first second : Artifact) : Prop where
  bytes : first.bytes = second.bytes
  symbols : first.symbols.Alike second.symbols
  diagnostics : first.diagnostics.map Diagnostic.unnumbered =
    second.diagnostics.map Diagnostic.unnumbered
  relocatable : first.relocatable = second.relocatable
  relocations : first.relocations = second.relocations
  externals : first.externals = second.externals
  entries : first.entries = second.entries
  listing : first.SameListing second

namespace Assembly

/-- **A program assembles to the same whatever its line numbers are.** -/
theorem run_alike (options : Options) {statements statements' : List Statement}
    (same : statements.map Statement.unnumbered = statements'.map Statement.unnumbered) :
    (run options statements).Alike (run options statements') := by
  have lock := lockstep_unnumbered options
  have pairs := Lockstep.pairs_of_map_eq same
  have last := lock.outcome pairs .two
  have closings : closing (outcome options statements .two).1 =
      closing (outcome options statements' .two).1 := by
    rw [closing, closing, last.symbols.isDefined, last.rest]
  have diagnostics (pass : Pass) :
      ((outcome options statements pass).2.flatMap (·.diagnostics)).map Diagnostic.unnumbered =
        ((outcome options statements' pass).2.flatMap (·.diagnostics)).map
          Diagnostic.unnumbered := by
    rw [List.map_flatMap, List.map_flatMap]
    exact lock.flatMap_reports pairs (fun same => (congrArg Report.diagnostics same :)) pass
  have entries :
      ((outcome options statements .two).2.filterMap (·.entry)).map Listing.Entry.unnumbered =
        ((outcome options statements' .two).2.filterMap (·.entry)).map
          Listing.Entry.unnumbered := by
    have parts := congrArg (List.filterMap id)
      (lock.map_reports pairs (fun same => (congrArg Report.entry same :)) .two)
    rw [List.filterMap_map, List.filterMap_map] at parts
    rw [List.map_filterMap, List.map_filterMap]
    exact parts
  exact {
    bytes := lock.flatMap_reports pairs (fun same => (congrArg Report.bytes same :)) .two
    symbols := last.symbols
    diagnostics := by simp only [diagnostics_run, List.map_append, diagnostics, closings]
    relocatable := (congrArg State.relocatable last.rest).symm
    relocations :=
      lock.flatMap_reports pairs (fun same => (congrArg Report.relocations same :)) .two
    externals := (congrArg State.externals last.rest).symm
    entries := (congrArg State.entries last.rest).symm
    listing := by
      by_cases listing : options.listing = true
      · have printed (lines : Listing) :
            lines.render (outcome options statements' .two).1.symbols =
              lines.render (outcome options statements .two).1.symbols := by
          rw [Listing.render, Listing.render, last.symbols.render]
        exact .inr ⟨_, _, entries, if_pos listing,
          (if_pos listing).trans (congrArg some (printed _))⟩
      · exact .inl ⟨if_neg listing, if_neg listing⟩ }

end Assembly

/-! ### Included files -/

namespace Include

variable (tree : FileTree) (base : String) (branch : List Location)

theorem target?_unnumbered (statement : Statement) :
    target? statement.unnumbered = target? statement := by
  simp only [target?, Statement.string?_unnumbered, Statement.operandText_unnumbered]

/-- Statements that differ in line numbers only are replaced by the same statements, up to line
numbers: an included file is read in the same way. -/
theorem expandStatement_alike {statement statement' : Statement}
    (same : statement.unnumbered = statement'.unnumbered) :
    (expandStatement tree base branch statement).1.map Statement.unnumbered =
        (expandStatement tree base branch statement').1.map Statement.unnumbered ∧
      (expandStatement tree base branch statement).2.map Diagnostic.unnumbered =
        (expandStatement tree base branch statement').2.map Diagnostic.unnumbered := by
  have failed (cause : Cause) :
      Diagnostic.unnumbered ⟨cause, some statement.position⟩ =
        Diagnostic.unnumbered ⟨cause, some statement'.position⟩ := by
    simp only [Diagnostic.unnumbered, Option.map_some, Assembly.position_alike same]
  rw [expandStatement, expandStatement,
    ← Assembly.eq_of_unnumbered Statement.directive?_unnumbered same,
    ← Assembly.eq_of_unnumbered target?_unnumbered same]
  by_cases other : statement.directive? ≠ some .includeFile
  · simp only [if_pos other, List.map_cons, same, List.map_nil, and_self]
  · simp only [if_neg other]
    cases target? statement with
    | none => exact ⟨rfl, congrArg (fun d => [d]) (failed _)⟩
    | some name =>
      simp only
      cases tree.locate (Path.join base name) with
      | error error => exact ⟨rfl, congrArg (fun d => [d]) (failed _)⟩
      | ok location =>
        simp only
        split
        · exact ⟨rfl, congrArg (fun d => [d]) (failed _)⟩
        · split
          · exact ⟨rfl, congrArg (fun d => [d]) (failed _)⟩
          · exact ⟨rfl, rfl⟩

/-- Include statements are replaced without a look at line numbers. -/
theorem expand_alike {statements statements' : List Statement}
    (same : statements.map Statement.unnumbered = statements'.map Statement.unnumbered) :
    (expand tree base branch statements).1.map Statement.unnumbered =
        (expand tree base branch statements').1.map Statement.unnumbered ∧
      (expand tree base branch statements).2.map Diagnostic.unnumbered =
        (expand tree base branch statements').2.map Diagnostic.unnumbered := by
  induction statements generalizing statements' with
  | nil =>
    obtain rfl := List.map_eq_nil_iff.mp same.symm
    exact ⟨rfl, rfl⟩
  | cons statement statements ih =>
    obtain ⟨statement', rest', rfl, sameFirst, sameRest⟩ := List.map_eq_cons_iff.mp same.symm
    obtain ⟨first, firstFound⟩ := expandStatement_alike tree base branch sameFirst.symm
    obtain ⟨rest, restFound⟩ := ih sameRest.symm
    simp only [expand_cons, List.map_append, first, firstFound, rest, restFound, and_self]

end Include

end Asm6502
