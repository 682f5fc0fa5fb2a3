import Asm6502.Proofs.Selection

/-!
# Dummy sections

A dummy section is assembled like the rest of a program: it moves the location counter, gives names
their values and is checked for errors. Only its bytes and its relocations do not go to the output
(`run_dummy_section`).

Of the dummy section a step reads no more than whether to put out what the statement produces. So a
statement does in a dummy section what it does outside, up to its output (`step_inside`), and so
does a list of statements (`trace_inside`). The two lines of the section report nothing and change
nothing else (`step_of_section`), which leaves the program without them in the same state.
-/

namespace Asm6502

namespace Statement

/-- What the statement makes of the dummy section: it opens one, or closes it, or does neither. -/
def section? (statement : Statement) : Option Bool :=
  match statement.directive? with
  | some .dsect => some true
  | some .dend => some false
  | _ => none

theorem directive?_of_section? {statement : Statement} {dsect : Bool}
    (line : statement.section? = some dsect) :
    statement.directive? = some (if dsect then .dsect else .dend) := by
  unfold section? at line
  split at line
  · rename_i opens
    rw [opens, ← Option.some.inj line]
    rfl
  · rename_i closes
    rw [closes, ← Option.some.inj line]
    rfl
  · cases line

end Statement

namespace Effect

/-- Only the two lines of a dummy section open and close it. -/
theorem dsect_ofStatement (env : Env) (decided : Option Layout) (statement : Statement) :
    (ofStatement env decided statement).dsect = statement.section? := by
  unfold ofStatement Statement.section? Statement.directive?
  cases statement.operation with
  | none => rfl
  | some operation =>
    cases operation with
    | instruction mnemonic operand unread => exact (onlyCode_instruction ..).dsect
    | directive directive operand =>
      cases directive with
      | org | reserve | equ =>
        cases operand with
        | none => rfl
        | some expr =>
          simp only [Effect.directive, equate]
          cases statement.label <;> rfl
      | string style => exact (onlyCode_string ..).dsect
      | hex => exact (onlyCode_hex _).dsect
      | msb =>
        simp only [Effect.directive, setMsb]
        split <;> rfl
      | listing control =>
        simp only [Effect.directive, listing]
        split <;> rfl
      | _ => rfl

end Effect

namespace Assembly

/-! ### Steps in a dummy section -/

/-- The same state with a dummy section open or not. -/
def State.inside (state : State) (dsect : Bool) : State := { state with inDsect := dsect }

/-- A report without what goes to the output. -/
def Report.masked (report : Report) : Report := { report with bytes := [], relocations := [] }

variable {options : Options} {pass : Pass} {state : State} {statement : Statement}
  {decided : Option Layout}

theorem dsect_effectOf :
    (effectOf options pass state statement decided).dsect = statement.section? :=
  Effect.dsect_ofStatement ..

/-- An assembled line of a dummy section opens or closes it; any other statement leaves it. -/
theorem inDsect_step :
    (step options pass state (statement, decided)).1.inDsect =
      if state.Assembles statement then statement.section?.getD state.inDsect
      else state.inDsect := by
  by_cases assembles : state.Assembles statement
  · rw [step_of_assembles assembles, assembled_eq, if_pos assembles, ← dsect_effectOf]
    rfl
  · rw [step_of_not_assembles assembles, if_neg assembles]

theorem assembled_inside (unlisted : options.listing = false) (free : statement.section? = none) :
    assembled options pass (state.inside true) statement decided =
      ((assembled options pass state statement decided).1.inside true,
        (assembled options pass state statement decided).2.masked) := by
  have effect : effectOf options pass (state.inside true) statement decided =
      effectOf options pass state statement decided := rfl
  have dsect : (effectOf options pass state statement decided).dsect = none :=
    dsect_effectOf.trans free
  have given : (state.inside true).given pass statement = state.given pass statement := rfl
  rw [assembled_eq, assembled_eq, effect, given]
  refine Prod.ext ?_ ?_
  · simp only [State.apply, State.inside, dsect, Option.getD_none]
  · simp only [Report.masked, State.inside, entryWhen_of_unlisted unlisted]
    cases state.given pass statement <;> simp [State.bind?, State.bind]

/-- A statement does in a dummy section what it does outside, without output. -/
theorem step_inside (unlisted : options.listing = false) (free : statement.section? = none) :
    step options pass (state.inside true) (statement, decided) =
      ((step options pass state (statement, decided)).1.inside true,
        (step options pass state (statement, decided)).2.masked) := by
  rw [step_eq, step_eq]
  cases statement.role with
  | opens test operand => rfl
  | turns => rfl
  | closes => rfl
  | plain =>
    by_cases enabled : state.conditions.enabled = true
    · have enabled' : (state.inside true).conditions.enabled = true := enabled
      simp only [if_pos enabled, if_pos enabled']
      exact assembled_inside unlisted free
    · have disabled : ¬ (state.inside true).conditions.enabled = true := enabled
      simp only [if_neg enabled, if_neg disabled]
      rfl

/-- A line of a dummy section without a label opens or closes the section and does nothing else. -/
theorem step_of_section (unlisted : options.listing = false)
    (enabled : state.conditions.enabled = true) {dsect : Bool}
    (line : statement.section? = some dsect) (unlabelled : statement.label = none) :
    step options pass state (statement, decided) = (state.inside dsect, {}) := by
  obtain ⟨operand, operation⟩ :=
    Statement.operation_of_directive? (Statement.directive?_of_section? line)
  have plain : statement.role = .plain := by
    cases dsect <;> simp [Statement.role, operation]
  have given : state.given pass statement = none := by
    cases dsect <;>
      simp [State.given, Statement.equate?, labelBinding, operation, unlabelled]
  have effect : effectOf options pass state statement decided = { dsect := some dsect } := by
    cases dsect <;> simp [effectOf, Effect.ofStatement, operation, Effect.directive]
  rw [step_of_assembles ⟨plain, enabled⟩, assembled_eq, given, effect]
  simp [State.apply, State.inside, State.bind?, addNames, relocations,
    entryWhen_of_unlisted unlisted]

/-! ### Lists in a dummy section -/

section Lists

variable {items : List (Statement × Option Layout)}

theorem inDsect_trace (free : ∀ item ∈ items, item.1.section? = none) (state : State) :
    (trace (step options pass) state items).1.inDsect = state.inDsect := by
  induction items generalizing state with
  | nil => rfl
  | cons item items ih =>
    obtain ⟨statement, decided⟩ := item
    have first : statement.section? = none := free (statement, decided) List.mem_cons_self
    have rest : ∀ item ∈ items, item.1.section? = none :=
      fun item mem => free item (List.mem_cons_of_mem _ mem)
    rw [trace_cons, ih rest, inDsect_step, first, Option.getD_none, ite_self]

/-- Statements do in a dummy section what they do outside, without output. -/
theorem trace_inside (unlisted : options.listing = false)
    (free : ∀ item ∈ items, item.1.section? = none) (state : State) :
    trace (step options pass) (state.inside true) items =
      ((trace (step options pass) state items).1.inside true,
        (trace (step options pass) state items).2.map Report.masked) := by
  induction items generalizing state with
  | nil => rfl
  | cons item items ih =>
    obtain ⟨statement, decided⟩ := item
    have first : statement.section? = none := free (statement, decided) List.mem_cons_self
    have rest : ∀ item ∈ items, item.1.section? = none :=
      fun item mem => free item (List.mem_cons_of_mem _ mem)
    rw [trace_cons, trace_cons, step_inside unlisted first, ih rest, List.map_cons]

end Lists

/-! ### Programs with a dummy section -/

/-- The lines `dsect` and `dend`, without labels, open and close a dummy section around `body`,
below `above`: there are no other lines of dummy sections in these lists, and all conditional blocks
that they open are closed in them. -/
structure DummySection (above body : List Statement) (dsect dend : Statement) : Prop where
  opens : dsect.directive? = some .dsect
  closes : dend.directive? = some .dend
  unlabelled : dsect.label = none ∧ dend.label = none
  free : ∀ statement ∈ above ++ body, statement.section? = none
  balanced_above : Balanced above
  balanced_body : Balanced body

namespace DummySection

variable {above body : List Statement} {dsect dend : Statement}

/-- What stands above the section leads to a state outside all blocks and sections. -/
theorem reaches (dummy : DummySection above body dsect dend) :
    Reaches options State.Straight above := by
  intro pass symbols items statements
  subst statements
  have free : ∀ item ∈ items, item.1.section? = none := fun item mem =>
    dummy.free item.1 (List.mem_append_left _ (List.mem_map_of_mem mem))
  constructor
  · rw [conditions_of_balanced options pass dummy.balanced_above]
    rfl
  · rw [inDsect_trace free]
    rfl

/-- The whole section leads to the state that its statements alone lead to, and reports what they
report but for the output. -/
theorem frames (dummy : DummySection above body dsect dend) (unlisted : options.listing = false) :
    Frames options [dsect] body [dend] State.Straight Report.masked := by
  intro pass state first second third straight hfirst hsecond hthird
  obtain ⟨enabled, outside⟩ := straight
  subst hsecond
  let alone := trace (step options pass) state second
  have free : ∀ item ∈ second, item.1.section? = none := fun item mem =>
    dummy.free item.1 (List.mem_append_right _ (List.mem_map_of_mem mem))
  have enabled' : (alone.1.inside true).conditions.enabled = true := by
    show alone.1.conditions.enabled = true
    rw [conditions_of_balanced options pass dummy.balanced_body state]
    exact enabled
  have outside' : (alone.1.inside true).inside false = alone.1 := by
    have still : alone.1.inDsect = false := (inDsect_trace free state).trans outside
    show { alone.1 with inDsect := false } = alone.1
    rw [← still]
  have opening : trace (step options pass) state first =
      (state.inside true, quiet first.length) :=
    trace_line hfirst fun _ => step_of_section unlisted enabled
      (by rw [Statement.section?, dummy.opens]) dummy.unlabelled.1
  have closing : trace (step options pass) (alone.1.inside true) third =
      ((alone.1.inside true).inside false, quiet third.length) :=
    trace_line hthird fun _ => step_of_section unlisted enabled'
      (by rw [Statement.section?, dummy.closes]) dummy.unlabelled.2
  rw [trace_append, trace_append, opening, trace_inside unlisted free, closing, outside']

end DummySection

theorem flatMap_masked {α : Type} {part : Report → List α}
    (silent : ∀ report : Report, part report.masked = []) (reports : List Report) :
    (reports.map Report.masked).flatMap part = [] := by
  simp [List.flatMap_map, silent]

theorem flatMap_diagnostics_masked (reports : List Report) :
    (reports.map Report.masked).flatMap (·.diagnostics) = reports.flatMap (·.diagnostics) := by
  simp [List.flatMap_map, Report.masked]

/-- **A dummy section only masks output**: without a listing, a program with a dummy section
assembles to what it assembles to without the two lines of the section, with the bytes and the
relocations of the statements in the section left out. -/
theorem run_dummy_section (options : Options) (unlisted : options.listing = false)
    (above body below : List Statement) (dsect dend : Statement)
    (dummy : DummySection above body dsect dend) :
    let plain := run options (above ++ body ++ below)
    ∃ front middle back : List Report,
      (outcome options (above ++ body ++ below) .two).2 = front ++ middle ++ back ∧
      front.length = above.length ∧ middle.length = body.length ∧
      plain.bytes =
        front.flatMap (·.bytes) ++ middle.flatMap (·.bytes) ++ back.flatMap (·.bytes) ∧
      plain.relocations =
        front.flatMap (·.relocations) ++ middle.flatMap (·.relocations) ++
          back.flatMap (·.relocations) ∧
      run options (above ++ [dsect] ++ body ++ [dend] ++ below) =
        { plain with
          bytes := front.flatMap (·.bytes) ++ back.flatMap (·.bytes)
          relocations := front.flatMap (·.relocations) ++ back.flatMap (·.relocations) } := by
  intro plain
  obtain ⟨first, reports₁, reports₂, reports₃, length₁, length₂, one, one'⟩ :=
    (dummy.frames unlisted).passOne_eq dummy.reaches below
  obtain ⟨final, front, middle, back, count₁, count₂, two, two'⟩ :=
    (dummy.frames unlisted).passAfter_eq (fun _ => rfl) dummy.reaches below first reports₃ length₁
      length₂
  have reports : (outcome options (above ++ body ++ below) .two).2 = front ++ middle ++ back := by
    show (passAfter options (passOne options _) _).2 = _
    rw [one, two]
  refine ⟨front, middle, back, reports, count₁, count₂, ?_, ?_, ?_⟩
  · simp only [plain, run, one, two, List.flatMap_append]
  · simp only [plain, run, one, two, List.flatMap_append]
  · have nested : above ++ [dsect] ++ body ++ [dend] ++ below =
        above ++ ([dsect] ++ body ++ [dend]) ++ below := by
      simp only [List.append_assoc]
    rw [nested]
    simp only [plain, run, one, two, one', two', unlisted, List.flatMap_append, flatMap_quiet,
      flatMap_diagnostics_masked, List.nil_append, List.append_nil]
    rw [flatMap_masked fun _ => rfl, flatMap_masked fun _ => rfl]
    simp

/-- The statements of a dummy section, with a label that the program around it uses:

  FIELD JMP START
        DO 1
        DS 3
        FIN
-/
def fieldSection : List Statement := [
  { position := ⟨4, 1⟩, label := some ⟨"FIELD"⟩
    operation := some (.instruction "JMP" (some ⟨.absolute, .symbol ⟨"START"⟩⟩) []) },
  { position := ⟨5, 8⟩, operation := some (.directive (.opener .holds) (some (.literal 1))) },
  { position := ⟨6, 8⟩, operation := some (.directive .reserve (some (.literal 3))) },
  { position := ⟨7, 8⟩, operation := some (.directive .fin none) }]

/-- In a relocatable program `fieldSection` leaves out six bytes and a relocation; the names and the
addresses around it are those of the program without the lines of the section. -/
theorem run_dummy_section_fieldSection :
    let above : List Statement := [
      { position := ⟨1, 8⟩, operation := some (.directive .rel none) },
      { position := ⟨2, 1⟩, label := some ⟨"START"⟩
        operation := some (.instruction "JMP" (some ⟨.absolute, .symbol ⟨"FIELD"⟩⟩) []) }]
    let dsect : Statement := { position := ⟨3, 8⟩, operation := some (.directive .dsect none) }
    let dend : Statement := { position := ⟨8, 8⟩, operation := some (.directive .dend none) }
    let below : List Statement := [
      { position := ⟨9, 8⟩
        operation := some (.instruction "JSR" (some ⟨.absolute, .symbol ⟨"FIELD"⟩⟩) []) }]
    let plain := run {} (above ++ fieldSection ++ below)
    let masked := run {} (above ++ [dsect] ++ fieldSection ++ [dend] ++ below)
    DummySection above fieldSection dsect dend ∧
      masked.symbols = plain.symbols ∧ masked.diagnostics = plain.diagnostics ∧
      plain.bytes = [0x4C, 3, 0, 0x4C, 0, 0, 0, 0, 0, 0x20, 3, 0] ∧
      masked.bytes = [0x4C, 3, 0, 0x20, 3, 0] ∧
      plain.relocations = [⟨1, 2⟩, ⟨4, 2⟩, ⟨10, 2⟩] ∧
      masked.relocations = [⟨1, 2⟩, ⟨10, 2⟩] := by
  intro above dsect dend below plain masked
  have dummy : DummySection above fieldSection dsect dend :=
    ⟨rfl, rfl, ⟨rfl, rfl⟩, by decide, by decide, by decide⟩
  obtain ⟨front, middle, back, -, -, -, -, -, same⟩ :=
    run_dummy_section {} rfl above fieldSection below dsect dend dummy
  have symbols : masked.symbols = plain.symbols := congrArg (·.symbols) same
  have diagnostics : masked.diagnostics = plain.diagnostics := congrArg (·.diagnostics) same
  exact ⟨dummy, symbols, diagnostics, by decide +kernel⟩

end Assembly

end Asm6502
