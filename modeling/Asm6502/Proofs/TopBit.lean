import Asm6502.Proofs.Listed
import Asm6502.Proofs.Lockstep
import Asm6502.Proofs.Output

/-!
# The top bit of text

The setting of the top bit that a run starts with reaches nothing but the bytes of texts. Two runs
that start with different settings go through states that differ in the setting at most: an `MSB`
statement does not look at the setting, and the number of bytes of a text does not depend on it
(`step_msb`). The runs are compared by `Lockstep`, and the bytes of a statement agree in their low
seven bits, and agree wholly where they are not text (`Statement.SameText`). Text are all bytes of
`ASC`, `DCI` and `REV` statements, and those of an `STR` statement after its length byte;
`Assembly.textMarks` tells for each byte of the output whether it is text.
-/

namespace Asm6502

/-! ### Bytes of texts -/

/-- Setting the top bit leaves the low seven bits. -/
theorem or_top_and_low (b : UInt8) : (b ||| 0x80) &&& 0x7F = b &&& 0x7F := by
  apply UInt8.toBitVec_inj.mp
  rw [UInt8.toBitVec_and, UInt8.toBitVec_or, BitVec.and_or_distrib_right]
  simp

theorem withTopBit_and_low (on : Bool) (b : UInt8) : withTopBit on b &&& 0x7F = b &&& 0x7F := by
  cases on with
  | true => exact or_top_and_low b
  | false => rw [withTopBit, if_neg Bool.false_ne_true, UInt8.and_assoc, UInt8.and_self]

theorem map_low_withTopBit (on : Bool) (bytes : List UInt8) :
    (bytes.map (withTopBit on)).map (· &&& 0x7F) = bytes.map (· &&& 0x7F) := by
  rw [List.map_map]
  exact List.map_congr_left fun b _ => withTopBit_and_low on b

theorem map_low_markLast (bytes : List UInt8) :
    (markLast bytes).map (· &&& 0x7F) = bytes.map (· &&& 0x7F) := by
  rcases List.eq_nil_or_concat bytes with rfl | ⟨init, last, rfl⟩
  · rfl
  · simp [markLast, or_top_and_low]

namespace StringStyle

/-- The byte at index `j` in a style is text, and neither a length nor of a fixed kind. -/
def isTextByte (style : StringStyle) (j : Nat) : Bool :=
  match style with
  | .plain | .marked | .reversed => true
  | .counted => j != 0
  | .inverse | .flashing => false

variable (style : StringStyle) (msb msb' : Bool) (text : String)

theorem map_low_bytes :
    (style.bytes msb text).map (· &&& 0x7F) = (style.bytes msb' text).map (· &&& 0x7F) := by
  cases style with
  | plain => simp only [bytes, map_low_withTopBit]
  | marked => simp only [bytes, map_low_markLast, map_low_withTopBit]
  | counted => simp only [bytes, List.map_cons, List.length_map, map_low_withTopBit]
  | inverse => rfl
  | flashing => rfl
  | reversed => simp only [bytes, List.map_reverse, map_low_withTopBit]

theorem getElem?_bytes_of_not_text {j : Nat} (other : style.isTextByte j = false) :
    (style.bytes msb text)[j]? = (style.bytes msb' text)[j]? := by
  cases style with
  | plain | marked | reversed => cases other
  | counted =>
    obtain rfl : j = 0 := by simpa [isTextByte] using other
    simp [bytes]
  | inverse => rfl
  | flashing => rfl

end StringStyle

namespace Statement

/-- The byte at index `j` of the bytes that a statement produces is text. -/
def isTextByte (statement : Statement) (j : Nat) : Bool :=
  match statement.directive? with
  | some (.string style) => style.isTextByte j
  | _ => false

/-- The bytes of a statement are the same but for the top bits of text. -/
structure SameText (statement : Statement) (bytes bytes' : List UInt8) : Prop where
  /-- The low seven bits are the same. -/
  low : bytes.map (· &&& 0x7F) = bytes'.map (· &&& 0x7F)
  /-- Bytes that are not text are the same. -/
  rest : ∀ j : Nat, statement.isTextByte j = false → bytes[j]? = bytes'[j]?

theorem SameText.refl (statement : Statement) (bytes : List UInt8) :
    statement.SameText bytes bytes :=
  ⟨rfl, fun _ _ => rfl⟩

theorem SameText.length_eq {statement : Statement} {bytes bytes' : List UInt8}
    (same : statement.SameText bytes bytes') : bytes.length = bytes'.length := by
  simpa using congrArg List.length same.low

end Statement

/-! ### Effects -/

namespace Effect

variable (env : Env) (decided : Option Layout) (statement : Statement) (msb : Bool)

/-- Only a string directive looks at the setting of the top bit. -/
theorem ofStatement_msb_of_not_string
    (other : ∀ style, statement.directive? ≠ some (.string style)) :
    ofStatement { env with msb } decided statement = ofStatement env decided statement := by
  unfold ofStatement
  unfold Statement.directive? at other
  cases operation : statement.operation with
  | none => rfl
  | some operation' =>
    rw [operation] at other
    cases operation' with
    | instruction mnemonic operand unread => rfl
    | directive directive operand =>
      cases directive with
      | string style => exact absurd rfl (other style)
      | _ => rfl

/-- **What the setting of the top bit changes in an effect**: the top bits of text. -/
theorem ofStatement_msb :
    ofStatement { env with msb } decided statement =
        { ofStatement env decided statement with
          bytes := (ofStatement { env with msb } decided statement).bytes } ∧
      statement.SameText (ofStatement env decided statement).bytes
        (ofStatement { env with msb } decided statement).bytes := by
  by_cases written : ∃ style, statement.directive? = some (.string style)
  · obtain ⟨style, written⟩ := written
    obtain ⟨operand, operation⟩ := Statement.operation_of_directive? written
    simp only [ofStatement, operation, Effect.directive, string]
    cases statement.string? with
    | none => exact ⟨rfl, .refl _ _⟩
    | some text =>
      constructor
      · simp only [chunk, style.length_bytes_eq msb env.msb]
      · refine ⟨style.map_low_bytes env.msb msb text, fun j other => ?_⟩
        rw [Statement.isTextByte, written] at other
        exact style.getElem?_bytes_of_not_text env.msb msb text other
  · have other : ∀ style, statement.directive? ≠ some (.string style) :=
      fun style same => written ⟨style, same⟩
    rw [ofStatement_msb_of_not_string env decided statement msb other]
    exact ⟨rfl, .refl _ _⟩

end Effect

namespace Assembly

/-! ### Steps -/

/-- The states are the same but for the setting of the top bit. -/
def SameButMsb (first second : State) : Prop := ∃ msb, second = { first with msb }

theorem SameButMsb.part {α : Type} {first second : State} (same : SameButMsb first second)
    (part : State → α) (blind : ∀ state msb, part { state with msb } = part state) :
    part first = part second := by
  obtain ⟨msb, rfl⟩ := same
  exact (blind first msb).symm

/-- The reports on a statement are the same but for the top bits of text. -/
structure SameReport (statement : Statement) (report report' : Report) : Prop where
  layout : report.layout = report'.layout
  bytes : statement.SameText report.bytes report'.bytes
  relocations : report.relocations = report'.relocations
  diagnostics : report.diagnostics = report'.diagnostics

/-- Whether a name changes its value is told by the symbols alone. -/
theorem warnings_eq_of_symbols (first second : State) (same : first.symbols = second.symbols)
    (pass : Pass) (position : Position) (given : Option (Name × UInt16)) :
    (first.bind? pass position given).2 = (second.bind? pass position given).2 := by
  cases given with
  | none => rfl
  | some binding => simp only [State.bind?, State.bind, same]

theorem assembled_msb (options : Options) (pass : Pass) (state : State) (statement : Statement)
    (decided : Option Layout) (msb : Bool) :
    SameButMsb (assembled options pass state statement decided).1
        (assembled options pass { state with msb } statement decided).1 ∧
      SameReport statement (assembled options pass state statement decided).2
        (assembled options pass { state with msb } statement decided).2 := by
  obtain ⟨same, text⟩ := Effect.ofStatement_msb
    (({ state with symbols := state.seen statement } : State).env options pass) decided statement
    msb
  have effect : effectOf options pass { state with msb } statement decided =
      { effectOf options pass state statement decided with
        bytes := (effectOf options pass { state with msb } statement decided).bytes } := same
  rw [assembled_eq, assembled_eq]
  refine ⟨⟨(effectOf options pass state statement decided).msb.getD msb, ?_⟩, ?_⟩
  · rw [effect]
    rfl
  · constructor
    case layout => rw [effect]
    case bytes =>
      show statement.SameText (if pass = .two ∧ ¬ state.inDsect then _ else [])
        (if pass = .two ∧ ¬ state.inDsect then _ else [])
      split
      · exact text
      · exact .refl _ _
    case relocations => rw [effect]
    case diagnostics =>
      rw [effect]
      have warnings := warnings_eq_of_symbols state { state with msb } rfl pass statement.position
        (state.given pass statement)
      exact congrArg (· ++ _) warnings

/-- **What the setting of the top bit changes in a step**: the setting after it, and the top bits of
text. -/
theorem step_msb (options : Options) (pass : Pass) (state : State) (statement : Statement)
    (decided : Option Layout) (msb : Bool) :
    SameButMsb (step options pass state (statement, decided)).1
        (step options pass { state with msb } (statement, decided)).1 ∧
      SameReport statement (step options pass state (statement, decided)).2
        (step options pass { state with msb } (statement, decided)).2 := by
  rw [step_eq, step_eq]
  cases statement.role with
  | opens test operand => exact ⟨⟨msb, rfl⟩, rfl, .refl _ _, rfl, rfl⟩
  | turns => exact ⟨⟨msb, rfl⟩, rfl, .refl _ _, rfl, rfl⟩
  | closes => exact ⟨⟨msb, rfl⟩, rfl, .refl _ _, rfl, rfl⟩
  | plain =>
    cases enabled : state.conditions.enabled with
    | true =>
      simp only [if_true]
      exact assembled_msb options pass state statement decided msb
    | false =>
      simp only [Bool.false_eq_true, if_false]
      exact ⟨⟨msb, rfl⟩, rfl, .refl _ _, rfl, rfl⟩

/-! ### Runs -/

/-- Runs that start with different settings of the top bit differ in nothing but top bits of
text. -/
theorem lockstep_msb (options : Options) (msb : Bool) :
    Lockstep options { options with msb } SameButMsb Eq SameReport where
  start := ⟨msb, rfl⟩
  restart := by
    rintro first second ⟨_, rfl⟩
    exact ⟨msb, rfl⟩
  step := by
    rintro pass first second statement _ decided ⟨msb', rfl⟩ rfl
    exact step_msb options pass first statement decided msb'
  layout := SameReport.layout

/-- For each byte of the output, whether it is text. -/
def textMarks (options : Options) (statements : List Statement) : List Bool :=
  statements.zipIdx.flatMap fun item =>
    (List.range (visit options statements .two item.2 item.1).2.bytes.length).map
      item.1.isTextByte

/-- Parts of equal lengths that agree where a mark is `false`, one after another. -/
theorem getElem?_flatMap_of_mark {α β : Type} {items : List α} {first second : α → List β}
    {marks : α → List Bool}
    (length : ∀ item ∈ items, (first item).length = (second item).length ∧
      (marks item).length = (second item).length)
    (agree : ∀ item ∈ items, ∀ j : Nat, (marks item)[j]? = some false →
      (first item)[j]? = (second item)[j]?)
    {k : Nat} (mark : (items.flatMap marks)[k]? = some false) :
    (items.flatMap first)[k]? = (items.flatMap second)[k]? := by
  induction items generalizing k with
  | nil => rfl
  | cons item items ih =>
    obtain ⟨same, marked⟩ := length item List.mem_cons_self
    simp only [List.flatMap_cons, List.getElem?_append] at mark ⊢
    rw [same]
    rw [marked] at mark
    by_cases inside : k < (second item).length
    · rw [if_pos inside] at mark ⊢
      rw [if_pos inside]
      exact agree item List.mem_cons_self k mark
    · rw [if_neg inside] at mark ⊢
      rw [if_neg inside]
      exact ih (fun item listed => length item (List.mem_cons_of_mem _ listed))
        (fun item listed => agree item (List.mem_cons_of_mem _ listed)) mark

section Run

variable (options : Options) (statements : List Statement) (msb : Bool)

theorem visit_msb {item : Statement × Nat} (listed : item ∈ statements.zipIdx) :
    item.1.SameText (visit options statements .two item.2 item.1).2.bytes
      (visit { options with msb } statements .two item.2 item.1).2.bytes := by
  have found : statements[item.2]? = some item.1 := List.mk_mem_zipIdx_iff_getElem?.mp listed
  exact ((lockstep_msb options msb).visit (List.forall₂_refl _) .two found found).bytes

/-- The low seven bits of the output do not depend on the setting. -/
theorem map_low_bytes_run :
    (run options statements).bytes.map (· &&& 0x7F) =
      (run { options with msb } statements).bytes.map (· &&& 0x7F) := by
  rw [bytes_run_eq, bytes_run_eq, List.map_flatMap, List.map_flatMap]
  exact List.flatMap_congr fun item listed => (visit_msb options statements msb listed).low

theorem length_textMarks :
    (textMarks options statements).length = (run options statements).bytes.length := by
  rw [bytes_run_eq, textMarks, List.length_flatMap, List.length_flatMap]
  simp

/-- Bytes of the output that are not text do not depend on the setting. -/
theorem getElem?_bytes_run_of_mark {k : Nat}
    (mark : (textMarks options statements)[k]? = some false) :
    (run options statements).bytes[k]? = (run { options with msb } statements).bytes[k]? := by
  rw [bytes_run_eq, bytes_run_eq]
  refine getElem?_flatMap_of_mark (fun item listed => ?_) (fun item listed j mark => ?_) mark
  · have same := (visit_msb options statements msb listed).length_eq
    simp [same]
  · rw [List.getElem?_map] at mark
    obtain ⟨index, inside, other⟩ := Option.map_eq_some_iff.mp mark
    obtain ⟨_, here⟩ := List.getElem?_eq_some_iff.mp inside
    rw [← here, List.getElem_range] at other
    exact (visit_msb options statements msb listed).rest j other

/-- What is wrong with a program does not depend on the setting. -/
theorem diagnostics_run_msb :
    (run options statements).diagnostics = (run { options with msb } statements).diagnostics := by
  have lock := lockstep_msb options msb
  have same : List.Forall₂ Eq statements statements := List.forall₂_refl _
  have ending : closing (outcome options statements .two).1 =
      closing (outcome { options with msb } statements .two).1 :=
    (lock.outcome same .two).part closing fun _ _ => rfl
  rw [diagnostics_run, diagnostics_run, ending,
    lock.flatMap_reports same SameReport.diagnostics .one,
    lock.flatMap_reports same SameReport.diagnostics .two]

/-- Symbols, relocations and the names shared with other programs do not depend on the setting. -/
theorem names_run_msb :
    let first := run options statements
    let second := run { options with msb } statements
    first.symbols = second.symbols ∧ first.relocatable = second.relocatable ∧
      first.relocations = second.relocations ∧ first.externals = second.externals ∧
      first.entries = second.entries := by
  have lock := lockstep_msb options msb
  have same : List.Forall₂ Eq statements statements := List.forall₂_refl _
  have state := lock.outcome same .two
  exact ⟨state.part State.symbols fun _ _ => rfl, state.part State.relocatable fun _ _ => rfl,
    lock.flatMap_reports same SameReport.relocations .two,
    state.part State.externals fun _ _ => rfl, state.part State.entries fun _ _ => rfl⟩

end Run

end Assembly

/-- **The initial setting of the top bit touches only the top bits of text.** With the setting on
and with it off a source text assembles to equally many bytes; these agree in their low seven bits,
and in all bits where a byte is not text. Everything else but a listing is the same. -/
theorem assemble_msb (options : Options) (setting : Setting) (source : String) :
    let on := assemble { options with msb := true } setting source
    let off := assemble { options with msb := false } setting source
    let marks := Assembly.textMarks { options with msb := false } (setting.statements source)
    on.bytes.length = off.bytes.length ∧ marks.length = off.bytes.length ∧
      on.bytes.map (· &&& 0x7F) = off.bytes.map (· &&& 0x7F) ∧
      (∀ k : Nat, marks[k]? = some false → on.bytes[k]? = off.bytes[k]?) ∧
      on.symbols = off.symbols ∧ on.diagnostics = off.diagnostics ∧
      on.relocatable = off.relocatable ∧ on.relocations = off.relocations ∧
      on.externals = off.externals ∧ on.entries = off.entries := by
  intro on off marks
  obtain ⟨found, assembled⟩ := exists_assemble_eq setting source
  let plain : Options := { options with msb := false }
  have low : on.bytes.map (· &&& 0x7F) = off.bytes.map (· &&& 0x7F) := by
    simp only [on, off, assembled]
    exact (Assembly.map_low_bytes_run plain _ true).symm
  have length : on.bytes.length = off.bytes.length := by simpa using congrArg List.length low
  have marked : marks.length = off.bytes.length := by
    simp only [off, assembled]
    exact Assembly.length_textMarks plain _
  have text (k : Nat) (mark : marks[k]? = some false) : on.bytes[k]? = off.bytes[k]? := by
    simp only [on, off, assembled]
    exact (Assembly.getElem?_bytes_run_of_mark plain _ true mark).symm
  have diagnostics : on.diagnostics = off.diagnostics := by
    simp only [on, off, assembled]
    exact congrArg (found ++ ·) (Assembly.diagnostics_run_msb plain _ true).symm
  obtain ⟨symbols, relocatable, relocations, externals, entries⟩ :=
    Assembly.names_run_msb plain (setting.statements source) true
  refine ⟨length, marked, low, text, ?_, diagnostics, ?_⟩
  all_goals simp only [on, off, assembled]
  · exact symbols.symm
  · exact ⟨relocatable.symm, relocations.symm, externals.symm, entries.symm⟩

end Asm6502
