import Asm6502.Proofs.Contract
import Asm6502.Proofs.Relocation

/-!
# Labels in the zero page

An instruction with an absolute operand takes the zero-page mode if the mnemonic has it and the
operand is known to fit a byte. This is decided where the statement is assembled first
(`choosingPass`), and it is not taken back in a relocatable program: a label below 256 is an address
of the zero page even if the program can be loaded elsewhere. Its instructions then have one operand
byte, and no relocation (`narrowed_label_unrecorded`).

`label_operand_encoded` says when this happens. An operand that is a bare label is narrowed exactly
if the mnemonic has the zero-page mode and the last label of that name, on the statement or before
it, stands below 256; so it never is if the label only follows. An operand that is not narrowed is
encoded in two bytes, and the relocation of these two bytes is recorded.
-/

namespace Asm6502

/-! ### The mode of an absolute operand -/

private theorem Opcode.isBranch_of_absolute :
    ∀ opcode ∈ Opcode.table, opcode.supports .absolute = true → opcode.isBranch = false := by
  decide +kernel

/-- An absolute operand of a mnemonic with the absolute mode has that mode, or the zero-page mode if
it is narrow and the mnemonic has it. -/
theorem Encode.selectMode_absolute {opcode : Opcode} (listed : opcode ∈ Opcode.table)
    (supported : opcode.supports .absolute = true) (narrow : Bool) :
    selectMode opcode (some .absolute) narrow =
      .ok (if opcode.supports .zeroPage && narrow then .zeroPage else .absolute) := by
  have straight := Opcode.isBranch_of_absolute opcode listed supported
  unfold selectMode formMode? absoluteMode? firstMode?
  cases narrow with
  | false => simp [straight, supported]
  | true =>
    cases short : opcode.supports .zeroPage with
    | false => simp [straight, supported, short, Mode.zeroPageForm?]
    | true => simp [straight, short, Mode.zeroPageForm?]

/-- A bare name is narrow if it has a definition below 256. -/
theorem Effect.isNarrow_symbol {symbols : SymbolTable} {here : UInt16} {name : Name} :
    isNarrow ((Expr.symbol name).evaluate symbols here) = true ↔
      ∃ address, symbols.meaning name = .defined address ∧ address ≤ 0xFF := by
  simp only [Expr.evaluate]
  cases symbols.meaning name with
  | defined address => simp [isNarrow, Evaluation.isDefined]
  | external => simp [isNarrow]
  | undefined => simp [isNarrow, Evaluation.isDefined]

theorem Effect.memoryExpr?_absolute (opcode : Opcode) (expr : Expr) :
    memoryExpr? opcode (some ⟨.absolute, expr⟩) = some expr := by
  simp [memoryExpr?, memoryOperand?]

/-- An instruction with an absolute operand whose mode is known: the opcode byte, and the bytes of
the value in that mode. -/
theorem Effect.instruction_absolute (env : Env) (statement : Statement) {decided : Option Layout}
    {mnemonic : String} {opcode : Opcode} {expr : Expr} {mode : Mode} {byte : UInt8}
    (known : Opcode.find? mnemonic = some opcode)
    (chosen : instructionMode opcode decided (some ⟨.absolute, expr⟩) (some (env.evaluate expr)) =
      .ok mode)
    (encoding : opcode.encoding? mode = some byte) :
    (instruction env decided statement mnemonic (some ⟨.absolute, expr⟩) []).bytes =
        byte :: Encode.operandBytes mode (some .absolute) env.here (env.evaluate expr).value ∧
      (instruction env decided statement mnemonic (some ⟨.absolute, expr⟩) []).fixups =
        instructionFixups mode (some ⟨.absolute, expr⟩) := by
  have choice : instructionMode opcode decided (some ⟨.absolute, expr⟩)
      ((memoryExpr? opcode (some ⟨.absolute, expr⟩)).map env.evaluate) = .ok mode := by
    rw [memoryExpr?_absolute]
    exact chosen
  rw [instruction_of_ok known choice, operandValue, memoryExpr?_absolute]
  unfold encoded
  rw [encoding]
  exact ⟨rfl, rfl⟩

namespace Assembly

section Passes

variable (options : Options) (statements : List Statement)

/-- The pass that chooses the mode of the statement at index `i`: the first one that assembles
it. -/
def choosingPass (i : Nat) (statement : Statement) : Pass :=
  if (before options statements .one i).Assembles statement then .one else .two

/-- A bare name as the absolute operand of a statement is narrowed: the mnemonic has the zero-page
mode, and the name is below 256 where the mode is chosen. -/
def Narrows (i : Nat) (statement : Statement) (opcode : Opcode) (name : Name) : Prop :=
  opcode.supports .zeroPage = true ∧
    ∃ address, ((before options statements (choosingPass options statements i statement) i).seen
      statement).meaning name = .defined address ∧ address ≤ 0xFF

end Passes

variable {options : Options} {statements : List Statement} {pass : Pass} {i k : Nat}
  {statement : Statement} {mnemonic : String} {opcode : Opcode} {name : Name}

/-! ### Where the mode is chosen -/

theorem narrows_iff :
    Narrows options statements i statement opcode name ↔
      (opcode.supports .zeroPage && Effect.isNarrow ((Expr.symbol name).evaluate
        ((before options statements (choosingPass options statements i statement) i).seen statement)
        (before options statements (choosingPass options statements i statement) i).here)) =
        true := by
  rw [Bool.and_eq_true, Effect.isNarrow_symbol]
  rfl

/-- The second pass encodes the instruction in the mode that was chosen first. -/
theorem instructionMode_decided (options : Options) (found : statements[i]? = some statement)
    (operation : statement.operation =
      some (.instruction mnemonic (some ⟨.absolute, .symbol name⟩) []))
    (known : Opcode.find? mnemonic = some opcode) (supported : opcode.supports .absolute = true) :
    Effect.instructionMode opcode (decided options statements .two i)
        (some ⟨.absolute, .symbol name⟩)
        (some ((Expr.symbol name).evaluate ((before options statements .two i).seen statement)
          (before options statements .two i).here)) =
      .ok (if opcode.supports .zeroPage && Effect.isNarrow ((Expr.symbol name).evaluate
          ((before options statements (choosingPass options statements i statement) i).seen
            statement)
          (before options statements (choosingPass options statements i statement) i).here)
        then .zeroPage else .absolute) := by
  have listed := (Opcode.find?_eq_some known).1
  by_cases assembles : (before options statements .one i).Assembles statement
  · -- the first pass handed its choice on
    rw [choosingPass, if_pos assembles, decided_two found, visit, decided_one,
      step_of_assembles assembles, assembled_eq]
    simp only [effectOf_instruction operation]
    rw [Effect.instruction_of_ok known (by
      rw [Effect.memoryExpr?_absolute]
      exact Encode.selectMode_absolute listed supported _), Effect.layout_encoded]
    rfl
  · rw [choosingPass, if_neg assembles, decided_two found, visit,
      (report_of_not_assembles assembles).1]
    exact Encode.selectMode_absolute listed supported _

/-- An instruction that puts bytes into the output has no tokens left after its operand. -/
theorem unread_eq_nil_of_emits {operand : Option Operand} {unread : List Token}
    (operation : statement.operation = some (.instruction mnemonic operand unread))
    (known : Opcode.find? mnemonic = some opcode)
    (emits : (visit options statements .two i statement).2.bytes ≠ []) : unread = [] := by
  cases unread with
  | nil => rfl
  | cons token unread =>
    rw [visit, (assembles_of_emits emits).2, effectOf_instruction operation,
      Effect.instruction_of_unread known] at emits
    exact absurd rfl emits

/-! ### Bytes and relocations -/

/-- In a program that starts with `REL`, every statement but the first is after a link. -/
theorem linkedBefore_of_rel {link : Statement} (first : statements[0]? = some link)
    (rel : link.directive? = some .rel) (pos : 0 < i) : LinkedBefore options statements i := by
  obtain ⟨operand, operation⟩ := Statement.operation_of_directive? rel
  refine ⟨0, link, pos, first, ⟨?_, ?_⟩, ?_⟩
  · simp [Statement.role, operation]
  · rw [before_zero]
    rfl
  · simp [Statement.makesRelocatable, rel, Directive.makesRelocatable]

/-- What the second pass puts out for an instruction after a link, with an absolute operand and a
known mode. -/
theorem visit_of_instructionMode {expr : Expr} {mode : Mode} {byte : UInt8}
    (inside : i < statements.length)
    (operation : statement.operation = some (.instruction mnemonic (some ⟨.absolute, expr⟩) []))
    (known : Opcode.find? mnemonic = some opcode)
    (emits : (visit options statements .two i statement).2.bytes ≠ [])
    (linked : LinkedBefore options statements i)
    (chosen : Effect.instructionMode opcode (decided options statements .two i)
      (some ⟨.absolute, expr⟩)
      (some (expr.evaluate ((before options statements .two i).seen statement)
        (before options statements .two i).here)) = .ok mode)
    (encoding : opcode.encoding? mode = some byte) :
    (visit options statements .two i statement).2.bytes =
        byte :: Encode.operandBytes mode (some .absolute) (before options statements .two i).here
          ((before options statements .two i).value statement expr) ∧
      (visit options statements .two i statement).2.relocations =
        relocations (before options statements .two i).here
          (Effect.instructionFixups mode (some ⟨.absolute, expr⟩)) := by
  obtain ⟨assembles, outside⟩ := outside_of_emits emits
  have relocatable := (relocatable_before_iff (Nat.le_of_lt inside)).mpr linked
  rw [relocations_visit, recorded, if_pos ⟨assembles, outside, relocatable⟩, visit,
    (assembles_of_emits emits).2, effectOf_instruction operation]
  obtain ⟨bytes, fixups⟩ := Effect.instruction_absolute
    (({ before options statements .two i with
      symbols := (before options statements .two i).seen statement } : State).env options .two)
    statement known chosen encoding
  rw [bytes, fixups]
  exact ⟨rfl, rfl⟩

/-- What a statement records is recorded by the run. -/
theorem relocations_subset_run (found : statements[i]? = some statement) :
    (visit options statements .two i statement).2.relocations ⊆
      (run options statements).relocations := by
  intro relocation recorded
  have listed : (visit options statements .two i statement).2 ∈
      (outcome options statements .two).2 :=
    List.mem_of_getElem? (getElem?_reports found)
  exact List.mem_flatMap.mpr ⟨_, listed, recorded⟩

/-! ### Labels -/

/-- A name that no equate has is bound as a label. -/
theorem Binds.labels (unequated : ∀ other ∈ statements, other.equate?.map (·.1) ≠ some name)
    (bound : Binds options statements pass k name) : Labels options statements pass k name := by
  obtain ⟨other, found, assembles, named⟩ := bound
  refine ⟨other, found, assembles, ?_⟩
  have free := unequated other (List.mem_of_getElem? found)
  unfold Statement.boundName? at named
  cases equate : other.equate? with
  | none =>
    rw [equate] at named
    exact named
  | some binding =>
    rw [equate] at named free
    exact absurd named free

/-- An assembled instruction sees the definitions that the next statement finds. -/
theorem definition?_seen_of_instruction {operand : Option Operand} {unread : List Token}
    (found : statements[i]? = some statement)
    (operation : statement.operation = some (.instruction mnemonic operand unread))
    (assembles : (before options statements pass i).Assembles statement) :
    ((before options statements pass i).seen statement).definition? name =
      (before options statements pass (i + 1)).symbols.definition? name := by
  rw [before_succ found, visit, step_of_assembles assembles, definition?_assembled]
  simp [State.seen, State.given, Statement.equate?, operation]

/-- **Where a label is in the zero page**: a name that the first pass binds as a label only is below
256 for an instruction of that pass exactly if the last label of that name, on the instruction or
before it, stands below 256. -/
theorem below_iff_last_label {operand : Option Operand} {unread : List Token}
    (found : statements[i]? = some statement)
    (operation : statement.operation = some (.instruction mnemonic operand unread))
    (assembles : (before options statements .one i).Assembles statement)
    (labelled : ∀ k, Binds options statements .one k name → Labels options statements .one k name) :
    (∃ address, ((before options statements .one i).seen statement).meaning name =
        .defined address ∧ address ≤ 0xFF) ↔
      ∃ k ≤ i, Labels options statements .one k name ∧
        (∀ j, k < j → j ≤ i → ¬ Labels options statements .one j name) ∧
        (before options statements .one k).here ≤ 0xFF := by
  have seen : ((before options statements .one i).seen statement).definition? name =
      (before options statements .one (i + 1)).symbols.definition? name :=
    definition?_seen_of_instruction found operation assembles
  have meaning (address : UInt16) :
      ((before options statements .one i).seen statement).meaning name = .defined address ↔
        (before options statements .one (i + 1)).symbols.meaning name = .defined address := by
    rw [SymbolTable.meaning_eq_defined_iff, SymbolTable.meaning_eq_defined_iff, seen]
  simp only [meaning]
  constructor
  · rintro ⟨address, defined, below⟩
    obtain ⟨definition, bound, -⟩ := SymbolTable.meaning_eq_defined_iff.mp defined
    obtain ⟨k, hk, binds, last⟩ := exists_last_binds (exists_binds_one bound)
    have label := labelled k binds
    have here : Meaning.defined address = .defined (before options statements .one k).here :=
      defined.symm.trans (label.gives.meaning_of_last hk last)
    cases here
    refine ⟨k, by omega, label, fun j hj hj' later => ?_, below⟩
    exact last j hj (by omega) later.gives.binds
  · rintro ⟨k, hk, label, last, below⟩
    refine ⟨_, label.gives.meaning_of_last (by omega) fun j hj hj' later => ?_, below⟩
    exact last j hj (by omega) (labelled j later)

/-! ### Labels as operands of a relocatable program -/

/-- **A label as an absolute operand**: in a program that starts with `REL`, let an instruction put
bytes into the output whose mnemonic has the absolute mode, and whose operand is a bare name that
the first pass binds as a label only. If the operand is not narrowed, it has two bytes and their
relocation is recorded; if it is narrowed, it has one byte and nothing is recorded. An instruction
that the first pass assembles is narrowed exactly if the mnemonic has the zero-page mode and the
last label of that name, on the instruction or before it, stands below 256. -/
theorem label_operand_encoded (options : Options) (statements : List Statement) (link : Statement)
    (i : Nat) (statement : Statement) (mnemonic : String) (opcode : Opcode) (name : Name)
    (unread : List Token)
    (first : statements[0]? = some link) (rel : link.directive? = some .rel)
    (found : statements[i]? = some statement)
    (operation : statement.operation =
      some (.instruction mnemonic (some ⟨.absolute, .symbol name⟩) unread))
    (known : Opcode.find? mnemonic = some opcode) (supported : opcode.supports .absolute = true)
    (emits : (visit options statements .two i statement).2.bytes ≠ [])
    (labelled : ∀ k, Binds options statements .one k name → Labels options statements .one k name) :
    let state := before options statements .two i
    let report := (visit options statements .two i statement).2
    let address := state.value statement (.symbol name)
    (¬ Narrows options statements i statement opcode name →
        ∃ byte, opcode.encoding? .absolute = some byte ∧ report.bytes = byte :: lowFirst address ∧
          report.relocations = [⟨state.here + 1, 2⟩] ∧
          ⟨state.here + 1, 2⟩ ∈ (run options statements).relocations) ∧
      (Narrows options statements i statement opcode name →
        ∃ byte, opcode.encoding? .zeroPage = some byte ∧ report.bytes = [byte, lowByte address] ∧
          report.relocations = []) ∧
      ((before options statements .one i).Assembles statement →
        (Narrows options statements i statement opcode name ↔
          opcode.supports .zeroPage = true ∧
            ∃ k ≤ i, Labels options statements .one k name ∧
              (∀ j, k < j → j ≤ i → ¬ Labels options statements .one j name) ∧
              (before options statements .one k).here ≤ 0xFF)) := by
  intro state report address
  obtain rfl := unread_eq_nil_of_emits operation known emits
  have inside := (List.getElem?_eq_some_iff.mp found).1
  have pos : 0 < i := by
    rcases Nat.eq_zero_or_pos i with rfl | pos
    · -- the first statement is no instruction
      obtain rfl : link = statement := Option.some.inj (first.symm.trans found)
      simp [Statement.directive?, operation] at rel
    · exact pos
  have linked : LinkedBefore options statements i := linkedBefore_of_rel first rel pos
  have chosen := instructionMode_decided options found operation known supported
  refine ⟨fun wide => ?_, fun narrow => ?_, fun assembles => ?_⟩
  · obtain ⟨byte, encoding⟩ := Option.isSome_iff_exists.mp supported
    rw [if_neg (fun narrow => wide (narrows_iff.mpr narrow))] at chosen
    obtain ⟨bytes, relocated⟩ :=
      visit_of_instructionMode inside operation known emits linked chosen encoding
    have entry : report.relocations = [⟨state.here + 1, 2⟩] := relocated
    refine ⟨byte, encoding, bytes, entry, relocations_subset_run found ?_⟩
    show _ ∈ report.relocations
    rw [entry]
    exact List.mem_singleton_self _
  · obtain ⟨byte, encoding⟩ := Option.isSome_iff_exists.mp narrow.1
    rw [if_pos (narrows_iff.mp narrow)] at chosen
    obtain ⟨bytes, relocated⟩ :=
      visit_of_instructionMode inside operation known emits linked chosen encoding
    exact ⟨byte, encoding, bytes, relocated⟩
  · have choosing : choosingPass options statements i statement = .one := if_pos assembles
    rw [Narrows, choosing, below_iff_last_label found operation assembles labelled]

/-- The statement `BIT name` on a line. -/
def bitOf (line : Nat) (name : Name) : Statement :=
  { position := ⟨line, 8⟩
    operation := some (.instruction "BIT" (some ⟨.absolute, .symbol name⟩) []) }

/-- A relocatable program that uses one label before and one after it is defined:

        REL
        BIT LATER
  FIRST NOP
        BIT FIRST
  LATER RTS
-/
def bitsAround : List Statement := [
  { position := ⟨1, 8⟩, operation := some (.directive .rel none) },
  bitOf 2 ⟨"LATER"⟩,
  { position := ⟨3, 1⟩, label := some ⟨"FIRST"⟩, operation := some (.instruction "NOP" none []) },
  bitOf 4 ⟨"FIRST"⟩,
  { position := ⟨5, 1⟩, label := some ⟨"LATER"⟩
    operation := some (.instruction "RTS" none []) }]

/-- In `bitsAround` the label that follows is not narrowed, although it ends up in the zero page. -/
theorem label_operand_encoded_later :
    (∀ opcode, Opcode.find? "BIT" = some opcode →
        ¬ Narrows {} bitsAround 1 (bitOf 2 ⟨"LATER"⟩) opcode ⟨"LATER"⟩) ∧
      (visit {} bitsAround .two 1 (bitOf 2 ⟨"LATER"⟩)).2.bytes = [0x2C, 0x06, 0x00] ∧
      ⟨1, 2⟩ ∈ (run {} bitsAround).relocations := by
  have known : Opcode.find? "BIT" = some ⟨"BIT", [(.zeroPage, 0x24), (.absolute, 0x2C)]⟩ := by
    decide +kernel
  obtain ⟨wide, -, narrows⟩ := label_operand_encoded {} bitsAround _ 1 (bitOf 2 ⟨"LATER"⟩) "BIT" _
    ⟨"LATER"⟩ [] rfl rfl rfl rfl known (by decide) (by decide +kernel)
    fun k bound => bound.labels (by decide +kernel)
  have free : ¬ Narrows {} bitsAround 1 (bitOf 2 ⟨"LATER"⟩)
      ⟨"BIT", [(.zeroPage, 0x24), (.absolute, 0x2C)]⟩ ⟨"LATER"⟩ := by
    -- there is no label before, and the statement has none
    rw [narrows (by decide +kernel)]
    rintro ⟨-, k, hk, ⟨other, found, -, named⟩, -⟩
    obtain rfl | rfl : k = 0 ∨ k = 1 := by omega
    · cases found
      cases named
    · cases found
      cases named
  obtain ⟨byte, -, -, -, recorded⟩ := wide free
  refine ⟨fun opcode listed => ?_, by decide +kernel, recorded⟩
  rw [known] at listed
  cases listed
  exact free

/-- In `bitsAround` the label that stands before is narrowed: its instruction has one operand byte,
which is not among the relocations, although the program is relocatable and nothing is reported. -/
theorem narrowed_label_unrecorded :
    (visit {} bitsAround .two 3 (bitOf 4 ⟨"FIRST"⟩)).2.bytes = [0x24, 0x03] ∧
      (visit {} bitsAround .two 3 (bitOf 4 ⟨"FIRST"⟩)).2.relocations = [] ∧
      (run {} bitsAround).bytes = [0x2C, 0x06, 0x00, 0xEA, 0x24, 0x03, 0x60] ∧
      (run {} bitsAround).relocations = [⟨1, 2⟩] ∧
      (run {} bitsAround).relocatable = true ∧ (run {} bitsAround).diagnostics = [] := by
  decide +kernel

end Assembly

end Asm6502
