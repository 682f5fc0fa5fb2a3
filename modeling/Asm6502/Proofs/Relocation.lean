import Asm6502.Proofs.Fixup

/-!
# Relocations

The second pass records the fixups of a statement that it assembles outside dummy sections, once a
statement before has made the program relocatable (`relocatable_before_iff`, `mem_recorded`). Each
recorded fixup has a place in the output, its **site**: the sites are in order and apart
(`pairwise_sites`), and at each of them stands the encoding of an operand that references a symbol
(`recordedBy_site`). So relocations are sound (`relocations_hold_operands`).

They are complete for all operands that follow the statement which makes the program relocatable
(`operands_after_link_recorded`). Nothing is recorded for the operands before it, although the
program is relocatable as a whole (`operands_before_entry_unrecorded`).
-/

namespace Asm6502.Assembly

/-! ### What a step records -/

namespace State

/-- The fixups of the statement are recorded: it is assembled, outside dummy sections, and the
program is known to be relocatable. -/
def Records (state : State) (statement : Statement) : Prop :=
  state.Assembles statement ∧ state.inDsect = false ∧ state.relocatable = true

instance (state : State) (statement : Statement) : Decidable (state.Records statement) :=
  inferInstanceAs (Decidable (_ ∧ _))

/-- The value of an expression in the operand of a statement. -/
def value (state : State) (statement : Statement) (expr : Expr) : UInt16 :=
  (expr.evaluate (state.seen statement) state.here).value

end State

section Step

variable {options : Options} {pass : Pass} {state : State} {statement : Statement}
  {decided : Option Layout}

theorem relocatable_step :
    (step options pass state (statement, decided)).1.relocatable = true ↔
      state.relocatable = true ∨
        state.Assembles statement ∧ statement.makesRelocatable = true := by
  by_cases assembles : state.Assembles statement
  · rw [step_of_assembles assembles, assembled_eq]
    simp [State.apply, effectOf, Effect.relocatable_ofStatement, assembles]
  · simp [step_of_not_assembles assembles, assembles]

theorem relocations_step :
    (step options .two state (statement, decided)).2.relocations =
      if state.Records statement then
        relocations state.here (effectOf options .two state statement decided).fixups
      else [] := by
  by_cases assembles : state.Assembles statement
  · rw [step_of_assembles assembles, assembled_eq]
    simp [State.Records, assembles]
  · simp [report_of_not_assembles assembles, State.Records, assembles]

/-- A statement that puts bytes into the output is assembled outside dummy sections. -/
theorem outside_of_emits
    (emits : (step options .two state (statement, decided)).2.bytes ≠ []) :
    state.Assembles statement ∧ state.inDsect = false := by
  obtain ⟨assembles, -⟩ := assembles_of_emits emits
  rw [step_of_assembles assembles, bytes_assembled] at emits
  cases inside : state.inDsect with
  | false => exact ⟨assembles, rfl⟩
  | true => simp [inside] at emits

end Step

/-! ### When a program is relocatable -/

/-- Before the statement at index `i`, the second pass has assembled one that makes the program
relocatable. -/
def LinkedBefore (options : Options) (statements : List Statement) (i : Nat) : Prop :=
  ∃ j statement, j < i ∧ statements[j]? = some statement ∧
    (before options statements .two j).Assembles statement ∧ statement.makesRelocatable = true

variable {options : Options} {statements : List Statement} {i : Nat} {statement : Statement}

theorem linkedBefore_succ (found : statements[i]? = some statement) :
    LinkedBefore options statements (i + 1) ↔
      LinkedBefore options statements i ∨
        (before options statements .two i).Assembles statement ∧
          statement.makesRelocatable = true := by
  constructor
  · rintro ⟨j, other, le, listed, links⟩
    rcases Nat.lt_succ_iff_lt_or_eq.mp le with earlier | rfl
    · exact .inl ⟨j, other, earlier, listed, links⟩
    · obtain rfl : statement = other := Option.some.inj (found.symm.trans listed)
      exact .inr links
  · rintro (⟨j, other, earlier, listed, links⟩ | links)
    · exact ⟨j, other, Nat.lt_succ_of_lt earlier, listed, links⟩
    · exact ⟨i, statement, Nat.lt_succ_self i, found, links⟩

/-- The second pass takes the program for relocatable from the first such statement on. -/
theorem relocatable_before_iff (inside : i ≤ statements.length) :
    (before options statements .two i).relocatable = true ↔ LinkedBefore options statements i := by
  induction i with
  | zero =>
    rw [before_zero]
    simp [start, initial, LinkedBefore]
  | succ i ih =>
    have found : statements[i]? = some statements[i] := List.getElem?_eq_getElem inside
    rw [before_succ found, visit, relocatable_step, linkedBefore_succ found,
      ih (Nat.le_of_succ_le inside)]

/-! ### Recorded fixups -/

section Recorded

variable (options : Options) (statements : List Statement)

/-- The second pass puts the encoding of an operand expression into the output, `offset` bytes after
the first byte of the statement at index `i`. -/
structure EmitsOperand (i : Nat) (statement : Statement) (offset : Nat) (expr : Expr)
    (bytes : List UInt8) : Prop where
  found : statements[i]? = some statement
  holds : OperandAt (before options statements .two i).here
    ((before options statements .two i).value statement) statement
    (visit options statements .two i statement).2.bytes offset expr bytes

/-- The fixups of the statement at index `i` that the second pass records. -/
def recorded (i : Nat) (statement : Statement) : List Fixup :=
  if (before options statements .two i).Records statement then
    (effectOf options .two (before options statements .two i) statement
      (decided options statements .two i)).fixups
  else []

end Recorded

theorem mem_recorded {fixup : Fixup} :
    fixup ∈ recorded options statements i statement ↔
      (before options statements .two i).Records statement ∧
        fixup ∈ (effectOf options .two (before options statements .two i) statement
          (decided options statements .two i)).fixups :=
  List.mem_ite_nil_right ..

theorem relocations_visit :
    (visit options statements .two i statement).2.relocations =
      relocations (before options statements .two i).here
        (recorded options statements i statement) := by
  rw [visit, relocations_step, recorded]
  split <;> rfl

theorem canFollow_decided {pass : Pass} (found : statements[i]? = some statement) :
    Effect.CanFollow statement (decided options statements pass i) :=
  fun _ _ _ operation => followable_decided found operation

theorem pairwise_recorded (found : statements[i]? = some statement) :
    (recorded options statements i statement).Pairwise fun first second =>
      first.offset + first.size ≤ second.offset := by
  unfold recorded
  split
  · exact Effect.pairwise_fixups (canFollow_decided found)
  · exact .nil

/-- Whatever is recorded is an operand in the output. -/
theorem emitsOperand_of_mem_recorded (found : statements[i]? = some statement) {fixup : Fixup}
    (mem : fixup ∈ recorded options statements i statement) :
    ∃ expr bytes, EmitsOperand options statements i statement fixup.offset expr bytes ∧
      bytes.length = fixup.size ∧ expr.referencesSymbol = true := by
  obtain ⟨⟨assembles, outside, -⟩, fixed⟩ := mem_recorded.mp mem
  obtain ⟨expr, bytes, holds, size, references⟩ :=
    Effect.operandAt_of_mem_fixups (canFollow_decided found) fixed
  refine ⟨expr, bytes, ⟨found, ?_⟩, size, references⟩
  rw [visit, step_of_assembles assembles, bytes_assembled, outside]
  exact holds

/-- An operand in the output that references a symbol is recorded, if the program is known to be
relocatable. -/
theorem EmitsOperand.isRecorded {offset : Nat} {expr : Expr} {bytes : List UInt8}
    (emits : EmitsOperand options statements i statement offset expr bytes)
    (references : expr.referencesSymbol = true) (linked : LinkedBefore options statements i) :
    ⟨offset, bytes.length⟩ ∈ recorded options statements i statement := by
  obtain ⟨found, holds⟩ := emits
  have inside := (List.getElem?_eq_some_iff.mp found).1
  have relocatable := (relocatable_before_iff (Nat.le_of_lt inside)).mpr linked
  obtain ⟨assembles, outside⟩ := outside_of_emits holds.code_ne_nil
  rw [visit, (assembles_of_emits holds.code_ne_nil).2] at holds
  exact mem_recorded.mpr ⟨⟨assembles, outside, relocatable⟩,
    Effect.mem_fixups_of_operandAt (canFollow_decided found) holds references⟩

/-! ### Sites -/

/-- A relocation, and the place of its first byte in the output. -/
structure Site where
  /-- The relocation. -/
  relocation : Relocation
  /-- How many bytes of the output stand before it. -/
  offset : Nat

namespace Site

/-- The place after the last byte of a site. -/
def stop (site : Site) : Nat := site.offset + site.relocation.size

/-- The byte at a place of the output belongs to the site. -/
def Covers (site : Site) (place : Nat) : Prop := site.offset ≤ place ∧ place < site.stop

end Site

/-- Sites that end before the next one starts cover no byte twice. -/
theorem eq_of_covers {sites : List Site} (apart : sites.Pairwise (·.stop ≤ ·.offset)) {k l : Nat}
    {first second : Site} {place : Nat} (atK : sites[k]? = some first)
    (atL : sites[l]? = some second) (covers : first.Covers place)
    (covers' : second.Covers place) : k = l := by
  obtain ⟨kInside, rfl⟩ := List.getElem?_eq_some_iff.mp atK
  obtain ⟨lInside, rfl⟩ := List.getElem?_eq_some_iff.mp atL
  have ordered := List.pairwise_iff_getElem.mp apart
  obtain ⟨starts, ends⟩ := covers
  obtain ⟨starts', ends'⟩ := covers'
  rcases Nat.lt_trichotomy k l with earlier | same | later
  · have ends_first := ordered k l kInside lInside earlier
    omega
  · exact same
  · have ends_first := ordered l k lInside kInside later
    omega

section Sites

variable (options : Options) (statements : List Statement)

/-- The site of a fixup of the statement at index `i`. -/
def site (i : Nat) (fixup : Fixup) : Site where
  relocation := ⟨(before options statements .two i).here + UInt16.ofNat fixup.offset, fixup.size⟩
  offset := outputBefore options statements i + fixup.offset

/-- The sites of all relocations. -/
def sites : List Site :=
  statements.zipIdx.flatMap fun (statement, i) =>
    (recorded options statements i statement).map (site options statements i)

/-- A site is recorded by the statement at index `i`: an assembled one outside dummy sections, after
one that makes the program relocatable. It holds an operand of the statement that references a
symbol. -/
structure RecordedBy (site : Site) (i : Nat) (statement : Statement) : Prop where
  assembles : (before options statements .two i).Assembles statement
  outside : (before options statements .two i).inDsect = false
  linked : LinkedBefore options statements i
  reported : site.relocation ∈ (visit options statements .two i statement).2.relocations
  operand : ∃ offset expr bytes, EmitsOperand options statements i statement offset expr bytes ∧
    expr.referencesSymbol = true ∧ bytes.length = site.relocation.size ∧
    site.offset = outputBefore options statements i + offset ∧
    StandsAt (run options statements).bytes site.offset bytes

end Sites

theorem map_relocation_sites :
    (sites options statements).map (·.relocation) = (run options statements).relocations := by
  have all : (run options statements).relocations =
      (outcome options statements .two).2.flatMap (·.relocations) := rfl
  rw [all, reports_eq, List.flatMap_map, sites, List.map_flatMap]
  simp only [relocations_visit, relocations, List.map_map]
  rfl

theorem mem_sites {found : Site} :
    found ∈ sites options statements ↔
      ∃ i statement, statements[i]? = some statement ∧
        ∃ fixup ∈ recorded options statements i statement,
          site options statements i fixup = found := by
  simp only [sites, List.mem_flatMap, Prod.exists, List.mem_zipIdx_iff_getElem?, List.mem_map]
  exact exists_comm

/-- The sites of a statement end before the bytes of the next one. -/
theorem stop_site_le (found : statements[i]? = some statement) {fixup : Fixup}
    (mem : fixup ∈ recorded options statements i statement) :
    (site options statements i fixup).stop ≤ outputBefore options statements (i + 1) := by
  obtain ⟨expr, bytes, emits, size, -⟩ := emitsOperand_of_mem_recorded found mem
  have within := emits.holds.standsAt.length_le
  rw [size] at within
  rw [outputBefore_succ found, Site.stop]
  simp only [site]
  omega

/-- **The sites are in order and apart.** -/
theorem pairwise_sites : (sites options statements).Pairwise (·.stop ≤ ·.offset) := by
  refine List.pairwise_flatMap.mpr ⟨?_, (pairwise_zipIdx statements).imp_of_mem ?_⟩
  · rintro ⟨statement, i⟩ mem
    have found := List.mem_zipIdx_iff_getElem?.mp mem
    refine List.pairwise_map.mpr ((pairwise_recorded found).imp ?_)
    intro first second apart
    simp only [Site.stop, site]
    omega
  · -- the bytes of different statements are apart
    rintro ⟨statement, i⟩ ⟨statement', j⟩ mem mem' earlier
    have found := List.mem_zipIdx_iff_getElem?.mp mem
    intro first isFirst second isSecond
    obtain ⟨fixup, recorded, rfl⟩ := List.mem_map.mp isFirst
    obtain ⟨fixup', -, rfl⟩ := List.mem_map.mp isSecond
    calc (site options statements i fixup).stop
        ≤ outputBefore options statements (i + 1) := stop_site_le found recorded
      _ ≤ outputBefore options statements j := outputBefore_mono earlier
      _ ≤ (site options statements j fixup').offset := Nat.le_add_right ..

/-- Each site holds an operand of a statement that was right to record it. -/
theorem recordedBy_site (found : statements[i]? = some statement) {fixup : Fixup}
    (mem : fixup ∈ recorded options statements i statement) :
    RecordedBy options statements (site options statements i fixup) i statement := by
  obtain ⟨expr, bytes, emits, size, references⟩ := emitsOperand_of_mem_recorded found mem
  have reported : (site options statements i fixup).relocation ∈
      (visit options statements .two i statement).2.relocations := by
    rw [relocations_visit]
    exact List.mem_map_of_mem mem
  have inside := (List.getElem?_eq_some_iff.mp found).1
  have stands := (standsAt_visit found).trans emits.holds.standsAt
  obtain ⟨⟨assembles, outside, relocatable⟩, -⟩ := mem_recorded.mp mem
  have linked := (relocatable_before_iff (Nat.le_of_lt inside)).mp relocatable
  exact ⟨assembles, outside, linked, reported, fixup.offset, expr, bytes, emits, references, size,
    rfl, stands⟩

theorem getElem?_locations_site (found : statements[i]? = some statement) {fixup : Fixup}
    (mem : fixup ∈ recorded options statements i statement) :
    (locations options statements)[(site options statements i fixup).offset]? =
      some (site options statements i fixup).relocation.address := by
  obtain ⟨expr, bytes, emits, size, -⟩ := emitsOperand_of_mem_recorded found mem
  have within := emits.holds.standsAt.length_le
  have positive := emits.holds.length_pos
  exact getElem?_locations found (by omega)

/-- **Relocations are sound.** Each relocation of a run has a place in the output, these places are
in order and no byte belongs to two of them, and the address of a relocation is the location of its
first byte. Each one is recorded by a statement that is assembled outside dummy sections after the
program became relocatable, and what stands at its place is the encoding of an operand of that
statement that references a symbol. -/
theorem relocations_hold_operands (options : Options) (statements : List Statement) :
    ∃ sites : List Site,
      sites.map (·.relocation) = (run options statements).relocations ∧
      sites.Pairwise (·.stop ≤ ·.offset) ∧
      (∀ site ∈ sites, site.stop ≤ (run options statements).bytes.length ∧
        (locations options statements)[site.offset]? = some site.relocation.address ∧
        ∃ i statement, RecordedBy options statements site i statement) ∧
      ∀ (place k l : Nat) (first second : Site),
        sites[k]? = some first → sites[l]? = some second →
          first.Covers place → second.Covers place → k = l := by
  refine ⟨sites options statements, map_relocation_sites, pairwise_sites, ?_, ?_⟩
  · intro site mem
    obtain ⟨i, statement, found, fixup, recorded, rfl⟩ := mem_sites.mp mem
    have recordedBy := recordedBy_site found recorded
    obtain ⟨_, _, bytes, -, -, size, -, stands⟩ := recordedBy.operand
    refine ⟨?_, getElem?_locations_site found recorded, i, statement, recordedBy⟩
    rw [Site.stop, ← size]
    exact stands.length_le
  · intro place k l first second atK atL covers covers'
    exact eq_of_covers pairwise_sites atK atL covers covers'

/-! ### Operands without a relocation -/

/-- The byte at a place of the output has a relocation of the given size at its location. -/
def HasRelocation (options : Options) (statements : List Statement) (place size : Nat) : Prop :=
  ∃ address, (locations options statements)[place]? = some address ∧
    ⟨address, size⟩ ∈ (run options statements).relocations

instance (options : Options) (statements : List Statement) (place size : Nat) :
    Decidable (HasRelocation options statements place size) :=
  decidable_of_iff
    (∃ address ∈ (locations options statements)[place]?,
      ⟨address, size⟩ ∈ (run options statements).relocations)
    (by simp [HasRelocation])

/-- A program that becomes relocatable after its code:

  MAIN  JMP MAIN
        ENTRY MAIN
-/
def lateEntry : List Statement := [
  { position := ⟨1, 1⟩, label := some ⟨"MAIN"⟩
    operation := some (.instruction "JMP" (some ⟨.absolute, .symbol ⟨"MAIN"⟩⟩) []) },
  { position := ⟨2, 7⟩, operation := some (.directive .entries (some (.symbol ⟨"MAIN"⟩)))
    operandTokens := [⟨.symbol, "MAIN", ⟨2, 13⟩⟩] }]

/-- Operands before the first statement that makes the program relocatable have no relocation, even
though the program is relocatable in the end. -/
theorem operands_before_entry_unrecorded :
    ¬ ∀ options statements i statement offset expr bytes,
      (run options statements).relocatable = true →
      EmitsOperand options statements i statement offset expr bytes → bytes.length = 2 →
      expr.referencesSymbol = true →
      HasRelocation options statements (outputBefore options statements i + offset) 2 := by
  intro complete
  let target : Operand := ⟨.absolute, .symbol ⟨"MAIN"⟩⟩
  let value := (before {} lateEntry .two 0).value lateEntry[0] target.expr
  have coded : IsInstruction lateEntry[0] target .absolute
      (visit {} lateEntry .two 0 lateEntry[0]).2.bytes (lowFirst value) :=
    ⟨"JMP", [], 0x4C, ⟨"JMP", [(.absolute, 0x4C), (.indirect, 0x6C)]⟩, rfl, by decide +kernel,
      by decide +kernel, by decide +kernel⟩
  have emits : EmitsOperand {} lateEntry 0 lateEntry[0] 1 target.expr (lowFirst value) :=
    ⟨rfl, .word rfl coded⟩
  have relocated := complete {} lateEntry 0 lateEntry[0] 1 _ _ (by decide +kernel) emits rfl rfl
  exact absurd relocated (by decide +kernel)

/-- **Relocations are complete for what follows**: every operand of two bytes in the output that
references a symbol has a relocation, if a statement before it has made the program relocatable. -/
theorem operands_after_link_recorded (options : Options) (statements : List Statement) (i : Nat)
    (statement : Statement) (offset : Nat) (expr : Expr) (bytes : List UInt8)
    (emits : EmitsOperand options statements i statement offset expr bytes)
    (two : bytes.length = 2) (references : expr.referencesSymbol = true)
    (linked : LinkedBefore options statements i) :
    HasRelocation options statements (outputBefore options statements i + offset) 2 := by
  have recorded := emits.isRecorded references linked
  rw [two] at recorded
  refine ⟨_, getElem?_locations_site emits.found recorded, ?_⟩
  rw [← map_relocation_sites]
  exact List.mem_map_of_mem (mem_sites.mpr ⟨i, statement, emits.found, _, recorded, rfl⟩)

/-- A program that is relocatable from its first line on:

        REL
        ORG $1000
  MAIN  JSR MAIN
        DDB 5,MAIN
-/
def relocatableTable : List Statement := [
  { position := ⟨1, 7⟩, operation := some (.directive .rel none) },
  { position := ⟨2, 7⟩, operation := some (.directive .org (some (.literal 0x1000)))
    operandTokens := [⟨.number, "$1000", ⟨2, 11⟩⟩] },
  { position := ⟨3, 1⟩, label := some ⟨"MAIN"⟩
    operation := some (.instruction "JSR" (some ⟨.absolute, .symbol ⟨"MAIN"⟩⟩) []) },
  { position := ⟨4, 7⟩, operation := some (.directive (.values .highFirst) (some (.literal 5)))
    operandTokens :=
      [⟨.number, "5", ⟨4, 11⟩⟩, ⟨.comma, ",", ⟨4, 12⟩⟩, ⟨.symbol, "MAIN", ⟨4, 13⟩⟩] }]

/-- In `relocatableTable` the second item of the value list, the bytes `10 00` at `$1005`, has a
relocation. -/
theorem operands_after_link_recorded_relocatableTable :
    let statement := relocatableTable[3]
    EmitsOperand {} relocatableTable 3 statement 2 (.symbol ⟨"MAIN"⟩) [0x10, 0x00] ∧
      LinkedBefore {} relocatableTable 3 ∧
      (locations {} relocatableTable)[5]? = some 0x1005 ∧
      HasRelocation {} relocatableTable (outputBefore {} relocatableTable 3 + 2) 2 := by
  intro statement
  have value : (before {} relocatableTable .two 3).value statement (.symbol ⟨"MAIN"⟩) = 0x1000 := by
    decide +kernel
  have holds : OperandAt (before {} relocatableTable .two 3).here
      ((before {} relocatableTable .two 3).value statement) statement
      (visit {} relocatableTable .two 3 statement).2.bytes 2 (.symbol ⟨"MAIN"⟩)
      (ValueShape.highFirst.bytes ((before {} relocatableTable .two 3).value statement
        (.symbol ⟨"MAIN"⟩))) :=
    @OperandAt.item _ _ _ _ .highFirst 1 _ rfl (by decide +kernel) (by decide +kernel)
  rw [value] at holds
  have emits : EmitsOperand {} relocatableTable 3 statement 2 (.symbol ⟨"MAIN"⟩) [0x10, 0x00] :=
    ⟨rfl, holds⟩
  have linked : LinkedBefore {} relocatableTable 3 :=
    ⟨0, relocatableTable[0], by decide, rfl, by decide +kernel, rfl⟩
  exact ⟨emits, linked, by decide +kernel,
    operands_after_link_recorded {} relocatableTable 3 statement 2 _ _ emits rfl rfl linked⟩

end Asm6502.Assembly
