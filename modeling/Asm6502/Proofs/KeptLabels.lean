import Asm6502.Proofs.Contract
import Asm6502.Proofs.HandWritten
import Asm6502.Proofs.Inclusion
import Asm6502.Proofs.Selection

/-!
# Labels that are kept

A label stands for the location of its statement, whatever the statement does. So every label of a
source text should end up in the symbols, if the text defines no macro and turns no part of itself
off. The labels of include statements do not: the statements of the included file stand in the place
of the whole statement, and its label goes with it (`include_label_lost`).

`labels_kept` says that no other label is lost, as long as every line of the text stands for a
balanced list of statements (so that no line is inside a block which an included file opened), and
that the symbols are exactly the names that the statements after inclusion give values; there is no
include statement among these.
-/

namespace Asm6502

/-! ### Balanced lists in a row -/

theorem depthAfter?_append (depth : Nat) (statements further : List Statement) :
    depthAfter? depth (statements ++ further) =
      (depthAfter? depth statements).bind (depthAfter? · further) := by
  induction statements generalizing depth with
  | nil => rfl
  | cons statement statements ih =>
    rw [List.cons_append, depthAfter?, depthAfter?, Option.bind_assoc]
    congr 1
    funext next
    exact ih next

theorem Balanced.append {statements further : List Statement} (balanced : Balanced statements)
    (balanced' : Balanced further) : Balanced (statements ++ further) := by
  have first : depthAfter? 0 statements = some 0 := balanced
  show depthAfter? 0 (statements ++ further) = some 0
  rw [depthAfter?_append, first]
  exact balanced'

theorem Balanced.flatMap {parts : List Statement} {expansion : Statement → List Statement}
    (each : ∀ part ∈ parts, Balanced (expansion part)) : Balanced (parts.flatMap expansion) := by
  induction parts with
  | nil => rfl
  | cons part parts ih =>
    rw [List.flatMap_cons]
    apply Balanced.append
    · exact each part List.mem_cons_self
    · exact ih fun other mem => each other (List.mem_cons_of_mem _ mem)

/-- A statement that makes a balanced list on its own is plain. -/
theorem Balanced.role_eq {statement : Statement} (balanced : Balanced [statement]) :
    statement.role = .plain := by
  unfold Balanced depthAfter? at balanced
  cases role : statement.role with
  | plain => rfl
  | opens | turns | closes =>
    rw [role] at balanced
    cases balanced

namespace Assembly

variable {options : Options} {statements : List Statement} {pass : Pass} {i j : Nat}
  {statement : Statement} {name : Name} {value : UInt16}

theorem map_fst_items : (items options statements pass).map (·.1) = statements := by
  apply List.ext_getElem?
  intro i
  rw [List.getElem?_map]
  cases found : statements[i]? with
  | some statement => rw [getElem?_items found, Option.map_some]
  | none =>
    have past : statements.length ≤ i := List.getElem?_eq_none_iff.mp found
    rw [List.getElem?_eq_none (by simpa using past), Option.map_none]

/-- After a balanced part of a program no block is open. -/
theorem conditions_before_of_balanced (balanced : Balanced (statements.take i)) :
    (before options statements pass i).conditions = {} := by
  have taken : ((items options statements pass).take i).map (·.1) = statements.take i := by
    rw [List.map_take, map_fst_items]
  rw [before, conditions_of_balanced options pass (taken.symm ▸ balanced)]
  cases pass <;> rfl

/-! ### Names that are defined -/

/-- A name that a statement gives a value is defined after it. -/
theorem Gives.isSome_succ (gives : Gives options statements pass i name value) :
    ((before options statements pass (i + 1)).symbols.definition? name).isSome = true := by
  obtain ⟨definition, found, -⟩ := SymbolTable.meaning_eq_defined_iff.mp gives.meaning_succ
  rw [found]
  rfl

/-- A name that has a definition keeps one. -/
theorem isSome_definition?_before_mono (le : i ≤ j)
    (defined : ((before options statements pass i).symbols.definition? name).isSome = true) :
    ((before options statements pass j).symbols.definition? name).isSome = true := by
  induction le with
  | refl => exact defined
  | @step j _ ih =>
    by_cases gives : ∃ value, Gives options statements pass j name value
    · obtain ⟨value, gives⟩ := gives
      exact gives.isSome_succ
    · rw [definition?_before_succ fun value here => gives ⟨value, here⟩]
      exact ih

/-- A name that a statement gives a value is defined at the end of the pass. -/
theorem Gives.isSome_length (gives : Gives options statements pass i name value) :
    ((before options statements pass statements.length).symbols.definition? name).isSome = true :=
  isSome_definition?_before_mono gives.binds.lt_length gives.isSome_succ

/-- **The symbols of a run are the names that a statement gives a value** in one of the passes. -/
theorem isDefined_run_iff :
    (run options statements).symbols.isDefined name = true ↔
      ∃ pass i value, Gives options statements pass i name value := by
  rw [SymbolTable.isDefined, symbols_run]
  constructor
  · intro defined
    obtain ⟨definition, found⟩ := Option.isSome_iff_exists.mp defined
    rcases definition?_start_or_gives found with started | ⟨k, -, gives⟩
    · rw [before_two_zero] at started
      obtain ⟨k, -, gives⟩ := exists_gives_one started
      exact ⟨.one, k, _, gives⟩
    · exact ⟨.two, k, _, gives⟩
  · rintro ⟨pass, i, value, gives⟩
    cases pass with
    | two => exact gives.isSome_length
    | one =>
      apply isSome_definition?_before_mono (Nat.zero_le _)
      rw [before_two_zero]
      exact gives.isSome_length

/-- A label after a balanced part of a program is defined. -/
theorem isDefined_of_balanced (found : statements[i]? = some statement)
    (plain : statement.role = .plain) (balanced : Balanced (statements.take i))
    (label : statement.locationLabel? = some name) :
    (run options statements).symbols.isDefined name = true := by
  have labels : Labels options statements .one i name := by
    refine ⟨statement, found, ⟨plain, ?_⟩, label⟩
    rw [conditions_before_of_balanced balanced]
  exact isDefined_run_iff.mpr ⟨.one, i, _, labels.gives⟩

end Assembly

/-! ### Lines of a source text -/

namespace Include

variable {tree : FileTree} {base : String} {branch : List Location} {statements : List Statement}
  {statement : Statement}

theorem expand_fst :
    (expand tree base branch statements).1 =
      statements.flatMap fun statement => (expandStatement tree base branch statement).1 := by
  simp only [expand, List.flatMap_map]

/-- A statement that includes nothing has a place in the expansion, and the part before it is
balanced if the statements before it stand for balanced lists. -/
theorem exists_place (listed : statement ∈ statements)
    (other : statement.directive? ≠ some .includeFile)
    (balanced : ∀ statement ∈ statements,
      Balanced (expandStatement tree base branch statement).1) :
    ∃ i, (expand tree base branch statements).1[i]? = some statement ∧
      Balanced ((expand tree base branch statements).1.take i) := by
  obtain ⟨above, below, rfl⟩ := List.append_of_mem listed
  let before := above.flatMap fun statement => (expandStatement tree base branch statement).1
  have whole : (expand tree base branch (above ++ statement :: below)).1 =
      before ++ statement :: (expand tree base branch below).1 := by
    rw [expand_fst, expand_fst, List.flatMap_append, List.flatMap_cons, expandStatement_of_ne other]
    rfl
  refine ⟨before.length, ?_, ?_⟩
  · rw [whole, List.getElem?_append_right (Nat.le_refl _), Nat.sub_self, List.getElem?_cons_zero]
  · rw [whole, List.take_left]
    exact Balanced.flatMap fun part mem => balanced part (List.mem_append_left _ mem)

end Include

/-- **No label is lost but those of include statements.** In a source text that defines no macro,
and each line of which stands for a balanced list of statements, every label is among the symbols
that stands on a statement other than an equate and an include statement. The symbols are exactly
the names that the statements after inclusion give values, and no include statement is among
these. -/
theorem labels_kept (options : Options) (setting : Setting) (source : String)
    (plain : ∀ line ∈ Source.lines source, Macro.opens? line.text.toList = none)
    (balanced : ∀ statement ∈ Statement.ofSource source,
      Balanced (Include.expandStatement setting.tree setting.base setting.branch statement).1) :
    let program :=
      (Include.expand setting.tree setting.base setting.branch (Statement.ofSource source)).1
    let symbols := (assemble options setting source).symbols
    (∀ statement ∈ Statement.ofSource source, ∀ name, statement.locationLabel? = some name →
        statement.directive? ≠ some .includeFile → symbols.isDefined name = true) ∧
      (∀ name, symbols.isDefined name = true ↔
        ∃ pass i value, Assembly.Gives options program pass i name value) ∧
      ∀ statement ∈ program, statement.directive? ≠ some .includeFile := by
  intro program symbols
  have same : symbols = (Assembly.run options program).symbols := by
    have statements : Statement.ofLines (Source.lines source) = Statement.ofSource source := rfl
    simp only [symbols, assemble, Macro.expand_of_not_opens plain, statements, program]
  rw [same]
  refine ⟨?_, fun name => Assembly.isDefined_run_iff, ?_⟩
  · intro statement listed name label other
    have alone : Balanced [statement] := by
      have expanded := balanced statement listed
      rwa [Include.expandStatement_of_ne other] at expanded
    obtain ⟨i, found, closed⟩ := Include.exists_place listed other balanced
    exact Assembly.isDefined_of_balanced found alone.role_eq closed label
  · intro statement mem
    obtain ⟨line, -, inside⟩ := Include.mem_expand_iff.mp mem
    exact Include.not_includes_of_mem_expandStatement _ _ line inside

/-- A program with a label on every line, one of them an include statement:

  START NOP
  HERE  INCLUDE "a.s"
  LAST  RTS
-/
def labelledInclude : String := "START NOP\nHERE INCLUDE \"a.s\"\nLAST RTS\n"

/-- The file that `labelledInclude` includes. -/
def includedFile : Setting := { tree := .ofFiles [("a.s", textBytes " NOP\n")] }

/-- The labels around the include statement are among the symbols. -/
theorem labels_kept_labelledInclude :
    (∀ line ∈ Source.lines labelledInclude, Macro.opens? line.text.toList = none) ∧
      (∀ statement ∈ Statement.ofSource labelledInclude, Balanced
        (Include.expandStatement includedFile.tree includedFile.base includedFile.branch
          statement).1) ∧
      (assemble {} includedFile labelledInclude).symbols.isDefined ⟨"START"⟩ = true ∧
      (assemble {} includedFile labelledInclude).symbols.isDefined ⟨"LAST"⟩ = true := by
  have plain : ∀ line ∈ Source.lines labelledInclude, Macro.opens? line.text.toList = none := by
    decide +kernel
  have balanced : ∀ statement ∈ Statement.ofSource labelledInclude, Balanced
      (Include.expandStatement includedFile.tree includedFile.base includedFile.branch
        statement).1 := by
    decide +kernel
  obtain ⟨kept, -⟩ := labels_kept {} includedFile labelledInclude plain balanced
  obtain ⟨first, listed, label, other⟩ : ∃ statement ∈ Statement.ofSource labelledInclude,
      statement.locationLabel? = some ⟨"START"⟩ ∧
        statement.directive? ≠ some .includeFile := by decide +kernel
  obtain ⟨last, listed', label', other'⟩ : ∃ statement ∈ Statement.ofSource labelledInclude,
      statement.locationLabel? = some ⟨"LAST"⟩ ∧
        statement.directive? ≠ some .includeFile := by decide +kernel
  exact ⟨plain, balanced, kept first listed _ label other, kept last listed' _ label' other'⟩

/-- The label of the include statement is not among the symbols, although the file is read and
nothing is reported. -/
theorem include_label_lost :
    (∃ statement ∈ Statement.ofSource labelledInclude,
        statement.locationLabel? = some ⟨"HERE"⟩ ∧ statement.directive? = some .includeFile) ∧
      (assemble {} includedFile labelledInclude).bytes = [0xEA, 0xEA, 0x60] ∧
      (assemble {} includedFile labelledInclude).diagnostics = [] ∧
      (assemble {} includedFile labelledInclude).symbols.isDefined ⟨"HERE"⟩ = false := by
  decide +kernel

end Asm6502
