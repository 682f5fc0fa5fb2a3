import Asm6502.Proofs.Expansion
import Asm6502.Proofs.Lexemes

/-!
# Macro expansion is bounded

The expander is told here by rules, without a bound on the nesting of its calls other than the one
it checks itself: a line is put out, refused as nested too deep, or replaced by the lines of a body,
and a body is left as soon as too many lines were expanded (`RunsLine`, `RunsBody`, `RunsText`). The
rules count the lines that are looked at. That the expander ends means that the rules lead to a
result, and they lead to that of `expand` (`runsText_expand`).

What holds of the result is proved along the rules. Looking at a line puts out one line at most, the
line itself or the one for the label of a call, so that the lines for labels, which no limit counts,
are paid for by the lines of bodies that make the calls (`Grows.lines`). All that a source line
leads to carries its number; and the flags of an expansion are set by the reports they stand for, so
that what they count is how often a flag was set (`Grows.tooDeep`, `Grows.tooLong`).
-/

namespace Asm6502

/-- The diagnostic says that calls are nested too deep. -/
def Diagnostic.isTooDeep (diagnostic : Diagnostic) : Bool :=
  match diagnostic.cause with
  | .macroTooDeep _ => true
  | _ => false

/-- The diagnostic says that calls expand to too many lines. -/
def Diagnostic.isTooLong (diagnostic : Diagnostic) : Bool := diagnostic.cause == .macroTooLong

namespace Macro

open Expansion

/-! ### The rules of expansion -/

mutual

/-- From one expansion to another by expanding a line within `depth` calls, with so many lines
looked at. -/
inductive RunsLine (library : Library) (number : Nat) :
    (depth : Nat) → Expansion → String → (steps : Nat) → Expansion → Prop where
  /-- A line that makes no call is put out. -/
  | plain {depth : Nat} {before : Expansion} {line : String}
      (other : call? library line.toList = none) :
      RunsLine library number depth before line 1 (before.emit number line)
  /-- A call within too many others is refused. -/
  | tooDeep {depth : Nat} {before : Expansion} {line : String} {call : Call}
      (calls : call? library line.toList = some call) (deep : maxMacroDepth ≤ depth) :
      RunsLine library number depth before line 1 (before.reportTooDeep number call.name)
  /-- Any other call is replaced by its label and the lines of the body. -/
  | call {depth steps : Nat} {before after : Expansion} {line : String} {call : Call}
      (calls : call? library line.toList = some call) (shallow : depth < maxMacroDepth)
      (body : RunsBody library number (depth + 1) (before.emitLabel number call.label)
        (bodyOf library call) steps after) :
      RunsLine library number depth before line (steps + 1) after

/-- From one expansion to another by expanding lines of a body, with so many lines looked at. -/
inductive RunsBody (library : Library) (number : Nat) :
    (depth : Nat) → Expansion → List String → (steps : Nat) → Expansion → Prop where
  /-- There is no line left. -/
  | done {depth : Nat} {before : Expansion} : RunsBody library number depth before [] 0 before
  /-- When too many lines were expanded, the rest of the body is left out. -/
  | tooLong {depth : Nat} {before : Expansion} {line : String} {lines : List String}
      (full : maxMacroLines ≤ before.expanded) :
      RunsBody library number depth before (line :: lines) 0 (before.reportTooLong number)
  /-- A line is counted and expanded, and then the lines after it. -/
  | next {depth steps steps' : Nat} {before middle after : Expansion} {line : String}
      {lines : List String} (room : before.expanded < maxMacroLines)
      (first : RunsLine library number depth { before with expanded := before.expanded + 1 } line
        steps middle)
      (rest : RunsBody library number depth middle lines steps' after) :
      RunsBody library number depth before (line :: lines) (steps + steps') after

end

/-- From one expansion to another by expanding the lines of a source text that are not part of a
definition, with so many lines looked at. -/
inductive RunsText : List Site → Expansion → (steps : Nat) → Expansion → Prop where
  /-- There is no line left. -/
  | done {before : Expansion} : RunsText [] before 0 before
  /-- A definition is remarked on. -/
  | remark {sites : List Site} {before middle after : Expansion} {steps : Nat}
      (remarked : before.Remarked middle) (rest : RunsText sites middle steps after) :
      RunsText sites before steps after
  /-- A line is expanded, and then the lines after it. -/
  | line {site : Site} {sites : List Site} {before middle after : Expansion} {steps steps' : Nat}
      (first : RunsLine site.library site.line.number 0 { before with tooDeep := false }
        site.line.text steps middle)
      (rest : RunsText sites middle steps' after) :
      RunsText (site :: sites) before (steps + steps') after

/-! ### The rules lead to a result -/

section Ends

variable {library : Library} {number room depth : Nat}

theorem expanded_reportTooLong (expansion : Expansion) :
    (expansion.reportTooLong number).expanded = expansion.expanded := by
  unfold reportTooLong
  split <;> rfl

theorem tooLong_reportTooLong (expansion : Expansion) :
    (expansion.reportTooLong number).tooLong = true := by
  unfold reportTooLong
  split
  · assumption
  · rfl

/-- Lines that find too many lines expanded, and that reported, change nothing. -/
theorem foldl_expandBodyLine_of_full {expansion : Expansion} (lines : List String)
    (full : maxMacroLines ≤ expansion.expanded) (reported : expansion.tooLong = true) :
    lines.foldl (expandBodyLine library number room) expansion = expansion := by
  induction lines with
  | nil => rfl
  | cons line lines ih =>
    have same : expandBodyLine library number room expansion line = expansion := by
      rw [expandBodyLine, if_pos full, reportTooLong, if_pos reported]
    rw [List.foldl_cons, same, ih]

/-- If the rules lead to a result for single lines, then also for the lines of a body. -/
theorem exists_runsBody
    (each : ∀ (expansion : Expansion) (line : String), ∃ steps,
      RunsLine library number depth expansion line steps
        (expandLine library number room expansion line))
    (expansion : Expansion) (lines : List String) :
    ∃ steps, RunsBody library number depth expansion lines steps
      (lines.foldl (expandBodyLine library number room) expansion) := by
  induction lines generalizing expansion with
  | nil => exact ⟨0, .done⟩
  | cons line lines ih =>
    rw [List.foldl_cons]
    by_cases full : maxMacroLines ≤ expansion.expanded
    · refine ⟨0, ?_⟩
      rw [expandBodyLine, if_pos full, foldl_expandBodyLine_of_full]
      · exact .tooLong full
      · rw [expanded_reportTooLong]
        exact full
      · exact tooLong_reportTooLong expansion
    · obtain ⟨steps, first⟩ := each { expansion with expanded := expansion.expanded + 1 } line
      obtain ⟨steps', rest⟩ := ih (expandBodyLine library number room expansion line)
      rw [expandBodyLine, if_neg full] at rest ⊢
      exact ⟨steps + steps', .next (Nat.lt_of_not_le full) first rest⟩

/-- **The expansion of a line ends**, with the result that `expandLine` gives. -/
theorem exists_runsLine (library : Library) (number : Nat) (within : depth + room = maxMacroDepth)
    (expansion : Expansion) (line : String) :
    ∃ steps, RunsLine library number depth expansion line steps
      (expandLine library number room expansion line) := by
  induction room generalizing depth expansion line with
  | zero =>
    cases calls : call? library line.toList with
    | none =>
      rw [expandLine_of_plain calls, ← emit_eq_extended]
      exact ⟨1, .plain calls⟩
    | some call =>
      rw [expandLine_of_call_zero calls]
      exact ⟨1, .tooDeep calls (by omega)⟩
  | succ room ih =>
    cases calls : call? library line.toList with
    | none =>
      rw [expandLine_of_plain calls, ← emit_eq_extended]
      exact ⟨1, .plain calls⟩
    | some call =>
      have deeper : depth + 1 + room = maxMacroDepth := by omega
      obtain ⟨steps, body⟩ := exists_runsBody (ih deeper)
        (expansion.emitLabel number call.label) (bodyOf library call)
      rw [expandLine_of_call calls, ← emitLabel_eq_extended]
      exact ⟨steps + 1, .call calls (by omega) body⟩

/-- The expansion of the lines of a text ends, with the result that the steps of `expand` give. -/
theorem exists_runsText (library : Library) (lines : List SourceLine) (expansion : Expansion) :
    ∃ steps, RunsText (sites library lines) expansion steps
      (lines.foldl State.step ⟨library, none, expansion⟩).finish := by
  fun_induction sites library lines generalizing expansion with
  | case1 library => exact ⟨0, .done⟩
  | case2 library line lines plain ih =>
    obtain ⟨steps, first⟩ := exists_runsLine library line.number (Nat.zero_add maxMacroDepth)
      { expansion with tooDeep := false } line.text
    obtain ⟨steps', rest⟩ := ih (expandLine library line.number maxMacroDepth
      { expansion with tooDeep := false } line.text)
    rw [List.foldl_cons, step_of_not_opens plain]
    exact ⟨steps + steps', .line first rest⟩
  | case3 library line lines name opens unclosed =>
    rw [foldl_step_opens opens, unclosed, List.foldl_nil]
    exact ⟨0, .remark (finish_remarked ..) .done⟩
  | case4 library line lines name opens last rest closed ih =>
    obtain ⟨remarked, remark, folded⟩ := foldl_step_definition opens closed
    rw [folded]
    obtain ⟨steps, runs⟩ := ih remarked
    exact ⟨steps, .remark remark runs⟩

end Ends

/-! ### What grows along the rules -/

namespace Expansion

/-- The places of the calls that were reported as nested too deep. -/
def deepPlaces (expansion : Expansion) : List (Option Position) :=
  (expansion.diagnostics.toList.filter (·.isTooDeep)).map (·.position)

/-- How often it was reported that there are too many lines. -/
def longReports (expansion : Expansion) : Nat :=
  (expansion.diagnostics.toList.filter (·.isTooLong)).length

/-- What becomes of an expansion while a source line with the given number is expanded, with so many
lines looked at. -/
structure Grows (number steps : Nat) (before after : Expansion) : Prop where
  /-- Lines with the number are added, not more than were looked at. -/
  lines : ∃ texts : List String, texts.length ≤ steps ∧
    after.lines.toList = before.lines.toList ++ texts.map (⟨number, ·⟩)
  /-- There are never more lines of bodies than permitted. -/
  fits : before.expanded ≤ maxMacroLines → after.expanded ≤ maxMacroLines
  /-- A report of calls nested too deep sets the flag that prevents another one. -/
  tooDeep : ∃ reports : Nat,
    after.deepPlaces = before.deepPlaces ++ List.replicate reports (some ⟨number, 1⟩) ∧
      before.tooDeep.toNat + reports = after.tooDeep.toNat
  /-- A report of too many lines sets the flag that prevents another one. -/
  tooLong : after.longReports + before.tooLong.toNat = before.longReports + after.tooLong.toNat

variable {number steps steps' : Nat} {before middle after : Expansion}

theorem deepPlaces_report (expansion : Expansion) (cause : Cause) (position : Position) :
    (expansion.report cause position).deepPlaces =
      expansion.deepPlaces ++
        if Diagnostic.isTooDeep ⟨cause, some position⟩ then [some position] else [] := by
  simp only [deepPlaces, report, Array.toList_push, List.filter_append, List.map_append]
  congr 1
  split
  · rename_i deep
    rw [List.filter_cons_of_pos deep]
    rfl
  · rename_i other
    rw [List.filter_cons_of_neg other]
    rfl

theorem longReports_report (expansion : Expansion) (cause : Cause) (position : Position) :
    (expansion.report cause position).longReports =
      expansion.longReports + if Diagnostic.isTooLong ⟨cause, some position⟩ then 1 else 0 := by
  simp only [longReports, report, Array.toList_push, List.filter_append, List.length_append]
  congr 1
  split
  · rename_i long
    rw [List.filter_cons_of_pos long]
    rfl
  · rename_i other
    rw [List.filter_cons_of_neg other]
    rfl

namespace Grows

theorem refl (number : Nat) (expansion : Expansion) : Grows number 0 expansion expansion where
  lines := ⟨[], Nat.le_refl _, by simp⟩
  fits := id
  tooDeep := ⟨0, by simp, rfl⟩
  tooLong := rfl

theorem trans (first : Grows number steps before middle)
    (second : Grows number steps' middle after) :
    Grows number (steps + steps') before after where
  lines := by
    obtain ⟨texts, short, added⟩ := first.lines
    obtain ⟨texts', short', added'⟩ := second.lines
    refine ⟨texts ++ texts', ?_, ?_⟩
    · rw [List.length_append]
      omega
    · rw [added', added, List.map_append, List.append_assoc]
  fits := fun fits => second.fits (first.fits fits)
  tooDeep := by
    obtain ⟨reports, added, flag⟩ := first.tooDeep
    obtain ⟨reports', added', flag'⟩ := second.tooDeep
    refine ⟨reports + reports', ?_, by omega⟩
    rw [added', added, List.append_assoc, List.replicate_append_replicate]
  tooLong := by
    have counted := first.tooLong
    have counted' := second.tooLong
    omega

theorem emit (expansion : Expansion) (text : String) :
    Grows number 1 expansion (expansion.emit number text) where
  lines := ⟨[text], Nat.le_refl _, by simp [Expansion.emit]⟩
  fits := id
  tooDeep := ⟨0, by simp [deepPlaces, Expansion.emit], rfl⟩
  tooLong := rfl

theorem emitLabel (expansion : Expansion) (label : Option String) :
    Grows number 1 expansion (expansion.emitLabel number label) := by
  cases label with
  | none =>
    obtain ⟨_, fits, tooDeep, tooLong⟩ := refl number expansion
    exact ⟨⟨[], Nat.zero_le _, by simp [Expansion.emitLabel]⟩, fits, tooDeep, tooLong⟩
  | some label => exact emit expansion (label ++ " EQU *")

theorem count (expansion : Expansion) (room : expansion.expanded < maxMacroLines) :
    Grows number 0 expansion { expansion with expanded := expansion.expanded + 1 } where
  lines := ⟨[], Nat.le_refl _, by simp⟩
  fits := fun _ => room
  tooDeep := ⟨0, by simp [deepPlaces], rfl⟩
  tooLong := rfl

theorem reportTooDeep (expansion : Expansion) (name : Name) :
    Grows number 0 expansion (expansion.reportTooDeep number name) := by
  unfold Expansion.reportTooDeep
  split
  · exact refl number expansion
  · rename_i unset
    refine ⟨⟨[], Nat.le_refl _, by simp [report]⟩, id, ⟨1, ?_, ?_⟩, ?_⟩
    · exact deepPlaces_report expansion (.macroTooDeep name) ⟨number, 1⟩
    · simp [unset]
    · exact congrArg (· + _) (longReports_report expansion (.macroTooDeep name) ⟨number, 1⟩)

theorem reportTooLong (expansion : Expansion) :
    Grows number 0 expansion (expansion.reportTooLong number) := by
  unfold Expansion.reportTooLong
  split
  · exact refl number expansion
  · rename_i unset
    refine ⟨⟨[], Nat.le_refl _, by simp [report]⟩, id, ⟨0, ?_, rfl⟩, ?_⟩
    · exact deepPlaces_report expansion .macroTooLong ⟨number, 1⟩
    · rw [Bool.eq_false_iff.mpr unset]
      exact longReports_report expansion .macroTooLong ⟨number, 1⟩

theorem mono (grows : Grows number steps before after) (le : steps ≤ steps') :
    Grows number steps' before after := by
  obtain ⟨texts, short, added⟩ := grows.lines
  exact ⟨⟨texts, Nat.le_trans short le, added⟩, grows.fits, grows.tooDeep, grows.tooLong⟩

end Grows

end Expansion

mutual

/-- What the rules do to an expansion; each line of a body that is looked at is counted. -/
theorem RunsLine.grows {library : Library} {number depth steps : Nat} {before after : Expansion}
    {line : String} (runs : RunsLine library number depth before line steps after) :
    Grows number steps before after ∧ after.expanded + 1 = before.expanded + steps := by
  match runs with
  | .plain other => exact ⟨.emit before line, rfl⟩
  | @RunsLine.tooDeep _ _ _ _ _ call calls deep =>
    refine ⟨(Grows.reportTooDeep before call.name).mono (Nat.zero_le _), ?_⟩
    unfold reportTooDeep
    split <;> rfl
  | @RunsLine.call _ _ _ steps _ _ _ call calls shallow body =>
    obtain ⟨grows, counted⟩ := body.grows
    refine ⟨?_, ?_⟩
    · rw [Nat.add_comm steps 1]
      exact (Grows.emitLabel before call.label).trans grows
    · rw [counted]
      cases call.label <;> rfl

theorem RunsBody.grows {library : Library} {number depth steps : Nat} {before after : Expansion}
    {lines : List String} (runs : RunsBody library number depth before lines steps after) :
    Grows number steps before after ∧ after.expanded = before.expanded + steps := by
  match runs with
  | .done => exact ⟨.refl number before, rfl⟩
  | .tooLong full => exact ⟨.reportTooLong before, expanded_reportTooLong before⟩
  | @RunsBody.next _ _ _ steps steps' _ _ _ _ _ room first rest =>
    obtain ⟨grows, counted⟩ := first.grows
    obtain ⟨grows', counted'⟩ := rest.grows
    simp only at counted
    have both := (Grows.count before room).trans (grows.trans grows')
    rw [Nat.zero_add] at both
    exact ⟨both, by omega⟩

end

/-- A line that makes no call is not reported. -/
theorem RunsLine.deepPlaces_of_plain {library : Library} {number depth steps : Nat}
    {before after : Expansion} {line : String}
    (runs : RunsLine library number depth before line steps after)
    (other : call? library line.toList = none) : after.deepPlaces = before.deepPlaces := by
  cases runs with
  | plain _ => rfl
  | tooDeep calls _ => rw [other] at calls; cases calls
  | call calls _ _ => rw [other] at calls; cases calls

namespace Expansion.Remarked

variable {before after : Expansion}

theorem deepPlaces_eq (remarked : Remarked before after) :
    after.deepPlaces = before.deepPlaces := by
  rcases remarked with rfl | ⟨cause, position, kind, rfl⟩
  · rfl
  · have other : Diagnostic.isTooDeep ⟨cause, some position⟩ = false := by
      cases cause with
      | macroTooDeep name => exact absurd rfl kind
      | _ => rfl
    rw [deepPlaces_report, other]
    exact List.append_nil _

theorem longReports_eq (remarked : Remarked before after) :
    after.longReports = before.longReports ∧ after.tooLong = before.tooLong := by
  rcases remarked with rfl | ⟨cause, position, kind, rfl⟩
  · exact ⟨rfl, rfl⟩
  · have other : Diagnostic.isTooLong ⟨cause, some position⟩ = false := by
      cases cause with
      | macroTooLong => exact absurd rfl kind
      | _ => rfl
    rw [longReports_report, other]
    exact ⟨rfl, rfl⟩

end Expansion.Remarked

/-! ### Whole texts -/

/-- The line calls a macro. -/
def Site.isCall (site : Site) : Bool := (call? site.library site.line.text.toList).isSome

/-- The place at which the calls of a line are reported. -/
def Site.place (site : Site) : Option Position := some ⟨site.line.number, 1⟩

namespace RunsText

variable {sites : List Site} {before after : Expansion} {steps : Nat}

/-- The source lines and the lines of bodies are what is looked at. -/
theorem steps_eq (runs : RunsText sites before steps after) :
    after.expanded + sites.length = before.expanded + steps ∧
      (before.expanded ≤ maxMacroLines → after.expanded ≤ maxMacroLines) := by
  induction runs with
  | done => exact ⟨rfl, id⟩
  | remark remarked _ ih =>
    rw [← remarked.expanded_eq]
    exact ih
  | line first _ ih =>
    obtain ⟨grows, counted⟩ := first.grows
    refine ⟨?_, fun fits => ih.2 (grows.fits fits)⟩
    rw [List.length_cons]
    simp only at counted
    omega

/-- The output follows the source lines, each line under the number of its source line. -/
theorem lines (runs : RunsText sites before steps after)
    (ordered : sites.Pairwise (·.line.number < ·.line.number)) :
    ∃ output : List SourceLine, after.lines.toList = before.lines.toList ++ output ∧
      output.length ≤ steps ∧ output.Pairwise (·.number ≤ ·.number) ∧
      ∀ line ∈ output, ∃ site ∈ sites, line.number = site.line.number := by
  induction runs with
  | done => exact ⟨[], by simp, Nat.le_refl _, .nil, by simp⟩
  | remark remarked _ ih =>
    rw [← remarked.lines_eq]
    exact ih ordered
  | @line site sites before middle after steps steps' first _ ih =>
    obtain ⟨above, ordered⟩ := List.pairwise_cons.mp ordered
    obtain ⟨texts, short, added⟩ := first.grows.1.lines
    obtain ⟨output, added', short', sorted, numbered⟩ := ih ordered
    refine ⟨texts.map (⟨site.line.number, ·⟩) ++ output, ?_, ?_, ?_, ?_⟩
    · rw [added', added, List.append_assoc]
    · rw [List.length_append, List.length_map]
      omega
    · -- within the first part the numbers are the same, and those after it are larger
      refine List.pairwise_append.mpr ⟨?_, sorted, ?_⟩
      · rw [List.pairwise_map]
        exact List.pairwise_of_forall fun _ _ => Nat.le_refl _
      · intro line mem line' mem'
        obtain ⟨text, -, rfl⟩ := List.mem_map.mp mem
        obtain ⟨site', listed, same⟩ := numbered line' mem'
        rw [same]
        exact Nat.le_of_lt (above site' listed)
    · intro line mem
      rcases List.mem_append.mp mem with here | later
      · obtain ⟨text, -, rfl⟩ := List.mem_map.mp here
        exact ⟨site, List.mem_cons_self, rfl⟩
      · obtain ⟨site', listed, same⟩ := numbered line later
        exact ⟨site', List.mem_cons_of_mem _ listed, same⟩

/-- A source line is reported as nested too deep at most once, and only if it is a call. -/
theorem deepPlaces_sublist (runs : RunsText sites before steps after) :
    ∃ places, after.deepPlaces = before.deepPlaces ++ places ∧
      List.Sublist places ((sites.filter (·.isCall)).map (·.place)) := by
  induction runs with
  | done => exact ⟨[], by simp, .slnil⟩
  | remark remarked _ ih =>
    rw [← remarked.deepPlaces_eq]
    exact ih
  | @line site sites before middle after steps steps' first _ ih =>
    obtain ⟨places, added', part⟩ := ih
    cases calls : call? site.library site.line.text.toList with
    | none =>
      have idle : ¬ site.isCall = true := by simp [Site.isCall, calls]
      have same : middle.deepPlaces = before.deepPlaces := first.deepPlaces_of_plain calls
      rw [List.filter_cons_of_neg idle]
      exact ⟨places, same ▸ added', part⟩
    | some call =>
      have isCall : site.isCall = true := by simp [Site.isCall, calls]
      obtain ⟨reports, added, flag⟩ := first.grows.1.tooDeep
      have once : reports ≤ 1 := by
        have set := Bool.toNat_le middle.tooDeep
        simp only [Bool.toNat_false] at flag
        omega
      refine ⟨List.replicate reports site.place ++ places, ?_, ?_⟩
      · rw [added', added, List.append_assoc]
        rfl
      · rw [List.filter_cons_of_pos isCall, List.map_cons]
        exact ((List.replicate_sublist_replicate site.place).mpr once).append part

/-- Too many lines are reported once for each time that the flag was set. -/
theorem longReports_eq (runs : RunsText sites before steps after) :
    after.longReports + before.tooLong.toNat = before.longReports + after.tooLong.toNat := by
  induction runs with
  | done => rfl
  | remark remarked _ ih =>
    rw [← remarked.longReports_eq.1, ← remarked.longReports_eq.2]
    exact ih
  | @line site sites before middle after steps steps' first _ ih =>
    have counted : middle.longReports + before.tooLong.toNat =
        before.longReports + middle.tooLong.toNat := first.grows.1.tooLong
    omega

end RunsText

/-- **The expansion of a text ends**, with the result that `expand` gives. -/
theorem runsText_expand (source : String) :
    ∃ steps final, RunsText (sites {} (Source.lines source)) {} steps final ∧
      expand source = (final.lines.toList, final.diagnostics.toList) := by
  obtain ⟨steps, runs⟩ := exists_runsText {} (Source.lines source) {}
  exact ⟨steps, _, runs, rfl⟩

/-- The lines that are not part of a definition are lines of the text, in their order. -/
theorem sites_sublist (library : Library) (lines : List SourceLine) :
    List.Sublist ((sites library lines).map (·.line)) lines := by
  fun_induction sites library lines with
  | case1 library => exact .slnil
  | case2 library line lines plain ih => exact ih.cons_cons line
  | case3 library line lines name opens unclosed => exact List.nil_sublist _
  | case4 library line lines name opens last rest closed ih =>
    have suffix : last :: rest <:+ lines := closed ▸ List.dropWhile_suffix _
    exact ((ih.cons last).trans suffix.sublist).cons line

theorem pairwise_sites (source : String) :
    (sites {} (Source.lines source)).Pairwise (·.line.number < ·.line.number) := by
  have ordered : ((sites {} (Source.lines source)).map (·.line)).Pairwise
      fun first second => first.number < second.number :=
    (Source.pairwise_number _).sublist (sites_sublist {} _)
  rw [List.pairwise_map] at ordered
  exact ordered

/-- **Macro expansion is bounded**. For any source text:

- The expander ends, after looking at no more lines than the text has and 100000.
- The output has no more lines than the text and 100000.
- The line numbers of the output do not decrease, and each is that of a source line that is not part
  of a definition.
- The calls reported as nested too deep are source lines that are not part of a definition, each
  reported once at most.
- That there are too many lines is reported once at most. -/
theorem expand_bounded (source : String) :
    let lines := Source.lines source
    let outside := sites {} lines
    (∃ steps final, RunsText outside {} steps final ∧ steps ≤ lines.length + 100000 ∧
        expand source = (final.lines.toList, final.diagnostics.toList)) ∧
      (expand source).1.length ≤ lines.length + 100000 ∧
      (expand source).1.Pairwise (·.number ≤ ·.number) ∧
      (∀ line ∈ (expand source).1, ∃ site ∈ outside,
        site.line ∈ lines ∧ line.number = site.line.number) ∧
      List.Sublist (((expand source).2.filter (·.isTooDeep)).map (·.position))
        ((outside.filter (·.isCall)).map (·.place)) ∧
      ((expand source).2.filter (·.isTooLong)).length ≤ 1 := by
  intro lines outside
  obtain ⟨steps, final, runs, result⟩ := runsText_expand source
  have listed : List.Sublist (outside.map (·.line)) lines := sites_sublist {} lines
  have bounded : steps ≤ lines.length + 100000 := by
    obtain ⟨counted, fits⟩ := runs.steps_eq
    have within : final.expanded ≤ 100000 := fits (Nat.zero_le _)
    have fewer : outside.length ≤ lines.length := by simpa using listed.length_le
    have looked : final.expanded + outside.length = 0 + steps := counted
    omega
  obtain ⟨output, added, short, sorted, numbered⟩ := runs.lines (pairwise_sites source)
  obtain ⟨places, reported, part⟩ := runs.deepPlaces_sublist
  have put : (expand source).1 = output := by rw [result]; exact added
  have deep : ((expand source).2.filter (·.isTooDeep)).map (·.position) = places := by
    rw [result]
    exact reported
  refine ⟨⟨steps, final, runs, bounded, result⟩, ?_, put ▸ sorted, ?_, deep ▸ part, ?_⟩
  · rw [put]
    exact Nat.le_trans short bounded
  · intro line mem
    obtain ⟨site, outside, same⟩ := numbered line (put ▸ mem)
    exact ⟨site, outside, listed.subset (List.mem_map_of_mem outside), same⟩
  · rw [result]
    have counted : final.longReports + 0 = 0 + final.tooLong.toNat := runs.longReports_eq
    have once := Bool.toNat_le final.tooLong
    show final.longReports ≤ 1
    omega

/-- A macro that calls itself with a label on the call. -/
def labelledLoop : String := "LOOP MACRO\nAGAIN LOOP\n NOP\n ENDM\n LOOP\n RTS\n"

/-- The loop puts out a line for each label and each `NOP`, and it is reported once. -/
theorem expand_bounded_labelledLoop :
    ((expand labelledLoop).1.length = 32 ∧ (Source.lines labelledLoop).length = 6 ∧
        (expand labelledLoop).1.length ≤ (Source.lines labelledLoop).length + 100000) ∧
      (⟨5, "AGAIN EQU *"⟩ ∈ (expand labelledLoop).1 ∧
        ∃ site ∈ sites {} (Source.lines labelledLoop),
          site.line ∈ Source.lines labelledLoop ∧ 5 = site.line.number) ∧
      ((expand labelledLoop).2.filter (·.isTooDeep)).map (·.position) = [some ⟨5, 1⟩] := by
  obtain ⟨-, short, -, outside, -, -⟩ := expand_bounded labelledLoop
  obtain ⟨length, listed, reported⟩ : (expand labelledLoop).1.length = 32 ∧
      ⟨5, "AGAIN EQU *"⟩ ∈ (expand labelledLoop).1 ∧
      ((expand labelledLoop).2.filter (·.isTooDeep)).map (·.position) = [some ⟨5, 1⟩] := by
    decide +kernel
  exact ⟨⟨length, by decide +kernel, short⟩, ⟨listed, outside _ listed⟩, reported⟩

end Macro

end Asm6502
