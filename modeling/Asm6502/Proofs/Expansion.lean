import Asm6502.Macro.Expansion
import Mathlib.Data.List.TakeWhile

/-!
# Macro expansion is complete unless reported

The full expansion of a line is the line itself if it makes no call, and else the line for the label
of the call and the full expansions of the lines of the body (`Expands`). It need not exist: a macro
may call itself. The expander stops at calls nested too deep and when too many lines were expanded,
and leaves out what is left; each of the two it reports once, the first for every call of the source
text, the second for the whole of it.

Here: if neither is reported, the output is the full expansion of the source lines that are not part
of a definition, and one of the two is reported exactly if some source line has no full expansion
within the permitted depth, or all of them together have too many lines (`expand_complete`). A flag
that says that something was reported is never wrong (`Expansion.Honest`), so an expansion that is
cut short is a reported one (`reported_or_fits`); within the limits nothing is cut short
(`expandLine_of_expands`).
-/

namespace Asm6502.Macro

/-! ### Full expansions -/

/-- The line for the label of a call. -/
def labelLine (label : Option String) : List String := (label.map (· ++ " EQU *")).toList

/-- The full expansion of lines under the macros of a library, with calls nested `depth` deep in it
and `size` lines of bodies expanded for it. -/
inductive Expands (library : Library) : List String → (depth size : Nat) → List String → Prop where
  /-- No lines have nothing to expand. -/
  | nil : Expands library [] 0 0 []
  /-- A line that makes no call stands for itself. -/
  | plain {line : String} {rest expanded : List String} {depth size : Nat}
      (other : call? library line.toList = none)
      (below : Expands library rest depth size expanded) :
      Expands library (line :: rest) depth size (line :: expanded)
  /-- A call stands for its label and the full expansion of the body. -/
  | call {line : String} {call : Call} {rest inner outer : List String}
      {depth size depth' size' : Nat} (calls : call? library line.toList = some call)
      (inside : Expands library (bodyOf library call) depth size inner)
      (below : Expands library rest depth' size' outer) :
      Expands library (line :: rest) (max (depth + 1) depth')
        ((bodyOf library call).length + size + size') (labelLine call.label ++ inner ++ outer)

namespace Expands

variable {library : Library} {lines rest : List String} {depth size depth' size' : Nat}
  {expanded expanded' : List String}

theorem append (first : Expands library lines depth size expanded)
    (second : Expands library rest depth' size' expanded') :
    Expands library (lines ++ rest) (max depth depth') (size + size') (expanded ++ expanded') := by
  induction first with
  | nil => simpa using second
  | plain other _ ih => exact .plain other ih
  | call calls inside _ _ ih =>
    have both := Expands.call calls inside ih
    rw [← Nat.max_assoc, ← Nat.add_assoc, ← List.append_assoc] at both
    exact both

/-- Lines have one full expansion at most. -/
theorem unique (first : Expands library lines depth size expanded)
    (second : Expands library lines depth' size' expanded') :
    depth = depth' ∧ size = size' ∧ expanded = expanded' := by
  induction first generalizing depth' size' expanded' with
  | nil =>
    cases second
    exact ⟨rfl, rfl, rfl⟩
  | plain other _ ih =>
    cases second with
    | plain _ below =>
      obtain ⟨rfl, rfl, rfl⟩ := ih below
      exact ⟨rfl, rfl, rfl⟩
    | call calls => rw [other] at calls; cases calls
  | call calls _ _ ihInside ihBelow =>
    cases second with
    | plain other => rw [other] at calls; cases calls
    | call calls' inside below =>
      obtain rfl := Option.some.inj (calls.symm.trans calls')
      obtain ⟨rfl, rfl, rfl⟩ := ihInside inside
      obtain ⟨rfl, rfl, rfl⟩ := ihBelow below
      exact ⟨rfl, rfl, rfl⟩

end Expands

/-! ### Reports -/

namespace Expansion

/-- Calls were reported as nested too deep or expanded too far. -/
def Reported (expansion : Expansion) : Prop :=
  ∃ diagnostic ∈ expansion.diagnostics, diagnostic.kind = .macroRecursion

/-- What the flags say was reported was reported, and no more lines were expanded than permitted. -/
structure Honest (expansion : Expansion) : Prop where
  expanded : expansion.expanded ≤ maxMacroLines
  tooDeep : expansion.tooDeep = true → expansion.Reported
  tooLong : expansion.tooLong = true → expansion.Reported

/-- Lines added to an expansion, after `count` further lines of bodies were expanded. -/
def extended (expansion : Expansion) (number : Nat) (texts : List String) (count : Nat) :
    Expansion :=
  { expansion with
    lines := expansion.lines ++ (texts.map (⟨number, ·⟩ : String → SourceLine)).toArray
    expanded := expansion.expanded + count }

variable {expansion : Expansion} {number : Nat}

@[simp] theorem extended_nil : expansion.extended number [] 0 = expansion := by
  simp [extended]

theorem extended_extended (first second : List String) (count count' : Nat) :
    (expansion.extended number first count).extended number second count' =
      expansion.extended number (first ++ second) (count + count') := by
  simp [extended, Nat.add_assoc]

theorem emit_eq_extended (text : String) :
    expansion.emit number text = expansion.extended number [text] 0 := by
  simp [emit, extended]

theorem emitLabel_eq_extended (label : Option String) :
    expansion.emitLabel number label = expansion.extended number (labelLine label) 0 := by
  cases label with
  | none => exact extended_nil.symm
  | some label => exact emit_eq_extended _

theorem reported_extended {texts : List String} {count : Nat} :
    (expansion.extended number texts count).Reported ↔ expansion.Reported := Iff.rfl

theorem Honest.extended (honest : expansion.Honest) {texts : List String} {count : Nat}
    (fits : expansion.expanded + count ≤ maxMacroLines) :
    (expansion.extended number texts count).Honest :=
  ⟨fits, honest.tooDeep, honest.tooLong⟩

theorem reported_report {cause : Cause} {position : Position} :
    (expansion.report cause position).Reported ↔
      expansion.Reported ∨ cause.kind = .macroRecursion := by
  simp only [Reported, report, Array.mem_push, or_and_right, exists_or, exists_eq_left]
  rfl

theorem Reported.reportTooDeep (reported : expansion.Reported) (name : Name) :
    (expansion.reportTooDeep number name).Reported := by
  unfold Expansion.reportTooDeep
  split
  · exact reported
  · exact reported_report.mpr (.inl reported)

theorem Reported.reportTooLong (reported : expansion.Reported) :
    (expansion.reportTooLong number).Reported := by
  unfold Expansion.reportTooLong
  split
  · exact reported
  · exact reported_report.mpr (.inl reported)

theorem Honest.reported_tooDeep (honest : expansion.Honest) (name : Name) :
    (expansion.reportTooDeep number name).Reported := by
  unfold Expansion.reportTooDeep
  split
  · exact honest.tooDeep (by assumption)
  · exact reported_report.mpr (.inr rfl)

theorem Honest.reported_tooLong (honest : expansion.Honest) :
    (expansion.reportTooLong number).Reported := by
  unfold Expansion.reportTooLong
  split
  · exact honest.tooLong (by assumption)
  · exact reported_report.mpr (.inr rfl)

end Expansion

/-! ### Lines of bodies -/

open Expansion

/-- Expand a line of a body, if there is room for one more. -/
def expandBodyLine (library : Library) (number room : Nat) (expansion : Expansion) (line : String) :
    Expansion :=
  if maxMacroLines ≤ expansion.expanded then expansion.reportTooLong number
  else
    expandLine library number room { expansion with expanded := expansion.expanded + 1 } line

section Lines

variable {library : Library} {number room : Nat} {line : String} {expansion : Expansion}

theorem expandLine_of_plain (other : call? library line.toList = none) :
    expandLine library number room expansion line = expansion.extended number [line] 0 := by
  cases room <;> simp only [expandLine, other, emit_eq_extended]

theorem expandLine_of_call_zero {call : Call} (calls : call? library line.toList = some call) :
    expandLine library number 0 expansion line = expansion.reportTooDeep number call.name := by
  simp only [expandLine, calls]

theorem expandLine_of_call {call : Call} (calls : call? library line.toList = some call) :
    expandLine library number (room + 1) expansion line =
      (bodyOf library call).foldl (expandBodyLine library number room)
        (expansion.extended number (labelLine call.label) 0) := by
  simp only [expandLine, calls, emitLabel_eq_extended]
  rfl

theorem expandBodyLine_of_lt (fits : expansion.expanded < maxMacroLines) :
    expandBodyLine library number room expansion line =
      expandLine library number room (expansion.extended number [] 1) line := by
  have room' : ¬ maxMacroLines ≤ expansion.expanded := by omega
  simp [expandBodyLine, room', extended]

/-! ### Within the limits -/

/-- Lines of a body that have a full expansion within the limits are fully expanded. -/
theorem foldl_of_expands {lines expanded : List String} {depth size : Nat}
    (expands : Expands library lines depth size expanded) (shallow : depth ≤ room)
    (fits : expansion.expanded + (lines.length + size) ≤ maxMacroLines) :
    lines.foldl (expandBodyLine library number room) expansion =
      expansion.extended number expanded (lines.length + size) := by
  induction expands generalizing room expansion with
  | nil => exact extended_nil.symm
  | plain other _ ih =>
    simp only [List.length_cons] at fits
    rw [List.foldl_cons, expandBodyLine_of_lt (by omega), expandLine_of_plain other,
      extended_extended, ih shallow (by simp only [extended]; omega), extended_extended]
    congr 1
    simp only [List.length_cons]
    omega
  | call calls _ _ ihInside ihBelow =>
    simp only [List.length_cons] at fits
    -- the call takes one level of the room
    obtain ⟨room, rfl⟩ : ∃ inner, room = inner + 1 := ⟨room - 1, by omega⟩
    rw [List.foldl_cons, expandBodyLine_of_lt (by omega), expandLine_of_call calls,
      extended_extended, ihInside (by omega) (by simp only [extended]; omega), extended_extended,
      ihBelow (by omega) (by simp only [extended]; omega), extended_extended]
    congr 1
    simp only [List.length_cons]
    omega

/-- **Within the limits** a line is fully expanded, and nothing is reported. -/
theorem expandLine_of_expands {expanded : List String} {depth size : Nat}
    (expands : Expands library [line] depth size expanded) (shallow : depth ≤ room)
    (fits : expansion.expanded + size ≤ maxMacroLines) :
    expandLine library number room expansion line = expansion.extended number expanded size := by
  cases expands with
  | plain other below =>
    cases below
    exact expandLine_of_plain other
  | call calls inside below =>
    cases below
    obtain ⟨room, rfl⟩ : ∃ inner, room = inner + 1 := ⟨room - 1, by omega⟩
    rw [expandLine_of_call calls,
      foldl_of_expands inside (by omega) (by simp only [extended]; omega), extended_extended]
    congr 1
    · simp
    · omega

/-! ### Beyond the limits -/

/-- What was reported stays reported. -/
theorem Expansion.Reported.foldl {step : Expansion → String → Expansion}
    (reported : expansion.Reported)
    (keeps : ∀ expansion line, expansion.Reported → (step expansion line).Reported)
    (lines : List String) : (lines.foldl step expansion).Reported := by
  induction lines generalizing expansion with
  | nil => exact reported
  | cons line lines ih => exact ih (keeps expansion line reported)

theorem Expansion.Reported.expandBodyLine (reported : expansion.Reported)
    (keeps : ∀ expansion, expansion.Reported →
      (expandLine library number room expansion line).Reported) :
    (expandBodyLine library number room expansion line).Reported := by
  by_cases full : maxMacroLines ≤ expansion.expanded
  · simp only [Macro.expandBodyLine, full, if_true]
    exact reported.reportTooLong
  · rw [expandBodyLine_of_lt (by omega)]
    exact keeps _ (reported_extended.mpr reported)

theorem Expansion.Reported.expandLine (reported : expansion.Reported) :
    (expandLine library number room expansion line).Reported := by
  induction room generalizing expansion line with
  | zero =>
    cases calls : call? library line.toList with
    | none => rwa [expandLine_of_plain calls]
    | some call =>
      rw [expandLine_of_call_zero calls]
      exact reported.reportTooDeep call.name
  | succ room ih =>
    cases calls : call? library line.toList with
    | none => rwa [expandLine_of_plain calls]
    | some call =>
      rw [expandLine_of_call calls]
      refine (reported_extended.mpr reported).foldl (fun _ _ reported => ?_) _
      exact reported.expandBodyLine fun _ => ih

/-- Lines have a full expansion within the limits, when `count` lines were expanded before. -/
def Fits (library : Library) (room count : Nat) (lines : List String) : Prop :=
  ∃ depth size expanded, Expands library lines depth size expanded ∧ depth ≤ room ∧
    count + size ≤ maxMacroLines

/-- If single lines that do not fit are reported, then so are the lines of a body. -/
theorem reported_or_fits_foldl
    (each : ∀ {expansion line}, expansion.Honest →
      (expandLine library number room expansion line).Reported ∨
        Fits library room expansion.expanded [line])
    (honest : expansion.Honest) (lines : List String) :
    (lines.foldl (expandBodyLine library number room) expansion).Reported ∨
      Fits library room (expansion.expanded + lines.length) lines := by
  induction lines generalizing expansion with
  | nil => exact .inr ⟨0, 0, [], .nil, Nat.zero_le _, honest.expanded⟩
  | cons line lines ih =>
    have keeps (expansion : Expansion) (line : String) (reported : expansion.Reported) :
        (expandBodyLine library number room expansion line).Reported :=
      reported.expandBodyLine fun _ => Reported.expandLine
    rw [List.foldl_cons]
    by_cases full : maxMacroLines ≤ expansion.expanded
    · left
      refine Reported.foldl ?_ keeps lines
      simp only [expandBodyLine, full, if_true]
      exact honest.reported_tooLong
    · have counted : (expansion.extended number [] 1).Honest := honest.extended (by omega)
      rw [expandBodyLine_of_lt (by omega)]
      rcases each counted with reported | ⟨depth, size, expanded, expands, shallow, fits⟩
      · exact .inl (reported.foldl keeps lines)
      · rw [expandLine_of_expands expands shallow fits]
        rcases ih (counted.extended fits) with
          reported | ⟨depth', size', expanded', below, shallow', fits'⟩
        · exact .inl reported
        · refine .inr ⟨_, _, _, expands.append below, by omega, ?_⟩
          simp only [extended, List.length_cons] at fits' ⊢
          omega

/-- **An expansion that is cut short is reported**: a line is reported, or it has a full expansion
within the limits. -/
theorem reported_or_fits (honest : expansion.Honest) :
    (expandLine library number room expansion line).Reported ∨
      Fits library room expansion.expanded [line] := by
  induction room generalizing expansion line with
  | zero =>
    cases calls : call? library line.toList with
    | none => exact .inr ⟨0, 0, [line], .plain calls .nil, Nat.le_refl _, honest.expanded⟩
    | some call =>
      rw [expandLine_of_call_zero calls]
      exact .inl (honest.reported_tooDeep call.name)
  | succ room ih =>
    cases calls : call? library line.toList with
    | none => exact .inr ⟨0, 0, [line], .plain calls .nil, Nat.zero_le _, honest.expanded⟩
    | some call =>
      rw [expandLine_of_call calls]
      have labelled : (expansion.extended number (labelLine call.label) 0).Honest :=
        honest.extended honest.expanded
      rcases reported_or_fits_foldl ih labelled (bodyOf library call) with
        reported | ⟨depth, size, inner, inside, shallow, fits⟩
      · exact .inl reported
      · refine .inr ⟨_, _, _, .call calls inside .nil, by omega, ?_⟩
        simp only [extended] at fits
        omega

end Lines

/-! ### Source lines -/

/-- A source line that is not part of a definition, with the macros whose definitions end before
it. -/
structure Site where
  /-- The macros. -/
  library : Library
  /-- The line. -/
  line : SourceLine

/-- The definition of the macro `name` that `line` opens: its body goes to the next line that closes
a definition. -/
def definitionAt (line : SourceLine) (name : Name) (lines : List SourceLine) : Macro :=
  { name, body := (lines.takeWhile (!closes ·.text.toList)).map (·.text)
    position := ⟨line.number, 1⟩ }

/-- The lines of a source text that are not part of a definition. A definition goes from the line
that opens it to the next line that closes one, or to the end of the text; the last definition of a
name counts. -/
def sites : Library → List SourceLine → List Site
  | _, [] => []
  | library, line :: lines =>
    match opens? line.text.toList with
    | none => ⟨library, line⟩ :: sites library lines
    | some name =>
      match _ : lines.dropWhile (!closes ·.text.toList) with
      | [] => []
      | _ :: rest => sites (library.insert name (definitionAt line name lines)) rest
termination_by _ lines => lines.length
decreasing_by
  · simp
  · rename_i rest split
    have shorter := (List.dropWhile_suffix (!closes ·.text.toList) (l := lines)).length_le
    rw [split] at shorter
    simp only [List.length_cons] at shorter ⊢
    omega

/-- The full expansion of the lines of a source text. Its lines carry the numbers of the source
lines that they come from. -/
inductive ExpandsSites : List Site → (depth size : Nat) → List SourceLine → Prop where
  /-- No lines have nothing to expand. -/
  | nil : ExpandsSites [] 0 0 []
  /-- The lines are expanded one after the other, each under its macros. -/
  | cons {site : Site} {sites : List Site} {expanded : List String} {lines : List SourceLine}
      {depth size depth' size' : Nat}
      (here : Expands site.library [site.line.text] depth size expanded)
      (below : ExpandsSites sites depth' size' lines) :
      ExpandsSites (site :: sites) (max depth depth') (size + size')
        (expanded.map (⟨site.line.number, ·⟩) ++ lines)

theorem ExpandsSites.unique {sites : List Site} {depth size depth' size' : Nat}
    {lines lines' : List SourceLine} (first : ExpandsSites sites depth size lines)
    (second : ExpandsSites sites depth' size' lines') :
    depth = depth' ∧ size = size' ∧ lines = lines' := by
  induction first generalizing depth' size' lines' with
  | nil =>
    cases second
    exact ⟨rfl, rfl, rfl⟩
  | cons here _ ih =>
    cases second with
    | cons here' below =>
      obtain ⟨rfl, rfl, rfl⟩ := here.unique here'
      obtain ⟨rfl, rfl, rfl⟩ := ih below
      exact ⟨rfl, rfl, rfl⟩

/-- Every line has a part in the full expansion of all lines. -/
theorem ExpandsSites.exists_expands {sites : List Site} {depth size : Nat}
    {lines : List SourceLine} (expands : ExpandsSites sites depth size lines) {site : Site}
    (mem : site ∈ sites) :
    ∃ inner size expanded, Expands site.library [site.line.text] inner size expanded ∧
      inner ≤ depth := by
  induction expands with
  | nil => cases mem
  | cons here _ ih =>
    rcases List.mem_cons.mp mem with rfl | mem
    · exact ⟨_, _, _, here, by omega⟩
    · obtain ⟨inner, size, expanded, part, le⟩ := ih mem
      exact ⟨inner, size, expanded, part, by omega⟩

/-! ### Definitions -/

/-- An expansion with, perhaps, a remark that has nothing to do with the limits. -/
def Expansion.Remarked (expansion other : Expansion) : Prop :=
  other = expansion ∨
    ∃ cause position, cause.kind ≠ .macroRecursion ∧ other = expansion.report cause position

namespace Expansion.Remarked

variable {expansion other : Expansion}

theorem reported_iff (remarked : Remarked expansion other) :
    other.Reported ↔ expansion.Reported := by
  rcases remarked with rfl | ⟨cause, position, kind, rfl⟩
  · exact Iff.rfl
  · rw [reported_report]
    exact or_iff_left kind

theorem lines_eq (remarked : Remarked expansion other) : other.lines = expansion.lines := by
  rcases remarked with rfl | ⟨cause, position, -, rfl⟩ <;> rfl

theorem expanded_eq (remarked : Remarked expansion other) :
    other.expanded = expansion.expanded := by
  rcases remarked with rfl | ⟨cause, position, -, rfl⟩ <;> rfl

theorem honest (remarked : Remarked expansion other) (honest : expansion.Honest) :
    other.Honest := by
  refine ⟨remarked.expanded_eq ▸ honest.expanded, ?_, ?_⟩
  · intro flag
    refine remarked.reported_iff.mpr (honest.tooDeep ?_)
    rcases remarked with rfl | ⟨cause, position, -, rfl⟩ <;> exact flag
  · intro flag
    refine remarked.reported_iff.mpr (honest.tooLong ?_)
    rcases remarked with rfl | ⟨cause, position, -, rfl⟩ <;> exact flag

end Expansion.Remarked

section Definitions

variable {library : Library} {definition : Macro} {expansion : Expansion} {line : SourceLine}
  {lines rest : List SourceLine} {name : Name}

theorem define_eq (library : Library) (definition : Macro) (expansion : Expansion) :
    ∃ remarked, expansion.Remarked remarked ∧
      State.define ⟨library, some definition, expansion⟩ definition =
        ⟨library.insert definition.name definition, none, remarked⟩ := by
  unfold State.define
  cases library[definition.name]? with
  | none => exact ⟨_, .inl rfl, rfl⟩
  | some previous => exact ⟨_, .inr ⟨_, _, by simp [Cause.kind], rfl⟩, rfl⟩

theorem finish_remarked (library : Library) (expansion : Expansion) (open? : Option Macro) :
    expansion.Remarked (State.finish ⟨library, open?, expansion⟩) := by
  cases open? with
  | none => exact .inl rfl
  | some definition => exact .inr ⟨_, _, by simp [Cause.kind], rfl⟩

/-- Lines that close no definition belong to the one that is open. -/
theorem foldl_step_body (body : List SourceLine)
    (inside : ∀ line ∈ body, closes line.text.toList = false) :
    body.foldl State.step ⟨library, some definition, expansion⟩ =
      ⟨library, some { definition with body := definition.body ++ body.map (·.text) },
        expansion⟩ := by
  induction body generalizing definition with
  | nil => simp
  | cons line body ih =>
    have first : State.step ⟨library, some definition, expansion⟩ line =
        ⟨library, some { definition with body := definition.body ++ [line.text] }, expansion⟩ := by
      simp [State.step, inside line List.mem_cons_self]
    rw [List.foldl_cons, first, ih fun other mem => inside other (List.mem_cons_of_mem _ mem)]
    simp

theorem foldl_step_opens (opens : opens? line.text.toList = some name) :
    (line :: lines).foldl State.step ⟨library, none, expansion⟩ =
      (lines.dropWhile (!closes ·.text.toList)).foldl State.step
        ⟨library, some (definitionAt line name lines), expansion⟩ := by
  have first : State.step ⟨library, none, expansion⟩ line =
      ⟨library, some { name, position := ⟨line.number, 1⟩ }, expansion⟩ := by
    simp [State.step, opens]
  rw [List.foldl_cons, first]
  conv => lhs; rw [← List.takeWhile_append_dropWhile (p := (!closes ·.text.toList)) (l := lines)]
  rw [List.foldl_append, foldl_step_body]
  · rfl
  · intro line mem
    simpa using List.mem_takeWhile_imp mem

/-- A definition that is closed adds a macro and nothing else but perhaps a remark. -/
theorem foldl_step_definition (opens : opens? line.text.toList = some name) {last : SourceLine}
    (closed : lines.dropWhile (!closes ·.text.toList) = last :: rest) :
    ∃ remarked, expansion.Remarked remarked ∧
      (line :: lines).foldl State.step ⟨library, none, expansion⟩ =
        rest.foldl State.step
          ⟨library.insert name (definitionAt line name lines), none, remarked⟩ := by
  have closing : closes last.text.toList = true := by
    have stopped := List.head?_dropWhile_not (!closes ·.text.toList) lines
    rw [closed] at stopped
    simpa using stopped
  obtain ⟨remarked, remark, defined⟩ := define_eq library (definitionAt line name lines) expansion
  refine ⟨remarked, remark, ?_⟩
  rw [foldl_step_opens opens, closed, List.foldl_cons]
  simp only [State.step, closing, if_true, defined]
  rfl

theorem step_of_not_opens (plain : opens? line.text.toList = none) :
    State.step ⟨library, none, expansion⟩ line =
      ⟨library, none,
        expandLine library line.number maxMacroDepth { expansion with tooDeep := false }
          line.text⟩ := by
  simp [State.step, plain]

end Definitions

/-! ### Whole texts -/

theorem Expansion.Honest.restart {expansion : Expansion} (honest : expansion.Honest) :
    ({ expansion with tooDeep := false } : Expansion).Honest :=
  ⟨honest.expanded, fun flag => Bool.noConfusion flag, honest.tooLong⟩

/-- What was reported stays reported to the end of the text. -/
theorem Expansion.Reported.finish {state : State} (reported : state.expansion.Reported)
    (lines : List SourceLine) : (lines.foldl State.step state).finish.Reported := by
  induction lines generalizing state with
  | nil => exact (finish_remarked ..).reported_iff.mpr reported
  | cons line lines ih =>
    refine ih ?_
    obtain ⟨library, open?, expansion⟩ := state
    cases open? with
    | some definition =>
      by_cases closing : closes line.text.toList = true
      · obtain ⟨remarked, remark, defined⟩ := define_eq library definition expansion
        simp only [State.step, closing, if_true, defined]
        exact remark.reported_iff.mpr reported
      · simpa [State.step, closing] using reported
    | none =>
      have restarted : ({ expansion with tooDeep := false } : Expansion).Reported := reported
      cases opens : opens? line.text.toList with
      | none =>
        rw [step_of_not_opens opens]
        exact restarted.expandLine
      | some name => simpa [State.step, opens] using reported

/-- A text is reported, or its lines have a full expansion within the limits. -/
theorem reported_or_fits_sites (library : Library) (lines : List SourceLine)
    {expansion : Expansion} (honest : expansion.Honest) :
    (lines.foldl State.step ⟨library, none, expansion⟩).finish.Reported ∨
      ∃ depth size expanded, ExpandsSites (sites library lines) depth size expanded ∧
        depth ≤ maxMacroDepth ∧ expansion.expanded + size ≤ maxMacroLines := by
  fun_induction sites library lines generalizing expansion with
  | case1 library => exact .inr ⟨0, 0, [], .nil, Nat.zero_le _, honest.expanded⟩
  | case2 library line lines plain ih =>
    rw [List.foldl_cons, step_of_not_opens plain]
    rcases reported_or_fits honest.restart with
      reported | ⟨depth, size, expanded, here, shallow, fits⟩
    · exact .inl (reported.finish lines)
    · rw [expandLine_of_expands here shallow fits]
      rcases ih (honest.restart.extended fits) with
        reported | ⟨depth', size', expanded', below, shallow', fits'⟩
      · exact .inl reported
      · refine .inr ⟨_, _, _, .cons here below, by omega, ?_⟩
        simp only [extended] at fits'
        omega
  | case3 library line lines name opens unclosed =>
    exact .inr ⟨0, 0, [], .nil, Nat.zero_le _, honest.expanded⟩
  | case4 library line lines name opens last rest closed ih =>
    obtain ⟨remarked, remark, folded⟩ := foldl_step_definition opens closed
    rw [folded, ← remark.expanded_eq]
    exact ih (remark.honest honest)

/-- Within the limits the lines of a text are fully expanded, and the limits are not reported. -/
theorem finish_of_expandsSites {library : Library} {lines expanded : List SourceLine}
    {depth size : Nat} (expands : ExpandsSites (sites library lines) depth size expanded)
    {expansion : Expansion} (shallow : depth ≤ maxMacroDepth)
    (fits : expansion.expanded + size ≤ maxMacroLines) :
    (lines.foldl State.step ⟨library, none, expansion⟩).finish.lines =
        expansion.lines ++ expanded.toArray ∧
      ((lines.foldl State.step ⟨library, none, expansion⟩).finish.Reported ↔
        expansion.Reported) := by
  fun_induction sites library lines generalizing expansion depth size expanded with
  | case1 library =>
    cases expands
    exact ⟨by simp [State.finish], Iff.rfl⟩
  | case2 library line lines plain ih =>
    cases expands with
    | @cons _ _ inner rest depth size depth' size' here below =>
      have room : (({ expansion with tooDeep := false } : Expansion).extended line.number inner
          size).expanded + size' ≤ maxMacroLines := by
        simp only [extended]
        omega
      have ⟨output, reported⟩ := ih below (by omega) room
      rw [List.foldl_cons, step_of_not_opens plain,
        expandLine_of_expands here (by omega) (by simp only; omega)]
      refine ⟨?_, reported⟩
      rw [output]
      simp [extended]
  | case3 library line lines name opens unclosed =>
    cases expands
    have remark := finish_remarked library expansion (some (definitionAt line name lines))
    rw [foldl_step_opens opens, unclosed, List.foldl_nil]
    exact ⟨by simp [remark.lines_eq], remark.reported_iff⟩
  | case4 library line lines name opens last rest closed ih =>
    obtain ⟨remarked, remark, folded⟩ := foldl_step_definition opens closed
    rw [folded, ← remark.lines_eq, ← remark.reported_iff]
    exact ih expands shallow (remark.expanded_eq ▸ fits)

/-- Calls of a source text are reported as nested too deep or expanded too far. -/
def ReportsLimits (source : String) : Prop :=
  ∃ diagnostic ∈ (expand source).2, diagnostic.kind = .macroRecursion

/-- The full expansion of a line is infinite, or has calls nested more than 16 deep. -/
def Site.TooDeep (site : Site) : Prop :=
  ∀ depth size expanded, Expands site.library [site.line.text] depth size expanded → 16 < depth

/-- If no line is too deep, all of them have a full expansion that is not. -/
theorem exists_expandsSites {sites : List Site} (shallow : ∀ site ∈ sites, ¬ site.TooDeep) :
    ∃ depth size lines, ExpandsSites sites depth size lines ∧ depth ≤ 16 := by
  induction sites with
  | nil => exact ⟨0, 0, [], .nil, Nat.zero_le _⟩
  | cons site sites ih =>
    have first := shallow site List.mem_cons_self
    simp only [Site.TooDeep, not_forall, not_lt] at first
    obtain ⟨depth, size, expanded, here, le⟩ := first
    obtain ⟨depth', size', lines, below, le'⟩ :=
      ih fun other mem => shallow other (List.mem_cons_of_mem _ mem)
    exact ⟨_, _, _, .cons here below, by omega⟩

theorem reportsLimits_iff (source : String) :
    ReportsLimits source ↔ ((Source.lines source).foldl State.step {}).finish.Reported := by
  simp [ReportsLimits, Reported, expand]

/-- The limits are not reported exactly if the source lines have a full expansion within them. -/
theorem not_reportsLimits_iff (source : String) :
    ¬ ReportsLimits source ↔
      ∃ depth size lines, ExpandsSites (sites {} (Source.lines source)) depth size lines ∧
        depth ≤ maxMacroDepth ∧ size ≤ maxMacroLines := by
  rw [reportsLimits_iff]
  constructor
  · intro silent
    have honest : ({} : Expansion).Honest :=
      ⟨Nat.zero_le _, fun flag => Bool.noConfusion flag, fun flag => Bool.noConfusion flag⟩
    rcases reported_or_fits_sites {} (Source.lines source) honest with
      reported | ⟨depth, size, lines, expands, shallow, fits⟩
    · exact absurd reported silent
    · exact ⟨depth, size, lines, expands, shallow, by simpa using fits⟩
  · rintro ⟨depth, size, lines, expands, shallow, fits⟩ reported
    have start : ({} : Expansion).expanded + size ≤ maxMacroLines := by simpa using fits
    have nothing := (finish_of_expandsSites expands shallow start).2.mp reported
    simp [Reported] at nothing

/-- **Macro expansion is complete unless reported**: if the limits of expansion are not reported,
the output is the full expansion of the source lines that are not part of a definition, each with
the number of its source line. The limits are reported exactly if the full expansion of one of these
lines is infinite or more than 16 deep, or all of them take more than 100000 lines of bodies. -/
theorem expand_complete (source : String) :
    (¬ ReportsLimits source →
        ∃ depth size,
          ExpandsSites (sites {} (Source.lines source)) depth size (expand source).1) ∧
      (ReportsLimits source ↔
        (∃ site ∈ sites {} (Source.lines source), site.TooDeep) ∨
          ∃ depth size lines, ExpandsSites (sites {} (Source.lines source)) depth size lines ∧
            100000 < size) := by
  refine ⟨fun silent => ?_, fun reported => ?_, fun beyond => ?_⟩
  · obtain ⟨depth, size, lines, expands, shallow, fits⟩ := (not_reportsLimits_iff source).mp silent
    have start : ({} : Expansion).expanded + size ≤ maxMacroLines := by simpa using fits
    have output := (finish_of_expandsSites expands shallow start).1
    refine ⟨depth, size, ?_⟩
    simpa [expand, output] using expands
  · by_cases deep : ∃ site ∈ sites {} (Source.lines source), site.TooDeep
    · exact .inl deep
    · -- the full expansions exist and are shallow, so there are too many lines
      obtain ⟨depth, size, lines, expands, shallow⟩ :=
        exists_expandsSites fun site mem tooDeep => deep ⟨site, mem, tooDeep⟩
      refine .inr ⟨depth, size, lines, expands, ?_⟩
      by_contra short
      exact (not_reportsLimits_iff source).mpr
        ⟨depth, size, lines, expands, shallow, not_lt.mp short⟩ reported
  · by_contra silent
    obtain ⟨depth, size, lines, expands, shallow, fits⟩ := (not_reportsLimits_iff source).mp silent
    rcases beyond with ⟨site, mem, tooDeep⟩ | ⟨depth', size', lines', expands', long⟩
    · obtain ⟨inner, size, expanded, here, le⟩ := expands.exists_expands mem
      exact absurd (tooDeep inner size expanded here) (not_lt.mpr (le_trans le shallow))
    · obtain ⟨-, rfl, -⟩ := expands.unique expands'
      exact absurd long (not_lt.mpr fits)

/-- A macro that calls another one twice, and a labelled call of it. -/
def nestedCall : String :=
  "LOAD MACRO\n LDA #&1\n ENDM\nBOTH MACRO\n LOAD &1\n LOAD &2\n ENDM\nSTART BOTH 1,2\n RTS\n"

/-- A macro that calls itself. -/
def endlessCall : String := "LOOP MACRO\n NOP\n LOOP\n ENDM\n LOOP\n"

/-- `nestedCall` is fully expanded; the limits are reported for `endlessCall`. -/
theorem expand_complete_nestedCall :
    (¬ ReportsLimits nestedCall ∧
        (expand nestedCall).1 =
          [⟨8, "START EQU *"⟩, ⟨8, " LDA #1"⟩, ⟨8, " LDA #2"⟩, ⟨9, " RTS"⟩] ∧
        ∃ depth size,
          ExpandsSites (sites {} (Source.lines nestedCall)) depth size (expand nestedCall).1) ∧
      ReportsLimits endlessCall ∧
        ((∃ site ∈ sites {} (Source.lines endlessCall), site.TooDeep) ∨
          ∃ depth size lines, ExpandsSites (sites {} (Source.lines endlessCall)) depth size lines ∧
            100000 < size) := by
  have silent : ¬ ReportsLimits nestedCall := by
    unfold ReportsLimits
    decide +kernel
  have reported : ReportsLimits endlessCall := by
    unfold ReportsLimits
    decide +kernel
  refine ⟨⟨silent, ?_, (expand_complete nestedCall).1 silent⟩, reported,
    (expand_complete endlessCall).2.mp reported⟩
  decide +kernel

end Asm6502.Macro
