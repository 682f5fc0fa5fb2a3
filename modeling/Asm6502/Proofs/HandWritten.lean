import Asm6502.Build
import Asm6502.Proofs.Expansion
import Asm6502.Proofs.Renumbering
import Mathlib.Data.List.TakeDrop

/-!
# Macro calls assemble like hand-written code

The lines that macro expansion puts out, written down as a text of their own, assemble to the same
as the text with the calls. Three facts make this up. An expanded line has no newline in it
(`Macro.unbroken_expand`), so the text that is written down has these lines again
(`Source.map_text_lines_ofTexts`). A text that defines no macro is its own expansion
(`Macro.expand_of_not_opens`). And assembly does not look at line numbers, which are all that
differs (`Assembly.run_alike`).
-/

namespace Asm6502

/-! ### Texts of lines -/

namespace Text

/-- What stands between separators has none in it, and nothing else than the text. -/
theorem of_mem_splitOn {separator : Char} {cs piece : List Char}
    (mem : piece ∈ cs.splitOn separator) : separator ∉ piece ∧ piece ⊆ cs := by
  induction cs generalizing piece with
  | nil =>
    obtain rfl : piece = [] := by simpa using mem
    exact ⟨List.not_mem_nil, List.Subset.refl _⟩
  | cons c cs ih =>
    rw [List.splitOn_cons_eq_if_modifyHead] at mem
    by_cases ends : c = separator
    · simp only [ends, beq_self_eq_true, if_true, List.mem_cons] at mem
      rcases mem with rfl | mem
      · exact ⟨List.not_mem_nil, List.nil_subset _⟩
      · exact ⟨(ih mem).1, List.subset_cons_of_subset _ (ih mem).2⟩
    · obtain ⟨first, rest, pieces⟩ := List.exists_cons_of_ne_nil (List.splitOn_ne_nil separator cs)
      simp only [beq_eq_false_iff_ne.mpr ends, Bool.false_eq_true, if_false, pieces,
        List.modifyHead_cons, List.mem_cons] at mem
      rcases mem with rfl | mem
      · obtain ⟨free, inside⟩ : separator ∉ first ∧ first ⊆ cs := ih (by simp [pieces])
        refine ⟨?_, List.cons_subset_cons _ inside⟩
        rw [List.mem_cons, not_or]
        exact ⟨fun same => ends same.symm, free⟩
      · obtain ⟨free, inside⟩ : separator ∉ piece ∧ piece ⊆ cs := ih (by simp [pieces, mem])
        exact ⟨free, List.subset_cons_of_subset _ inside⟩

theorem trim_subset (cs : List Char) : trim cs ⊆ cs := by
  have start : trimStart cs ⊆ cs := List.dropWhile_subset _
  refine List.Subset.trans ?_ start
  intro c mem
  exact List.mem_reverse.mp (List.dropWhile_subset _ (List.mem_reverse.mp mem))

theorem nextWord?_subset {cs word rest : List Char} (found : nextWord? cs = some (word, rest)) :
    word ⊆ cs ∧ rest ⊆ cs := by
  have start : trimStart cs ⊆ cs := List.dropWhile_subset _
  unfold nextWord? at found
  split at found
  · cases found
  · rename_i c tail trimmed
    rw [Option.some.injEq, List.span_eq_takeWhile_dropWhile, Prod.mk.injEq] at found
    obtain ⟨rfl, rfl⟩ := found
    rw [trimmed] at start
    exact ⟨List.Subset.trans (List.takeWhile_subset _) start,
      List.Subset.trans (List.dropWhile_subset _) start⟩

end Text

namespace Source

/-- The text with the given lines, each with a newline after it. -/
def ofTexts (texts : List String) : String := String.join (texts.map (· ++ "\n"))

theorem toList_ofTexts (texts : List String) :
    (ofTexts texts).toList = (texts.map String.toList).flatMap (· ++ ['\n']) := by
  simp [ofTexts, String.toList_join, List.flatMap_map]

theorem map_text_number (texts : List (List Char)) :
    (number texts).map (·.text) = texts.map String.ofList := by
  have numbered := congrArg (List.map String.ofList) (List.zipIdx_map_fst 1 texts)
  rw [List.map_map] at numbered
  rw [number, List.map_map]
  exact numbered

/-- A line of a text has no newline in it. -/
theorem unbroken_lineTexts {cs text : List Char} (mem : text ∈ lineTexts cs) : '\n' ∉ text := by
  unfold lineTexts at mem
  rw [List.mem_append, List.mem_map] at mem
  rcases mem with ⟨piece, mem, rfl⟩ | mem
  · have free := (Text.of_mem_splitOn (List.dropLast_subset _ mem)).1
    unfold dropReturn
    split
    · exact fun inside => free (List.dropLast_subset _ inside)
    · exact free
  · rw [List.mem_filter, Option.mem_toList] at mem
    exact (Text.of_mem_splitOn (List.mem_of_getLast? mem.1)).1

theorem unbroken_lines {source : String} : ∀ line ∈ lines source, '\n' ∉ line.text.toList := by
  intro line mem
  have listed : line.text ∈ (lines source).map (·.text) := List.mem_map_of_mem mem
  rw [lines, map_text_number] at listed
  obtain ⟨text, mem, same⟩ := List.mem_map.mp listed
  rw [← same, String.toList_ofList]
  exact unbroken_lineTexts mem

theorem splitOn_flatMap {texts : List (List Char)} (unbroken : ∀ text ∈ texts, '\n' ∉ text) :
    (texts.flatMap (· ++ ['\n'])).splitOn '\n' = texts ++ [[]] := by
  induction texts with
  | nil => rfl
  | cons text texts ih =>
    rw [List.flatMap_cons, List.append_assoc, List.singleton_append,
      List.splitOn_append_cons_self_of_not_mem (unbroken text List.mem_cons_self),
      ih fun other mem => unbroken other (List.mem_cons_of_mem _ mem)]
    rfl

/-- Lines that are written down with newlines are read again. -/
theorem lineTexts_flatMap {texts : List (List Char)} (unbroken : ∀ text ∈ texts, '\n' ∉ text)
    (bare : ∀ text ∈ texts, text.getLast? ≠ some '\r') :
    lineTexts (texts.flatMap (· ++ ['\n'])) = texts := by
  have kept : ∀ text ∈ texts, dropReturn text = text := fun text mem => if_neg (bare text mem)
  simp only [lineTexts, splitOn_flatMap unbroken]
  rw [List.dropLast_concat, List.getLast?_concat, List.map_congr_left kept, List.map_id']
  simp

theorem map_text_lines_ofTexts {texts : List String}
    (unbroken : ∀ text ∈ texts, '\n' ∉ text.toList)
    (bare : ∀ text ∈ texts, text.toList.getLast? ≠ some '\r') :
    (lines (ofTexts texts)).map (·.text) = texts := by
  rw [lines, toList_ofTexts, lineTexts_flatMap, map_text_number, List.map_map]
  · simp [Function.comp_def]
  · simpa using unbroken
  · simpa using bare

end Source

/-! ### Expanded lines stand on one line -/

namespace Macro

theorem arguments_subset {text : List Char} {argument : String} (mem : argument ∈ arguments text) :
    argument.toList ⊆ text := by
  simp only [arguments] at mem
  split at mem
  · cases mem
  · obtain ⟨piece, between, rfl⟩ := List.mem_map.mp mem
    rw [String.toList_ofList]
    exact List.Subset.trans (Text.trim_subset piece)
      (List.Subset.trans (Text.of_mem_splitOn between).2 (Text.trim_subset text))

/-- The label and the arguments of a call stand on its line. -/
theorem call?_subset {library : Library} {line : List Char} {call : Call}
    (calls : call? library line = some call) :
    (∀ label ∈ call.label, label.toList ⊆ line) ∧
      ∀ argument ∈ call.arguments, argument.toList ⊆ line := by
  have bare : uncommented line ⊆ line := List.takeWhile_subset _
  simp only [call?] at calls
  split at calls
  · cases calls
  · obtain ⟨⟨first, rest⟩, found, calls⟩ := Option.bind_eq_some_iff.mp calls
    obtain ⟨firstInside, restInside⟩ := Text.nextWord?_subset found
    split at calls
    · -- the first word is a label, the second one names the macro
      obtain ⟨⟨label, word, after⟩, located, calls⟩ := Option.bind_eq_some_iff.mp calls
      obtain ⟨⟨second, tail⟩, next, same⟩ := Option.map_eq_some_iff.mp located
      obtain ⟨rfl, rfl, rfl⟩ : some (String.ofList first) = label ∧ second = word ∧
        tail = after := by simpa using same
      have tailInside := List.Subset.trans (Text.nextWord?_subset next).2 restInside
      split at calls
      · obtain rfl := Option.some.inj calls
        refine ⟨fun text mem => ?_, fun argument mem => ?_⟩
        · obtain rfl : String.ofList first = text := by simpa using mem
          rw [String.toList_ofList]
          exact List.Subset.trans firstInside bare
        · exact List.Subset.trans (arguments_subset mem) (List.Subset.trans tailInside bare)
      · cases calls
    · -- the first word names the macro
      simp only [Option.bind_eq_bind, Option.bind_some] at calls
      split at calls
      · obtain rfl := Option.some.inj calls
        refine ⟨fun text mem => (by cases mem), fun argument mem => ?_⟩
        exact List.Subset.trans (arguments_subset mem) (List.Subset.trans restInside bare)
      · cases calls

theorem unbroken_parameter? {arguments : List String} {c : Char} {text : List Char}
    (unbroken : ∀ argument ∈ arguments, '\n' ∉ argument.toList)
    (given : parameter? arguments c = some text) : '\n' ∉ text := by
  have argument (i : Nat) : '\n' ∉ (arguments[i]?.getD "").toList := by
    cases found : arguments[i]? with
    | none => exact List.not_mem_nil
    | some argument => exact unbroken argument (List.mem_of_getElem? found)
  unfold parameter? at given
  split at given
  · obtain rfl := Option.some.inj given
    exact fun mem => absurd (Nat.isDigit_of_mem_toDigits (by decide) (by decide) mem) (by decide)
  · split at given
    · obtain rfl := Option.some.inj given
      exact argument 0
    · split at given
      · obtain rfl := Option.some.inj given
        exact argument _
      · cases given

theorem unbroken_substituteChars {arguments : List String}
    (unbroken : ∀ argument ∈ arguments, '\n' ∉ argument.toList) {cs : List Char}
    (free : '\n' ∉ cs) : '\n' ∉ substituteChars arguments cs := by
  fun_induction substituteChars arguments cs with
  | case1 => exact free
  | case2 c cs text given ih =>
    rw [List.mem_append, not_or]
    simp only [List.mem_cons, not_or] at free
    exact ⟨unbroken_parameter? unbroken given, ih free.2.2⟩
  | case3 c cs given ih =>
    rw [List.mem_cons, not_or] at free ⊢
    exact ⟨free.1, ih free.2⟩
  | case4 c cs other ih =>
    rw [List.mem_cons, not_or] at free ⊢
    exact ⟨free.1, ih free.2⟩

/-- The bodies of macros have no newline in a line. -/
def Library.Unbroken (library : Library) : Prop :=
  ∀ (name : Name) (definition : Macro), library[name]? = some definition →
    ∀ text ∈ definition.body, '\n' ∉ text.toList

/-- The lines expanded so far have no newline in them. -/
def Expansion.Unbroken (expansion : Expansion) : Prop :=
  ∀ line ∈ expansion.lines, '\n' ∉ line.text.toList

section Unbroken

variable {library : Library} {expansion : Expansion} {number room : Nat} {line : String}

theorem unbroken_bodyOf (bodies : library.Unbroken) {call : Call}
    (calls : call? library line.toList = some call) (free : '\n' ∉ line.toList) :
    ∀ text ∈ bodyOf library call, '\n' ∉ text.toList := by
  intro text mem
  unfold bodyOf at mem
  cases found : library[call.name]? with
  | none => simp [found] at mem
  | some definition =>
    simp only [found, List.mem_map] at mem
    obtain ⟨source, mem, rfl⟩ := mem
    rw [toList_substitute]
    refine unbroken_substituteChars (fun argument given inside => ?_)
      (bodies call.name definition found source mem)
    exact free ((call?_subset calls).2 argument given inside)

theorem Expansion.Unbroken.extended (unbroken : expansion.Unbroken) {texts : List String}
    (free : ∀ text ∈ texts, '\n' ∉ text.toList) (count : Nat) :
    (expansion.extended number texts count).Unbroken := by
  intro line mem
  simp only [Expansion.extended, Array.mem_append, List.mem_toArray, List.mem_map] at mem
  rcases mem with mem | ⟨text, mem, rfl⟩
  · exact unbroken line mem
  · exact free text mem

theorem Expansion.Unbroken.reportTooDeep (unbroken : expansion.Unbroken) (name : Name) :
    (expansion.reportTooDeep number name).Unbroken := by
  unfold Expansion.reportTooDeep
  split <;> exact unbroken

theorem Expansion.Unbroken.reportTooLong (unbroken : expansion.Unbroken) :
    (expansion.reportTooLong number).Unbroken := by
  unfold Expansion.reportTooLong
  split <;> exact unbroken

theorem Expansion.Unbroken.expandLine_plain (unbroken : expansion.Unbroken)
    (other : call? library line.toList = none) (free : '\n' ∉ line.toList) :
    (expandLine library number room expansion line).Unbroken := by
  rw [expandLine_of_plain other]
  exact unbroken.extended (by simpa using free) 0

theorem Expansion.Unbroken.foldl_expandBodyLine
    (keeps : ∀ {expansion : Expansion} {line : String}, expansion.Unbroken → '\n' ∉ line.toList →
      (expandLine library number room expansion line).Unbroken)
    (unbroken : expansion.Unbroken) {texts : List String}
    (free : ∀ text ∈ texts, '\n' ∉ text.toList) :
    (texts.foldl (expandBodyLine library number room) expansion).Unbroken := by
  induction texts generalizing expansion with
  | nil => exact unbroken
  | cons text texts ih =>
    refine ih ?_ fun other mem => free other (List.mem_cons_of_mem _ mem)
    unfold expandBodyLine
    split
    · exact unbroken.reportTooLong
    · exact keeps unbroken (free text List.mem_cons_self)

/-- Expanding a line without newlines adds lines without newlines. -/
theorem Expansion.Unbroken.expandLine (bodies : library.Unbroken) (unbroken : expansion.Unbroken)
    (free : '\n' ∉ line.toList) :
    (expandLine library number room expansion line).Unbroken := by
  induction room generalizing expansion line with
  | zero =>
    cases calls : call? library line.toList with
    | none => exact unbroken.expandLine_plain calls free
    | some call =>
      rw [expandLine_of_call_zero calls]
      exact unbroken.reportTooDeep _
  | succ room ih =>
    cases calls : call? library line.toList with
    | none => exact unbroken.expandLine_plain calls free
    | some call =>
      have labelled : (expansion.extended number (labelLine call.label) 0).Unbroken := by
        refine unbroken.extended (fun text mem => ?_) 0
        obtain ⟨label, given, rfl⟩ : ∃ label, call.label = some label ∧
          label ++ " EQU *" = text := by simpa [labelLine] using mem
        rw [String.toList_append, List.mem_append, not_or]
        exact ⟨fun inside => free ((call?_subset calls).1 label given inside), by decide⟩
      rw [expandLine_of_call calls]
      exact labelled.foldl_expandBodyLine ih (unbroken_bodyOf bodies calls free)

end Unbroken

/-- No line that expansion holds in store has a newline in it. -/
structure State.Unbroken (state : State) : Prop where
  library : state.library.Unbroken
  opened : ∀ definition ∈ state.open?, ∀ text ∈ definition.body, '\n' ∉ text.toList
  expansion : state.expansion.Unbroken

theorem State.Unbroken.step {state : State} (unbroken : state.Unbroken) {line : SourceLine}
    (free : '\n' ∉ line.text.toList) : (state.step line).Unbroken := by
  obtain ⟨library, open?, expansion⟩ := state
  cases open? with
  | some definition =>
    have body := unbroken.opened definition rfl
    by_cases closing : closes line.text.toList = true
    · obtain ⟨remarked, remark, defined⟩ := define_eq library definition expansion
      simp only [State.step, closing, if_true, defined]
      refine ⟨fun name other found => ?_, fun _ mem => (by cases mem), fun line mem => ?_⟩
      · rw [Std.TreeMap.getElem?_insert] at found
        split at found
        · obtain rfl := Option.some.inj found
          exact body
        · exact unbroken.library name other found
      · rw [remark.lines_eq] at mem
        exact unbroken.expansion line mem
    · simp only [State.step, closing]
      refine ⟨unbroken.library, fun other mem text inside => ?_, unbroken.expansion⟩
      obtain rfl := Option.some.inj mem
      rcases List.mem_append.mp inside with earlier | here
      · exact body text earlier
      · obtain rfl := List.mem_singleton.mp here
        exact free
  | none =>
    cases opens : opens? line.text.toList with
    | some name =>
      simp only [State.step, opens]
      refine ⟨unbroken.library, fun other mem text inside => ?_, unbroken.expansion⟩
      obtain rfl := Option.some.inj mem
      cases inside
    | none =>
      rw [step_of_not_opens opens]
      exact ⟨unbroken.library, fun _ mem => (by cases mem),
        Expansion.Unbroken.expandLine unbroken.library unbroken.expansion free⟩

theorem State.Unbroken.foldl {state : State} (unbroken : state.Unbroken) {lines : List SourceLine}
    (free : ∀ line ∈ lines, '\n' ∉ line.text.toList) : (lines.foldl State.step state).Unbroken := by
  induction lines generalizing state with
  | nil => exact unbroken
  | cons line lines ih =>
    exact ih (unbroken.step (free line List.mem_cons_self))
      fun other mem => free other (List.mem_cons_of_mem _ mem)

/-- **An expanded line has no newline in it.** -/
theorem unbroken_expand (source : String) :
    ∀ line ∈ (expand source).1, '\n' ∉ line.text.toList := by
  have start : ({} : State).Unbroken :=
    ⟨fun name definition found => by simp at found, fun _ mem => (by cases mem),
      fun line mem => by simp at mem⟩
  have last : ((Source.lines source).foldl State.step {}).Unbroken :=
    start.foldl Source.unbroken_lines
  have kept (state : State) : state.finish.lines = state.expansion.lines :=
    (finish_remarked state.library state.expansion state.open?).lines_eq
  intro line mem
  refine last.expansion line ?_
  rw [← kept]
  exact Array.mem_toList_iff.mp mem

/-! ### Texts without definitions -/

theorem call?_empty (line : List Char) : call? {} line = none := by
  simp [call?]

/-- Without macros, lines that open no definition stay as they are. -/
theorem foldl_step_of_not_opens {lines : List SourceLine}
    (plain : ∀ line ∈ lines, opens? line.text.toList = none) (expansion : Expansion) :
    ∃ tooDeep, lines.foldl State.step ⟨{}, none, expansion⟩ =
      ⟨{}, none, { expansion with lines := expansion.lines ++ lines.toArray, tooDeep }⟩ := by
  induction lines generalizing expansion with
  | nil => exact ⟨expansion.tooDeep, by simp⟩
  | cons line lines ih =>
    have first : State.step ⟨{}, none, expansion⟩ line =
        ⟨{}, none, { expansion with lines := expansion.lines.push line, tooDeep := false }⟩ := by
      rw [step_of_not_opens (plain line List.mem_cons_self),
        expandLine_of_plain (call?_empty _)]
      simp [Expansion.extended]
    obtain ⟨tooDeep, rest⟩ := ih (fun other mem => plain other (List.mem_cons_of_mem _ mem)) _
    refine ⟨tooDeep, ?_⟩
    rw [List.foldl_cons, first, rest]
    simp

/-- **A text that defines no macro is its own expansion.** -/
theorem expand_of_not_opens {source : String}
    (plain : ∀ line ∈ Source.lines source, opens? line.text.toList = none) :
    expand source = (Source.lines source, []) := by
  obtain ⟨tooDeep, folded⟩ := foldl_step_of_not_opens plain {}
  simp only [expand]
  rw [show ({} : State) = ⟨{}, none, {}⟩ from rfl, folded]
  simp [State.finish]

end Macro

/-! ### Expanded lines -/

/-- Assemble lines whose macros are expanded. -/
def assembleLines (options : Options) (setting : Setting) (lines : List SourceLine) : Artifact :=
  let (statements, found) :=
    Include.expand setting.tree setting.base setting.branch (Statement.ofLines lines)
  let artifact := Assembly.run options statements
  { artifact with diagnostics := found ++ artifact.diagnostics }

/-- A text assembles like its expansion, with the diagnostics of the expansion first. -/
theorem assemble_eq (options : Options) (setting : Setting) (source : String) :
    assemble options setting source =
      { assembleLines options setting (Macro.expand source).1 with
        diagnostics := (Macro.expand source).2 ++
          (assembleLines options setting (Macro.expand source).1).diagnostics } := by
  simp only [assemble, assembleLines, List.append_assoc]

theorem Artifact.Alike.found {first second : Artifact} (alike : first.Alike second)
    {found found' : List Diagnostic}
    (same : found.map Diagnostic.unnumbered = found'.map Diagnostic.unnumbered) :
    Artifact.Alike { first with diagnostics := found ++ first.diagnostics }
      { second with diagnostics := found' ++ second.diagnostics } :=
  { alike with
    diagnostics := by
      rw [List.map_append, List.map_append, same, alike.diagnostics] }

/-- **Lines with the same texts assemble to the same**, up to line numbers. -/
theorem assembleLines_alike (options : Options) (setting : Setting)
    {lines lines' : List SourceLine} (same : lines.map (·.text) = lines'.map (·.text)) :
    (assembleLines options setting lines).Alike (assembleLines options setting lines') := by
  obtain ⟨statements, found⟩ := Include.expand_alike setting.tree setting.base setting.branch
    (Statement.unnumbered_ofLines same)
  exact (Assembly.run_alike options statements).found found

/-! ### Hand-written code -/

/-- The text of a program after macro expansion. -/
def Macro.handWritten (source : String) : String :=
  Source.ofTexts ((Macro.expand source).1.map (·.text))

theorem Macro.map_text_lines_handWritten {source : String}
    (bare : ∀ line ∈ (expand source).1, line.text.toList.getLast? ≠ some '\r') :
    (Source.lines (handWritten source)).map (·.text) = (expand source).1.map (·.text) := by
  refine Source.map_text_lines_ofTexts (fun text mem => ?_) fun text mem => ?_
  · obtain ⟨line, expanded, rfl⟩ := List.mem_map.mp mem
    exact unbroken_expand source line expanded
  · obtain ⟨line, expanded, rfl⟩ := List.mem_map.mp mem
    exact bare line expanded

/-- The expansion of a program, written down, has nothing left to expand. -/
theorem Macro.expand_handWritten {source : String}
    (plain : ∀ line ∈ (expand source).1, opens? line.text.toList = none)
    (bare : ∀ line ∈ (expand source).1, line.text.toList.getLast? ≠ some '\r') :
    expand (handWritten source) = (Source.lines (handWritten source), []) := by
  refine expand_of_not_opens fun line mem => ?_
  have listed : line.text ∈ (expand source).1.map (·.text) := by
    rw [← map_text_lines_handWritten bare]
    exact List.mem_map_of_mem mem
  obtain ⟨other, expanded, same⟩ := List.mem_map.mp listed
  rw [← same]
  exact plain other expanded

/-- **Macro calls assemble like hand-written code**: if no line of the expansion of a text opens a
macro definition or ends in a carriage return, the expansion written down assembles to the same
bytes, symbols, relocations, externals and entries. Its diagnostics are those of the text without
what macro expansion itself reports, and they and the listing differ in line numbers only. -/
theorem assemble_handWritten (options : Options) (setting : Setting) (source : String)
    (plain : ∀ line ∈ (Macro.expand source).1, Macro.opens? line.text.toList = none)
    (bare : ∀ line ∈ (Macro.expand source).1, line.text.toList.getLast? ≠ some '\r') :
    let called := assemble options setting source
    let written := assemble options setting (Macro.handWritten source)
    called.bytes = written.bytes ∧
      called.symbols.values = written.symbols.values ∧
      (∀ name, called.symbols.meaning name = written.symbols.meaning name) ∧
      called.relocatable = written.relocatable ∧
      called.relocations = written.relocations ∧
      called.externals = written.externals ∧
      called.entries = written.entries ∧
      (∃ found, called.diagnostics = (Macro.expand source).2 ++ found ∧
        found.map Diagnostic.unnumbered = written.diagnostics.map Diagnostic.unnumbered) ∧
      called.SameListing written := by
  have alike := assembleLines_alike options setting (Macro.map_text_lines_handWritten bare).symm
  rw [assemble_eq options setting source, assemble_eq options setting (Macro.handWritten source),
    Macro.expand_handWritten plain bare]
  generalize assembleLines options setting (Macro.expand source).1 = called at alike ⊢
  generalize assembleLines options setting (Source.lines (Macro.handWritten source)) = written
    at alike ⊢
  exact ⟨alike.bytes, alike.symbols.values, alike.symbols.meaning, alike.relocatable,
    alike.relocations, alike.externals, alike.entries, ⟨_, rfl, alike.diagnostics⟩, alike.listing⟩

/-- A program that calls a macro with a label and an argument, and redefines the label:

  LOAD  MACRO
        LDA #&1
        ENDM
  START LOAD 5
  START EQU 7
-/
def labelledCall : String := "LOAD MACRO\n LDA #&1\n ENDM\nSTART LOAD 5\nSTART EQU 7\n"

/-- `labelledCall` assembles like its expansion; the redefinition is reported for both. -/
theorem assemble_handWritten_labelledCall :
    (∀ line ∈ (Macro.expand labelledCall).1,
        Macro.opens? line.text.toList = none ∧ line.text.toList.getLast? ≠ some '\r') ∧
      Macro.handWritten labelledCall = "START EQU *\n LDA #5\nSTART EQU 7\n" ∧
      (assemble {} {} (Macro.handWritten labelledCall)).bytes = [0xA9, 5] ∧
      (assemble {} {} (Macro.handWritten labelledCall)).diagnostics.map Diagnostic.unnumbered =
        [⟨.redefined ⟨"START"⟩ 7 ⟨0, ⟨0, 1⟩⟩, some ⟨0, 1⟩⟩] := by
  have lines : ∀ line ∈ (Macro.expand labelledCall).1,
      Macro.opens? line.text.toList = none ∧ line.text.toList.getLast? ≠ some '\r' := by
    decide +kernel
  have called : (assemble {} {} labelledCall).bytes = [0xA9, 5] ∧
      (assemble {} {} labelledCall).diagnostics =
        [⟨.redefined ⟨"START"⟩ 7 ⟨0, ⟨4, 1⟩⟩, some ⟨5, 1⟩⟩] := by decide +kernel
  have silent : (Macro.expand labelledCall).2 = [] := by decide +kernel
  obtain ⟨bytes, -, -, -, -, -, -, ⟨found, split, same⟩, -⟩ :=
    assemble_handWritten {} {} labelledCall (fun line mem => (lines line mem).1)
      fun line mem => (lines line mem).2
  rw [silent, List.nil_append, called.2] at split
  refine ⟨lines, ?_, ?_, ?_⟩
  · decide +kernel
  · rw [← bytes]
    exact called.1
  · rw [← same, ← split]
    rfl

/-- A program that defines a macro twice:

  PAUSE MACRO
        NOP
        ENDM
  PAUSE MACRO
        NOP
        ENDM
        PAUSE
-/
def redefinedMacro : String :=
  "PAUSE MACRO\n NOP\n ENDM\nPAUSE MACRO\n NOP\n ENDM\n PAUSE\n"

/-- What macro expansion reports for a text is not reported for its expansion: the diagnostics of
`redefinedMacro` and of its expansion differ in more than line numbers, although no line of the
expansion opens a definition or ends in a carriage return. -/
theorem redefinition_reported_for_calls_only :
    (∀ line ∈ (Macro.expand redefinedMacro).1,
        Macro.opens? line.text.toList = none ∧ line.text.toList.getLast? ≠ some '\r') ∧
      (assemble {} {} redefinedMacro).diagnostics =
        [⟨.macroRedefined ⟨"PAUSE"⟩ ⟨1, 1⟩, some ⟨4, 1⟩⟩] ∧
      (assemble {} {} (Macro.handWritten redefinedMacro)).diagnostics = [] ∧
      (assemble {} {} redefinedMacro).diagnostics.map Diagnostic.unnumbered ≠
        (assemble {} {} (Macro.handWritten redefinedMacro)).diagnostics.map
          Diagnostic.unnumbered := by
  have called : (assemble {} {} redefinedMacro).diagnostics =
      [⟨.macroRedefined ⟨"PAUSE"⟩ ⟨1, 1⟩, some ⟨4, 1⟩⟩] := by decide +kernel
  have written : (assemble {} {} (Macro.handWritten redefinedMacro)).diagnostics = [] := by
    decide +kernel
  refine ⟨by decide +kernel, called, written, ?_⟩
  rw [called, written]
  exact List.cons_ne_nil _ _

end Asm6502
