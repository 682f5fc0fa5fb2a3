import Asm6502.Proofs.DictionaryText
import Asm6502.Proofs.Listed

/-!
# Names of other programs

The names that a program needs and offers come from the operands of statements. Between two commas
stands one name, with or without quotes around it (`Text.Spells`). In the second pass every
assembled statement adds its names to those before it, so that the program ends up with the names of
all of them, each once and in the order of their first occurrence (`names_outcome`). A dictionary
lists these names after the places to relocate, and all of it is read back from its text
(`Dictionary.read?_render`).
-/

namespace Asm6502

/-! ### Names in operands -/

namespace Text

/-- The second text is the first one without one layer of quotes. -/
inductive Unwraps : List Char → List Char → Prop where
  /-- There is no quote at the start. -/
  | plain {cs : List Char} :
    (∀ c ∈ cs.head?, ¬ (c = doubleQuote ∨ c = singleQuote)) → Unwraps cs cs
  /-- The same quote stands at both ends. -/
  | quoted {quote : Char} {inner : List Char} :
    quote = doubleQuote ∨ quote = singleQuote → Unwraps (quote :: (inner ++ [quote])) inner
  /-- The closing quote is missing. -/
  | unclosed {quote : Char} {inner : List Char} :
    quote = doubleQuote ∨ quote = singleQuote → inner.getLast? ≠ some quote →
      Unwraps (quote :: inner) inner

theorem unquoteChars_eq_iff {cs inner : List Char} :
    unquoteChars cs = inner ↔ Unwraps (trim cs) inner := by
  unfold unquoteChars
  cases trim cs with
  | nil =>
    constructor
    · rintro rfl
      exact .plain (by simp)
    · intro unwraps
      cases unwraps
      rfl
  | cons c rest =>
    simp only [dropClosing]
    constructor
    · rintro rfl
      split
      · rename_i quote
        split
        · rename_i closed
          obtain ⟨inner, rfl⟩ := List.getLast?_eq_some_iff.mp closed
          rw [List.dropLast_concat]
          exact .quoted quote
        · rename_i unclosed
          exact .unclosed quote unclosed
      · rename_i other
        exact .plain fun d first => by rwa [← Option.some.inj first]
    · intro unwraps
      cases unwraps with
      | plain free => rw [if_neg (free c rfl)]
      | quoted quote => rw [if_pos quote, List.getLast?_concat, if_pos rfl, List.dropLast_concat]
      | unclosed quote unclosed => rw [if_pos quote, if_neg unclosed]

/-- The name that a text between commas is, if it is one: blanks around it and around what it quotes
do not count. -/
def nameIn? (text : String) : Option Name :=
  let name := trimmed (unquote text)
  if name.isEmpty then none else some (.ofText name)

/-- The text is a name, perhaps with quotes around it. -/
def Spells (text : String) (name : Name) : Prop :=
  ∃ inner, Unwraps (trim text.toList) inner ∧ trim inner ≠ [] ∧
    name = ⟨upperWord (trim inner)⟩

theorem nameIn?_eq_some_iff {text : String} {name : Name} :
    nameIn? text = some name ↔ Spells text name := by
  have solid : (trimmed (unquote text)).isEmpty = false ↔ trim (unquoteChars text.toList) ≠ [] := by
    rw [← toList_unquote, ← toList_trimmed, ne_eq, String.toList_eq_nil_iff, ← Bool.not_eq_true,
      String.isEmpty_iff]
  have spelled : Name.ofText (trimmed (unquote text)) =
      ⟨upperWord (trim (unquoteChars text.toList))⟩ := by
    rw [Name.ofText, upper, toList_trimmed, toList_unquote, upperWord]
  rw [nameIn?, Spells]
  constructor
  · intro found
    simp only [Option.ite_none_left_eq_some, Bool.not_eq_true, Option.some.injEq] at found
    exact ⟨_, unquoteChars_eq_iff.mp rfl, solid.mp found.1, by rw [← found.2, spelled]⟩
  · rintro ⟨inner, unwraps, present, rfl⟩
    rw [← unquoteChars_eq_iff] at unwraps
    subst unwraps
    simp [solid.mpr present, spelled]

end Text

namespace Statement

/-- The names in the operand of a statement, between commas. -/
def writtenNames (statement : Statement) : List Name :=
  (statement.operandTokens.splitOnP (·.kind == .comma)).filterMap fun group =>
    Text.nameIn? (Token.joined group)

/-- The names in the operand of a statement, if its directive is the given one. -/
def namesOf (directive : Directive) (statement : Statement) : List Name :=
  if statement.directive? = some directive then statement.writtenNames else []

theorem nameList_eq (statement : Statement) :
    Effect.nameList statement = statement.writtenNames := by
  rw [Effect.nameList, List.filter_map, List.map_map, writtenNames, ← List.filterMap_eq_map,
    List.filterMap_filter]
  apply congrArg (fun f => List.filterMap f _)
  funext group
  simp only [Text.nameIn?, Function.comp_apply, Bool.not_eq_true']
  cases (Text.trimmed (Text.unquote (Token.joined group))).isEmpty <;> rfl

end Statement

namespace Effect

/-- Only a list of externals declares names. -/
theorem externals_ofStatement (env : Env) (decided : Option Layout) (statement : Statement) :
    (ofStatement env decided statement).externals = statement.namesOf .externals := by
  rw [(binding_and_externals_ofStatement env decided statement).2, Statement.externalNames,
    Statement.namesOf, Statement.directive?]
  cases statement.operation with
  | none => rfl
  | some operation =>
    cases operation with
    | instruction mnemonic operand unread => rfl
    | directive directive operand =>
      cases directive with
      | externals => exact statement.nameList_eq
      | _ => rfl

/-- Only a list of entries offers names. -/
theorem entries_ofStatement (env : Env) (decided : Option Layout) (statement : Statement) :
    (ofStatement env decided statement).entries = statement.namesOf .entries := by
  unfold ofStatement Statement.namesOf Statement.directive?
  cases statement.operation with
  | none => rfl
  | some operation =>
    cases operation with
    | instruction mnemonic operand unread =>
      exact (onlyCode_instruction env decided statement mnemonic operand unread).entries
    | directive directive operand =>
      cases directive with
      | entries => exact statement.nameList_eq
      | equ =>
        cases operand with
        | none => rfl
        | some expr =>
          simp only [Effect.directive, equate]
          cases statement.label <;> rfl
      | org | reserve => cases operand <;> rfl
      | string style => exact (onlyCode_string env statement style).entries
      | hex => exact (onlyCode_hex statement).entries
      | msb =>
        simp only [Effect.directive, setMsb]
        split <;> rfl
      | listing control =>
        simp only [Effect.directive, listing]
        split <;> rfl
      | _ => rfl

end Effect

namespace Assembly

/-! ### Names of a program -/

theorem addNames_cons (names further : List Name) (name : Name) :
    addNames names (name :: further) =
      addNames (if names.contains name then names else names ++ [name]) further := rfl

theorem nodup_addNames {names : List Name} (nodup : names.Nodup) (further : List Name) :
    (addNames names further).Nodup := by
  induction further generalizing names with
  | nil => exact nodup
  | cons name further ih =>
    rw [addNames_cons]
    split
    · exact ih nodup
    · rename_i new
      apply ih
      rw [List.contains_iff_mem] at new
      rw [List.nodup_append]
      refine ⟨nodup, List.pairwise_singleton _ _, ?_⟩
      rintro a mem b single rfl
      rw [List.mem_singleton.mp single] at mem
      exact new mem

/-- Names are added in the order of their first occurrence. -/
theorem addNames_eraseDups (names further : List Name) :
    addNames names.eraseDups further = (names ++ further).eraseDups := by
  induction further generalizing names with
  | nil => rw [List.append_nil]; rfl
  | cons name further ih =>
    have one : (if names.eraseDups.contains name then names.eraseDups
        else names.eraseDups ++ [name]) = (names ++ [name]).eraseDups := by
      rw [List.eraseDups_append]
      by_cases known : name ∈ names
      · simp [known, List.removeAll]
      · simp [known, List.removeAll, List.eraseDups_cons]
    rw [addNames_cons, one, ih, List.append_assoc, List.singleton_append]

section Passes

variable (options : Options) (statements : List Statement)

/-- Of the statements before index `i`, those that the second pass assembles. -/
def enabledBefore (i : Nat) : List Statement :=
  ((statements.zipIdx.take i).filter fun item =>
    (before options statements .two item.2).Assembles item.1).map (·.1)

/-- The statements that the second pass assembles. -/
def enabled : List Statement :=
  (statements.zipIdx.filter fun item =>
    (before options statements .two item.2).Assembles item.1).map (·.1)

end Passes

variable {options : Options} {statements : List Statement} {i : Nat} {statement : Statement}

theorem enabledBefore_succ (found : statements[i]? = some statement) :
    enabledBefore options statements (i + 1) =
      enabledBefore options statements i ++
        if (before options statements .two i).Assembles statement then [statement] else [] := by
  have listed : statements.zipIdx[i]? = some (statement, i) := by
    simp [List.getElem?_zipIdx, found]
  rw [enabledBefore, List.take_add_one, listed, List.filter_append, List.map_append,
    ← enabledBefore]
  by_cases assembles : (before options statements .two i).Assembles statement <;> simp [assembles]

/-- A list of names to which every assembled statement adds its own ends up with the names of all
assembled statements, each once and in the order of their first occurrence. -/
theorem names_outcome (names : State → List Name) (listed : Statement → List Name)
    (initially : names (start options statements .two) = [])
    (each : ∀ state statement decided,
      names (step options .two state (statement, decided)).1 =
        if state.Assembles statement then addNames (names state) (listed statement)
        else names state) :
    (names (outcome options statements .two).1).Nodup ∧
      names (outcome options statements .two).1 =
        ((enabled options statements).flatMap listed).eraseDups := by
  have along (i : Nat) (inside : i ≤ statements.length) :
      (names (before options statements .two i)).Nodup ∧
        names (before options statements .two i) =
          ((enabledBefore options statements i).flatMap listed).eraseDups := by
    induction i with
    | zero =>
      rw [before_zero, initially]
      exact ⟨.nil, rfl⟩
    | succ i ih =>
      have found : statements[i]? = some statements[i] := List.getElem?_eq_getElem inside
      obtain ⟨nodup, same⟩ := ih (Nat.le_of_succ_le inside)
      rw [before_succ found, visit, each, enabledBefore_succ found, List.flatMap_append]
      split
      · rw [List.flatMap_singleton, same, addNames_eraseDups]
        exact ⟨by rw [← addNames_eraseDups, ← same]; exact nodup_addNames nodup _, rfl⟩
      · rw [List.flatMap_nil, List.append_nil]
        exact ⟨nodup, same⟩
  have last : enabledBefore options statements statements.length = enabled options statements := by
    rw [enabledBefore, enabled, List.take_of_length_le (by simp)]
  have whole := along statements.length (Nat.le_refl _)
  rwa [before_length, last] at whole

/-- An assembled statement adds its names to those of the program. -/
theorem names_step {pass : Pass} {state : State} {decided : Option Layout} :
    let next := (step options pass state (statement, decided)).1
    (next.externals =
        if state.Assembles statement then addNames state.externals (statement.namesOf .externals)
        else state.externals) ∧
      (next.entries =
        if state.Assembles statement then addNames state.entries (statement.namesOf .entries)
        else state.entries) := by
  by_cases assembles : state.Assembles statement
  · simp only [step_of_assembles assembles, assembled_eq, if_pos assembles, State.apply, effectOf,
      Effect.externals_ofStatement, Effect.entries_ofStatement, and_self]
  · simp only [step_of_not_assembles assembles, if_neg assembles, and_self]

/-- The names of a program are those that its assembled statements list. -/
theorem names_run (options : Options) (statements : List Statement) :
    ((run options statements).externals.Nodup ∧
        (run options statements).externals =
          ((enabled options statements).flatMap (·.namesOf .externals)).eraseDups) ∧
      ((run options statements).entries.Nodup ∧
        (run options statements).entries =
          ((enabled options statements).flatMap (·.namesOf .entries)).eraseDups) :=
  ⟨names_outcome State.externals _ rfl fun _ _ _ => names_step.1,
    names_outcome State.entries _ rfl fun _ _ _ => names_step.2⟩

end Assembly

/-- The names that the enabled statements with a directive list, in their order. -/
def Setting.listedNames (setting : Setting) (options : Options) (source : String)
    (directive : Directive) : List Name :=
  (Assembly.enabled options (setting.statements source)).flatMap (·.namesOf directive)

theorem names_assemble (options : Options) (setting : Setting) (source : String) :
    let artifact := assemble options setting source
    (artifact.externals.Nodup ∧
        artifact.externals = (setting.listedNames options source .externals).eraseDups) ∧
      (artifact.entries.Nodup ∧
        artifact.entries = (setting.listedNames options source .entries).eraseDups) := by
  obtain ⟨found, assembled⟩ := exists_assemble_eq setting source
  simp only [assembled]
  exact Assembly.names_run options (setting.statements source)

/-- **The relocation dictionary determines the linkage data**: if the names of an artifact have no
blank and no newline, its relocations, the names it needs and the names it offers with their values
are read back from the text of its dictionary. The names of an assembled program are those that its
enabled statements list, each once and in the order of their first occurrence; they are in upper
case and without the quotes around them. -/
theorem dictionary_determines :
    (∀ artifact : Artifact,
      (∀ name ∈ artifact.externals ++ artifact.entries, Dictionary.Unbroken name.text) →
      Dictionary.read? (Dictionary.ofArtifact artifact).render =
        some {
          relocations := artifact.relocations
          externals := artifact.externals
          entries := artifact.entries.map fun name =>
            (name, (artifact.symbols.definition? name).map (·.value)) }) ∧
    (∀ options setting source,
      let artifact := assemble options setting source
      (artifact.externals.Nodup ∧
          artifact.externals = (setting.listedNames options source .externals).eraseDups) ∧
        (artifact.entries.Nodup ∧
          artifact.entries = (setting.listedNames options source .entries).eraseDups)) ∧
    ∀ text name, Text.nameIn? text = some name ↔ Text.Spells text name := by
  refine ⟨?_, names_assemble, fun _ _ => Text.nameIn?_eq_some_iff⟩
  intro artifact unbroken
  apply Dictionary.read?_render
  intro line listed
  simp only [Dictionary.lines, Dictionary.ofArtifact, List.mem_append, List.mem_map] at listed
  rcases listed with (⟨place, -, rfl⟩ | ⟨name, mem, rfl⟩) | ⟨entry, ⟨name, mem, rfl⟩, rfl⟩
  · trivial
  · exact unbroken name (List.mem_append_left _ mem)
  · exact unbroken name (List.mem_append_right _ mem)

/-- The linkage data of a program that needs one name and offers two, of which one has a value. -/
def twoEntries : Artifact where
  symbols := ({} : SymbolTable).define ⟨"MAIN"⟩ ⟨0x4000, ⟨1, 1⟩⟩
  relocatable := true
  relocations := [⟨0x4001, 2⟩]
  externals := [⟨"PRINT"⟩]
  entries := [⟨"MAIN"⟩, ⟨"LATER"⟩]

/-- A program that lists a name three times, in quotes and in other letters, and another one in a
disabled block. -/
def listedTwice : String :=
  " EXTRN print,'Cout',PRINT\n DO 0\n EXTRN CIN\n FIN\n EXTRN cout,\"PRINT\"\n"

theorem dictionary_determines_twoEntries :
    (∀ name ∈ twoEntries.externals ++ twoEntries.entries, Dictionary.Unbroken name.text) ∧
      (Dictionary.ofArtifact twoEntries).render =
        "RLD $4001 2\nEXTRN PRINT\nENTRY MAIN $4000\nENTRY LATER\n" ∧
      Dictionary.read? (Dictionary.ofArtifact twoEntries).render =
        some ⟨[⟨0x4001, 2⟩], [⟨"PRINT"⟩], [(⟨"MAIN"⟩, some 0x4000), (⟨"LATER"⟩, none)]⟩ ∧
      (assemble {} {} listedTwice).externals = [⟨"PRINT"⟩, ⟨"COUT"⟩] := by
  have unbroken : ∀ name ∈ twoEntries.externals ++ twoEntries.entries,
      Dictionary.Unbroken name.text := by decide
  obtain ⟨read, names, -⟩ := dictionary_determines
  obtain ⟨⟨-, externals⟩, -⟩ := names {} {} listedTwice
  refine ⟨unbroken, by decide +kernel, ?_, ?_⟩
  · rw [read twoEntries unbroken]
    rfl
  · rw [externals]
    decide +kernel

end Asm6502
