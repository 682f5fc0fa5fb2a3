import Asm6502.Proofs.ByteOrder
import Asm6502.Proofs.Trajectory
import Asm6502.Proofs.Uppercase
import Mathlib.Data.List.Induction

/-!
# The history of a symbol table

A table is made by definitions and declarations in any order, and keeps of them what their history
says: the last definition of each name, and the names that were declared at some time
(`definition?_after`, `contains_after`). In the history, names are the same if they are spelled with
the same letters in any case (`Text.sameLetters`), which is to have the same form in upper case.
What a name means, what a definition is answered and what the printed table shows all follow from
these two facts (`meaning_after`, `answer_eq`, `inventory_after`). The lines of the printed table
are written out here character by character (`line`, `wordDigits`).
-/

namespace Asm6502

namespace Text

/-! ### Letters in any case -/

/-- The texts are the same but for the case of the letters `a` to `z`. -/
def sameLetters (a b : String) : Bool := a.toList.map Char.toLower == b.toList.map Char.toLower

theorem toLower_toUpper (c : Char) : c.toUpper.toLower = c.toLower :=
  eq_of_toUpper (by decide) c

theorem toUpper_toLower (c : Char) : c.toLower.toUpper = c.toUpper := by
  by_cases capital : c.val ≥ 'A'.val ∧ c.val ≤ 'Z'.val
  · have letters : ∀ n < 91, 65 ≤ n → (Char.ofNat n).toLower.toUpper = (Char.ofNat n).toUpper := by
      decide
    have least : 65 ≤ c.toNat := capital.1
    have most : c.toNat ≤ 90 := capital.2
    rw [← Char.ofNat_toNat c]
    exact letters c.toNat (Nat.lt_succ_of_le most) least
  · have same : c.toLower = c := dif_neg capital
    rw [same]

/-- Texts with the same letters are those that are the same in upper case. -/
theorem sameLetters_iff {a b : String} : sameLetters a b = true ↔ upper a = upper b := by
  have lower (s : String) : (s.toList.map Char.toUpper).map Char.toLower =
      s.toList.map Char.toLower := by
    rw [List.map_map]
    exact List.map_congr_left fun c _ => toLower_toUpper c
  have raise (s : String) : (s.toList.map Char.toLower).map Char.toUpper =
      s.toList.map Char.toUpper := by
    rw [List.map_map]
    exact List.map_congr_left fun c _ => toUpper_toLower c
  rw [sameLetters, beq_iff_eq, ← String.toList_inj, toList_upper, toList_upper]
  constructor
  · intro same
    rw [← raise, same, raise]
  · intro same
    rw [← lower, same, lower]

end Text

theorem Name.ofText_eq_iff {a b : String} :
    Name.ofText a = Name.ofText b ↔ Text.sameLetters a b = true := by
  rw [Text.sameLetters_iff, Name.ofText, Name.ofText, Name.mk.injEq]

namespace SymbolTable

/-! ### Updates and their history -/

/-- A change of a symbol table, with the name as it is spelled. -/
inductive Update where
  /-- Give a name a value. -/
  | define (text : String) (definition : Definition)
  /-- Declare a name as defined elsewhere. -/
  | declare (text : String)
  deriving DecidableEq, Repr

/-- The table after an update, and for a definition what it does to an earlier one. -/
def update (table : SymbolTable) : Update → SymbolTable × Option Redefinition
  | .define text definition =>
    (table.define (.ofText text) definition,
      some (table.redefinition (.ofText text) definition.value))
  | .declare text => (table.declareExternal (.ofText text), none)

/-- The table that updates make from an empty one. -/
def after (updates : List Update) : SymbolTable := (trace update {} updates).1

/-- What the updates are answered, one after another. -/
def answers (updates : List Update) : List (Option Redefinition) := (trace update {} updates).2

/-- The definition that an update gives to a name. -/
def Update.definition? (text : String) : Update → Option Definition
  | .define other definition => if Text.sameLetters other text then some definition else none
  | .declare _ => none

/-- The update declares the name. -/
def Update.declares (text : String) : Update → Bool
  | .define _ _ => false
  | .declare other => Text.sameLetters other text

/-- The last definition that updates give to a name. -/
def lastDefinition? (updates : List Update) (text : String) : Option Definition :=
  (updates.filterMap (·.definition? text)).getLast?

/-- Some update declares the name. -/
def isDeclared (updates : List Update) (text : String) : Bool := updates.any (·.declares text)

/-! ### What a table keeps -/

theorem after_concat (updates : List Update) (last : Update) :
    after (updates ++ [last]) = ((after updates).update last).1 := by
  rw [after, trace_append, trace_cons]
  rfl

theorem lastDefinition?_concat (updates : List Update) (last : Update) (text : String) :
    lastDefinition? (updates ++ [last]) text =
      (last.definition? text).or (lastDefinition? updates text) := by
  rw [lastDefinition?, List.filterMap_append, List.getLast?_append]
  cases given : last.definition? text with
  | none => simp [given, lastDefinition?]
  | some definition => simp [given]

/-- One update defines the names that are spelled with its letters. -/
theorem definition?_update (table : SymbolTable) (change : Update) (text : String) :
    (table.update change).1.definition? (.ofText text) =
      (change.definition? text).or (table.definition? (.ofText text)) := by
  cases change with
  | declare other => rfl
  | define other definition =>
    simp only [update, definition?_define, Update.definition?, Name.ofText_eq_iff]
    split <;> rfl

/-- One update makes those names external that it declares. -/
theorem contains_update (table : SymbolTable) (change : Update) (text : String) :
    (table.update change).1.externals.contains (.ofText text) =
      (table.externals.contains (.ofText text) || change.declares text) := by
  cases change with
  | define other definition => simp [update, define, Update.declares]
  | declare other =>
    have same : (compare (Name.ofText other) (.ofText text) == .eq) =
        Text.sameLetters other text := by
      rw [Bool.eq_iff_iff, beq_iff_eq, Std.LawfulEqCmp.compare_eq_iff_eq, Name.ofText_eq_iff]
    rw [update, declareExternal, Std.TreeSet.contains_insert, same, Bool.or_comm, Update.declares]

/-- **A table keeps the last definition** of each name. -/
theorem definition?_after (updates : List Update) (text : String) :
    (after updates).definition? (.ofText text) = lastDefinition? updates text := by
  induction updates using List.reverseRecOn with
  | nil => rfl
  | append_singleton updates last ih =>
    rw [after_concat, definition?_update, ih, lastDefinition?_concat]

/-- **A table keeps the declared names**. -/
theorem contains_after (updates : List Update) (text : String) :
    (after updates).externals.contains (.ofText text) = isDeclared updates text := by
  induction updates using List.reverseRecOn with
  | nil => rfl
  | append_singleton updates last ih =>
    rw [after_concat, contains_update, ih, isDeclared, isDeclared, List.any_append, List.any_cons,
      List.any_nil, Bool.or_false]

/-- A name means its last definition, whenever it was declared. -/
theorem meaning_after (updates : List Update) (text : String) :
    (after updates).meaning (.ofText text) =
      match lastDefinition? updates text with
      | some definition => .defined definition.value
      | none => if isDeclared updates text then .external else .undefined := by
  unfold meaning
  cases last : lastDefinition? updates text with
  | none => simp only [definition?_after, contains_after, last]
  | some definition => simp only [definition?_after, last]

/-- A definition is answered from the last one before it. -/
theorem answer_eq {updates : List Update} {i : Nat} {text : String} {definition : Definition}
    (found : updates[i]? = some (.define text definition)) :
    (answers updates)[i]? = some (some
      (match lastDefinition? (updates.take i) text with
      | none => .new
      | some previous =>
        if previous.value = definition.value then .same else .changed previous)) := by
  rw [answers, getElem?_trace _ _ found]
  show some (some ((after (updates.take i)).redefinition (.ofText text) definition.value)) = _
  unfold redefinition
  cases last : lastDefinition? (updates.take i) text with
  | none => simp only [definition?_after, last]
  | some previous => simp only [definition?_after, last]

/-! ### The printed table -/

/-- The names of a table are in upper case. -/
theorem exists_text_of_mem (updates : List Update) {name : Name}
    (known : (after updates).isDefined name = true ∨
      (after updates).externals.contains name = true) :
    ∃ text, name = .ofText text := by
  induction updates using List.reverseRecOn with
  | nil =>
    rcases known with defined | declared
    · cases defined
    · cases declared
  | append_singleton updates last ih =>
    rw [after_concat] at known
    cases last with
    | define text definition =>
      by_cases same : Name.ofText text = name
      · exact ⟨text, same.symm⟩
      · simp only [update, isDefined, definition?_define, if_neg same] at known
        exact ih known
    | declare text =>
      by_cases same : Name.ofText text = name
      · exact ⟨text, same.symm⟩
      · simp only [update, isDefined, definition?_declareExternal] at known
        refine ih (known.imp_right fun declared => ?_)
        rw [declareExternal, Std.TreeSet.contains_insert, Bool.or_eq_true, beq_iff_eq,
          Std.LawfulEqCmp.compare_eq_iff_eq] at declared
        exact declared.resolve_left same

/-- The lists have the defined names with their values, and the declared names that are not defined,
each of them once and in the order of the bytes of their forms in upper case. -/
structure Inventory (updates : List Update) (defined : List (Name × UInt16))
    (declared : List Name) : Prop where
  mem_defined_iff : ∀ name value, (name, value) ∈ defined ↔
    ∃ text, name = .ofText text ∧ (lastDefinition? updates text).map (·.value) = some value
  mem_declared_iff : ∀ name, name ∈ declared ↔
    ∃ text, name = .ofText text ∧ isDeclared updates text = true ∧
      lastDefinition? updates text = none
  defined_increasing :
    defined.Pairwise fun first second => textBytes first.1.text < textBytes second.1.text
  declared_increasing :
    declared.Pairwise fun first second => textBytes first.text < textBytes second.text

theorem mem_values_iff {table : SymbolTable} {name : Name} {value : UInt16} :
    (name, value) ∈ table.values ↔ (table.definition? name).map (·.value) = some value := by
  rw [values, List.mem_map, Option.map_eq_some_iff]
  constructor
  · rintro ⟨entry, mem, same⟩
    obtain ⟨rfl, rfl⟩ := Prod.mk.inj same
    exact ⟨entry.2, Std.TreeMap.mem_toList_iff_getElem?_eq_some.mp mem, rfl⟩
  · rintro ⟨definition, found, rfl⟩
    exact ⟨(name, definition), Std.TreeMap.mem_toList_iff_getElem?_eq_some.mpr found, rfl⟩

theorem mem_unresolved_iff {table : SymbolTable} {name : Name} :
    name ∈ table.unresolved ↔
      table.externals.contains name = true ∧ table.definition? name = none := by
  rw [unresolved, List.mem_filter, Std.TreeSet.mem_toList, Std.TreeSet.mem_iff_contains, isDefined,
    Bool.not_eq_true', Option.isSome_eq_false_iff, Option.isNone_iff_eq_none]

/-- What is printed of a table is the inventory of its history. -/
theorem inventory_after (updates : List Update) :
    Inventory updates (after updates).values (after updates).unresolved where
  mem_defined_iff name value := by
    rw [mem_values_iff]
    constructor
    · intro found
      have defined : (after updates).isDefined name = true := by
        rw [isDefined, ← Option.isSome_map, found]
        rfl
      obtain ⟨text, rfl⟩ := exists_text_of_mem updates (.inl defined)
      exact ⟨text, rfl, by rwa [← definition?_after]⟩
    · rintro ⟨text, rfl, found⟩
      rwa [definition?_after]
  mem_declared_iff name := by
    rw [mem_unresolved_iff]
    constructor
    · rintro ⟨declared, undefined⟩
      obtain ⟨text, rfl⟩ := exists_text_of_mem updates (.inr declared)
      exact ⟨text, rfl, by rwa [← contains_after], by rwa [← definition?_after]⟩
    · rintro ⟨text, rfl, declared, undefined⟩
      exact ⟨by rwa [contains_after], by rwa [definition?_after]⟩
  defined_increasing := by
    rw [values, List.pairwise_map]
    exact Std.TreeMap.ordered_keys_toList.imp fun less => Name.textBytes_lt less
  declared_increasing := by
    refine (Std.TreeSet.ordered_toList.imp fun less => Name.textBytes_lt less).filter _

/-- The characters of a line: the name in a field of sixteen columns, which a longer name outgrows,
an equals sign between blanks, and what the name is. -/
def line (name : Name) (content : List Char) : List Char :=
  name.text.toList ++ List.replicate (16 - name.text.length) ' ' ++ [' ', '=', ' '] ++ content ++
    ['\n']

/-- The characters of a value: a dollar sign and four digits to base sixteen, the highest first. -/
def wordDigits (value : UInt16) : List Char :=
  '$' :: [4096, 256, 16, 1].map fun place =>
    "0123456789ABCDEF".toList.getD (value.toNat / place % 16) ' '

theorem toList_row (name : Name) (content : String) :
    (row name content).toList = line name content.toList := by
  simp [row, line, List.rightpad, String.length_toList]

theorem cons_hexWord (value : UInt16) : '$' :: Text.hexWord value = wordDigits value := by
  have digits : ∀ n < 16, Text.hexDigit n = "0123456789ABCDEF".toList.getD n ' ' := by decide
  have least (n : Nat) : Text.hexDigit (n % 16) = "0123456789ABCDEF".toList.getD (n % 16) ' ' :=
    digits _ (Nat.mod_lt _ (by decide))
  have highest : value.toNat / 4096 = value.toNat / 4096 % 16 := by
    have := value.toNat_lt
    omega
  rw [Text.hexWord, highest, least, least, least, least, wordDigits]
  simp

/-- What is printed, line by line. -/
theorem toList_render (table : SymbolTable) :
    table.render.toList =
      (table.values.flatMap fun entry => line entry.1 (wordDigits entry.2)) ++
        table.unresolved.flatMap fun name => line name "EXTERNAL".toList := by
  simp [render, toList_row, cons_hexWord, List.flatMap, Function.comp_def]

/-- **A symbol table is a map that does not see letter case**, whatever definitions and declarations
it was made by: a name means its last definition, and without one it is external if it was ever
declared; each definition is answered from the definition of its name before it; and the printed
table has a line for each defined name, with its value, then one for each declared name without a
definition, each once and in increasing order of bytes. -/
theorem table_of_history (updates : List Update) :
    (∀ text, (after updates).meaning (.ofText text) =
      match lastDefinition? updates text with
      | some definition => .defined definition.value
      | none => if isDeclared updates text then .external else .undefined) ∧
    (∀ i text definition, updates[i]? = some (.define text definition) →
      (answers updates)[i]? = some (some
        (match lastDefinition? (updates.take i) text with
        | none => .new
        | some previous =>
          if previous.value = definition.value then .same else .changed previous))) ∧
    ∃ defined declared, Inventory updates defined declared ∧
      (after updates).render.toList =
        (defined.flatMap fun entry => line entry.1 (wordDigits entry.2)) ++
          declared.flatMap fun name => line name "EXTERNAL".toList :=
  ⟨meaning_after updates, fun _ _ _ found => answer_eq found, _, _, inventory_after updates,
    toList_render _⟩

/-- A name that is declared, defined, declared again and defined with another value: the last
definition is answered with the first, and the name is not external. -/
theorem table_of_history_redeclared :
    let updates : List Update := [.declare "loop", .define "Loop" ⟨1, ⟨2, 1⟩⟩, .declare "LOOP",
      .declare "next", .define "looP" ⟨2, ⟨5, 1⟩⟩]
    updates[4]? = some (.define "looP" ⟨2, ⟨5, 1⟩⟩) ∧
      (answers updates)[4]? = some (some (.changed ⟨1, ⟨2, 1⟩⟩)) ∧
      (after updates).meaning (.ofText "loop") = .defined 2 ∧
      (after updates).meaning (.ofText "NEXT") = .external ∧
      ∃ defined declared, Inventory updates defined declared ∧
        ((defined.flatMap fun entry => line entry.1 (wordDigits entry.2)) ++
          declared.flatMap fun name => line name "EXTERNAL".toList) =
            "LOOP             = $0002\nNEXT             = EXTERNAL\n".toList := by
  intro updates
  obtain ⟨meaning, answer, defined, declared, inventory, printed⟩ := table_of_history updates
  refine ⟨rfl, ?_, ?_, ?_, defined, declared, inventory, ?_⟩
  · rw [answer 4 "looP" ⟨2, ⟨5, 1⟩⟩ rfl]
    rfl
  · rw [meaning "loop"]
    rfl
  · rw [meaning "NEXT"]
    rfl
  · rw [← printed]
    decide +kernel

end SymbolTable

end Asm6502
