import Asm6502.Dictionary
import Asm6502.Proofs.Rows
import Mathlib.Data.List.Basic

/-!
# Dictionaries read back

A dictionary is a text of lines, and each line is a list of words between blanks. `Dictionary.read?`
cuts the text into lines and the lines into words; the first word tells what a line is about, and
the number of words whether an entry has a value. If the names in a dictionary have no blank and no
newline, all of it is found again in its text (`Dictionary.read?_render`), whatever other characters
the names have.
-/

namespace Asm6502.Dictionary

/-! ### Reading -/

/-- A line of a dictionary. -/
inductive Line where
  /-- A place that depends on where the program is loaded. -/
  | relocation (place : Relocation)
  /-- A name that the program needs. -/
  | external (name : Name)
  /-- A name that the program offers, with its value if it has one. -/
  | entry (name : Name) (value : Option UInt16)
  deriving DecidableEq, Repr

namespace Line

/-- The value that a dollar sign and hexadecimal digits are worth. -/
def value? (word : String) : Option UInt16 :=
  match word.toList with
  | '$' :: digits => (Text.hexNumber? digits).map UInt16.ofNat
  | _ => none

/-- The number that decimal digits are worth. -/
def number? (word : String) : Option Nat :=
  if word.toList.all Char.isDigit then some (Nat.ofDigitChars 10 word.toList 0) else none

/-- The line that words make up. -/
def ofWords? : List String → Option Line
  | ["RLD", address, size] =>
    (value? address).bind fun address => (number? size).map fun size => .relocation ⟨address, size⟩
  | ["EXTRN", name] => some (.external ⟨name⟩)
  | ["ENTRY", name] => some (.entry ⟨name⟩ none)
  | ["ENTRY", name, value] => (value? value).map fun value => .entry ⟨name⟩ (some value)
  | _ => none

/-- Read a line: its words stand between blanks. -/
def read? (line : List Char) : Option Line := ofWords? ((line.splitOn ' ').map String.ofList)

/-- The relocation that a line is about. -/
def relocation? : Line → Option Relocation
  | .relocation place => some place
  | _ => none

/-- The name that a line says the program needs. -/
def external? : Line → Option Name
  | .external name => some name
  | _ => none

/-- The name that a line says the program offers, with its value. -/
def entry? : Line → Option (Name × Option UInt16)
  | .entry name value => some (name, value)
  | _ => none

end Line

/-- Read a dictionary line by line; each line ends with a newline. -/
def read? (text : String) : Option Dictionary :=
  ((text.toList.splitOn '\n').dropLast.mapM Line.read?).map fun lines =>
    { relocations := lines.filterMap Line.relocation?
      externals := lines.filterMap Line.external?
      entries := lines.filterMap Line.entry? }

/-! ### Words without a break -/

/-- The word has no blank and no newline. -/
def Unbroken (word : String) : Prop := ' ' ∉ word.toList ∧ '\n' ∉ word.toList

instance (word : String) : Decidable (Unbroken word) := inferInstanceAs (Decidable (_ ∧ _))

theorem unbroken_of_isBlank {word : String} (solid : ∀ c ∈ word.toList, Text.isBlank c = false) :
    Unbroken word := by
  constructor
  · intro blank
    cases solid ' ' blank
  · intro newline
    cases solid '\n' newline

theorem unbroken_dollar (w : UInt16) : Unbroken (Text.dollar w) := by
  apply unbroken_of_isBlank
  intro c mem
  rw [Text.toList_dollar] at mem
  rcases List.mem_cons.mp mem with rfl | digit
  · rfl
  · exact Text.isBlank_of_mem_hexWord digit

theorem isDigit_of_mem_decimal {n : Nat} {c : Char} (mem : c ∈ (Text.decimal n).toList) :
    c.isDigit = true := by
  rw [Text.toList_decimal] at mem
  exact Nat.isDigit_of_mem_toDigits (by decide) (by decide) mem

theorem unbroken_decimal (n : Nat) : Unbroken (Text.decimal n) :=
  unbroken_of_isBlank fun _ mem => Text.isBlank_of_isDigit (isDigit_of_mem_decimal mem)

/-- Joined words have no other characters than their own and the separator. -/
theorem not_mem_intercalate {c separator : Char} (other : c ≠ separator) {words : List (List Char)}
    (free : ∀ word ∈ words, c ∉ word) : c ∉ [separator].intercalate words := by
  induction words with
  | nil => simp [List.intercalate]
  | cons word words ih =>
    rw [List.forall_mem_cons] at free
    cases words with
    | nil =>
      rw [List.intercalate_singleton]
      exact free.1
    | cons next words =>
      rw [List.intercalate_cons_cons]
      simp only [List.mem_append, List.mem_singleton, not_or]
      exact ⟨⟨free.1, other⟩, ih free.2⟩

/-! ### Lines -/

namespace Line

/-- The words of a line. -/
def words : Line → List String
  | .relocation place => ["RLD", Text.dollar place.address, Text.decimal place.size]
  | .external name => ["EXTRN", name.text]
  | .entry name value => "ENTRY" :: name.text :: (value.map Text.dollar).toList

/-- The characters of a line: its words with blanks between them. -/
def text (line : Line) : List Char := [' '].intercalate (line.words.map String.toList)

/-- The name in a line has no blank and no newline. -/
def Plain : Line → Prop
  | .relocation _ => True
  | .external name | .entry name _ => Unbroken name.text

theorem value?_dollar (w : UInt16) : value? (Text.dollar w) = some w := by
  rw [value?, Text.toList_dollar]
  show (Text.hexNumber? (Text.hexWord w)).map UInt16.ofNat = some w
  rw [Text.hexNumber?_hexWord, Option.map_some, UInt16.ofNat_toNat]

theorem number?_decimal (n : Nat) : number? (Text.decimal n) = some n := by
  rw [number?, if_pos (List.all_eq_true.mpr fun _ mem => isDigit_of_mem_decimal mem),
    Text.toList_decimal, Nat.ofDigitChars_ten_toDigits]

/-- A line is read from its words. -/
theorem ofWords?_words (line : Line) : ofWords? line.words = some line := by
  cases line with
  | relocation place =>
    show (value? (Text.dollar place.address)).bind (fun address =>
      (number? (Text.decimal place.size)).map fun size => Line.relocation ⟨address, size⟩) = _
    rw [value?_dollar, number?_decimal]
    rfl
  | external name => rfl
  | entry name value =>
    cases value with
    | none => rfl
    | some value =>
      show (value? (Text.dollar value)).map (fun value => Line.entry name (some value)) = _
      rw [value?_dollar]
      rfl

variable {line : Line} (plain : line.Plain)

include plain

theorem unbroken_of_mem_words {word : List Char} (mem : word ∈ line.words.map String.toList) :
    ' ' ∉ word ∧ '\n' ∉ word := by
  obtain ⟨spelled, listed, rfl⟩ := List.mem_map.mp mem
  show Unbroken spelled
  cases line with
  | relocation place =>
    simp only [words, List.mem_cons, List.not_mem_nil, or_false] at listed
    rcases listed with rfl | rfl | rfl
    · decide
    · exact unbroken_dollar _
    · exact unbroken_decimal _
  | external name =>
    simp only [words, List.mem_cons, List.not_mem_nil, or_false] at listed
    rcases listed with rfl | rfl
    · decide
    · exact plain
  | entry name value =>
    simp only [words, List.mem_cons, Option.mem_toList, Option.map_eq_some_iff] at listed
    rcases listed with rfl | rfl | ⟨value, -, rfl⟩
    · decide
    · exact plain
    · exact unbroken_dollar value

/-- **A line is read back** from its characters. -/
theorem read?_text : read? line.text = some line := by
  have apart : ∀ word ∈ line.words.map String.toList, ' ' ∉ word :=
    fun _ mem => (unbroken_of_mem_words plain mem).1
  have present : line.words.map String.toList ≠ [] := by
    cases line <;> exact List.cons_ne_nil _ _
  have spelled : (line.words.map String.toList).map String.ofList = line.words := by
    simp [List.map_map, Function.comp_def]
  rw [read?, text, List.splitOn_intercalate ' ' apart present, spelled, ofWords?_words]

theorem newline_not_mem_text : '\n' ∉ line.text :=
  not_mem_intercalate (by decide) fun _ mem => (unbroken_of_mem_words plain mem).2

end Line

/-! ### Texts of lines -/

/-- The lines of a dictionary. -/
def lines (dictionary : Dictionary) : List Line :=
  dictionary.relocations.map .relocation ++ dictionary.externals.map .external ++
    dictionary.entries.map fun entry => .entry entry.1 entry.2

theorem toList_render (dictionary : Dictionary) :
    dictionary.render.toList = (dictionary.lines.map Line.text).flatMap (· ++ ['\n']) := by
  have relocation (place : Relocation) :
      (relocationLine place).toList = (Line.relocation place).text ++ ['\n'] := by
    simp [relocationLine, Line.text, Line.words, List.intercalate]
  have external (name : Name) :
      (externalLine name).toList = (Line.external name).text ++ ['\n'] := by
    simp [externalLine, Line.text, Line.words, List.intercalate]
  have entry (entry : Name × Option UInt16) :
      (entryLine entry).toList = (Line.entry entry.1 entry.2).text ++ ['\n'] := by
    obtain ⟨name, value⟩ := entry
    cases value <;> simp [entryLine, Line.text, Line.words, List.intercalate]
  simp only [render, lines, String.toList_append, String.toList_join, List.map_append,
    List.map_map, List.flatMap_append, List.flatMap_map, Function.comp_def, relocation, external,
    entry]

/-- A text of lines is cut into them. -/
theorem splitOn_lines {texts : List (List Char)} (unbroken : ∀ text ∈ texts, '\n' ∉ text) :
    (texts.flatMap (· ++ ['\n'])).splitOn '\n' = texts ++ [[]] := by
  induction texts with
  | nil => rfl
  | cons text texts ih =>
    rw [List.forall_mem_cons] at unbroken
    rw [List.flatMap_cons, List.append_assoc, List.singleton_append,
      List.splitOn_append_cons_self_of_not_mem unbroken.1, ih unbroken.2, List.cons_append]

theorem mapM_read?_text {lines : List Line} (plain : ∀ line ∈ lines, line.Plain) :
    (lines.map Line.text).mapM Line.read? = some lines := by
  induction lines with
  | nil => rfl
  | cons line lines ih =>
    rw [List.forall_mem_cons] at plain
    rw [List.map_cons, List.mapM_cons, Line.read?_text plain.1, ih plain.2]
    rfl

/-- The lines of each kind are those of one part of the dictionary. -/
theorem filterMap_lines (dictionary : Dictionary) :
    dictionary.lines.filterMap Line.relocation? = dictionary.relocations ∧
      dictionary.lines.filterMap Line.external? = dictionary.externals ∧
      dictionary.lines.filterMap Line.entry? = dictionary.entries := by
  simp [lines, List.filterMap_append, List.filterMap_map, Function.comp_def, Line.relocation?,
    Line.external?, Line.entry?]

/-- **A dictionary is read back** from its text. -/
theorem read?_render (dictionary : Dictionary) (plain : ∀ line ∈ dictionary.lines, line.Plain) :
    read? dictionary.render = some dictionary := by
  have unbroken : ∀ text ∈ dictionary.lines.map Line.text, '\n' ∉ text := by
    intro text mem
    obtain ⟨line, listed, rfl⟩ := List.mem_map.mp mem
    exact Line.newline_not_mem_text (plain line listed)
  obtain ⟨relocations, externals, entries⟩ := dictionary.filterMap_lines
  rw [read?, toList_render, splitOn_lines unbroken, List.dropLast_concat, mapM_read?_text plain,
    Option.map_some, relocations, externals, entries]

end Asm6502.Dictionary
